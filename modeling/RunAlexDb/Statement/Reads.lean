import RunAlexDb.Model.Select

/-!
# Reads — the databases a query looks into

`readsQuery dbName q` lists the databases whose tables `select` looks up when
it runs `q` in database `dbName`: those of its FROM clause, of its joins and of
the subqueries that are resolved.

Main result: `select_congr`, a query gives the same result on any two
environments that agree on these.
-/

set_option linter.unusedSectionVars false

namespace RunAlexDb

open Text Platform

variable [Platform]

-- ---------------------------------------------------------------------------
-- The names
-- ---------------------------------------------------------------------------

/-- The databases the tables of a join chain are looked up in. -/
def readsJoins (dbName : Str) (joins : List Join) : List Str :=
  joins.map fun | .mk relation _ => (resolveName dbName (relationName relation)).1

/-- The databases the FROM item itself is looked up in. -/
def readsFrom (dbName : Str) (from_ : TableWithJoins) : List Str :=
  if from_.joins.isEmpty then [dbName]
  else (resolveName dbName (relationName from_.relation)).1 :: readsJoins dbName from_.joins

/-- The database a FROM item selects for the rest of its query. -/
def fromDb (dbName : Str) (from_ : TableWithJoins) : Str :=
  (resolveName dbName from_.relation.toString).1

mutual

def readsQuery (dbName : Str) : Query → List Str
  | .mk body _ _ _ => readsBody dbName body
termination_by structural q => q

def readsBody (dbName : Str) : SetExpr → List Str
  | .setOperation _ _ left right => readsBody dbName left ++ readsBody dbName right
  | .select s => readsSelect dbName s
  | _ => []
termination_by structural body => body

def readsSelect (dbName : Str) : Select → List Str
  | .mk _ _ [] _ _ _ => []
  | .mk _ _ (from_ :: _) selection _ _ =>
    match readsDerived dbName from_ with
    | some names => names
    | none =>
      readsSelection (fromDb dbName from_) selection ++ readsFrom (fromDb dbName from_) from_
termination_by structural s => s

/-- The names a derived table reads; `none` when the FROM item is none. -/
def readsDerived (dbName : Str) : TableWithJoins → Option (List Str)
  | .mk (.derived subquery _) _ => some (readsQuery dbName subquery)
  | _ => none
termination_by structural t => t

def readsSelection (dbName : Str) : Option Expr → List Str
  | none => []
  | some w => readsExpr dbName w
termination_by structural w => w

def readsExpr (dbName : Str) : Expr → List Str
  | .inSubquery _ subquery _ => readsQuery dbName subquery
  | .binaryOp left _ right => readsExpr dbName left ++ readsExpr dbName right
  | .unaryOp _ e => readsExpr dbName e
  | .subquery q => readsQuery dbName q
  | .nested e => readsExpr dbName e
  | _ => []
termination_by structural e => e

end

-- ---------------------------------------------------------------------------
-- Two environments
-- ---------------------------------------------------------------------------

/-- Environments that agree on the databases of `names`. -/
structure QueryEnv.AgreeOn (names : List Str) (env env' : QueryEnv) : Prop where
  now : env.now = env'.now
  lastInsertId : env.lastInsertId = env'.lastInsertId
  databases : ∀ d ∈ names, env.databases.get d = env'.databases.get d

namespace QueryEnv.AgreeOn

variable {names names' : List Str} {env env' : QueryEnv}

theorem left (h : AgreeOn (names ++ names') env env') : AgreeOn names env env' :=
  ⟨h.now, h.lastInsertId, fun d hd => h.databases d (List.mem_append_left _ hd)⟩

theorem right (h : AgreeOn (names ++ names') env env') : AgreeOn names' env env' :=
  ⟨h.now, h.lastInsertId, fun d hd => h.databases d (List.mem_append_right _ hd)⟩

theorem tail {name : Str} (h : AgreeOn (name :: names) env env') : AgreeOn names env env' :=
  ⟨h.now, h.lastInsertId, fun d hd => h.databases d (List.mem_cons_of_mem _ hd)⟩

end QueryEnv.AgreeOn

/-- A lookup sees only the database it is made in. -/
theorem findTable_congr {a b : HashMap Str Database} {dbName : Str}
    (h : a.get dbName = b.get dbName) (table noDb noTable : Str) :
    findTable a dbName table noDb noTable = findTable b dbName table noDb noTable := by
  rw [findTable, findTable, h]

theorem joinAll_congr {env env' : QueryEnv} {dbName : Str} (joins : List Join) (cols : List Column)
    (rows : List Row) (h : QueryEnv.AgreeOn (readsJoins dbName joins) env env') :
    joinAll env dbName joins cols rows = joinAll env' dbName joins cols rows := by
  induction joins generalizing cols rows with
  | nil => rfl
  | cons join joins ih =>
    obtain ⟨relation, operator⟩ := join
    have hFind := h.databases (resolveName dbName (relationName relation)).1 (by simp [readsJoins])
    have hRest : QueryEnv.AgreeOn (readsJoins dbName joins) env env' := QueryEnv.AgreeOn.tail h
    simp only [joinAll, findTable_congr hFind, h.now, ih _ _ hRest]

theorem selectJoined_congr {env env' : QueryEnv} {dbName : Str} {from_ : TableWithJoins}
    (hJoins : from_.joins.isEmpty = false)
    (h : QueryEnv.AgreeOn (readsFrom dbName from_) env env') (projection : List SelectItem)
    (selection : Option Expr) (groupBy : GroupByExpr) (orderBy : Option OrderByKind)
    (limit offset : Option Expr) :
    selectJoined env dbName from_ projection selection groupBy orderBy limit offset =
      selectJoined env' dbName from_ projection selection groupBy orderBy limit offset := by
  rw [readsFrom, hJoins, if_neg Bool.false_ne_true] at h
  have hBase := h.databases (resolveName dbName (relationName from_.relation)).1 (by simp)
  simp only [selectJoined, findTable_congr hBase, h.now, joinAll_congr _ _ _ h.tail]

theorem constantCell_congr {env env' : QueryEnv} (hNow : env.now = env'.now)
    (hId : env.lastInsertId = env'.lastInsertId) (dbName : Str) :
    constantCell env dbName = constantCell env' dbName := by
  funext p
  simp only [constantCell, hNow, hId]

-- ---------------------------------------------------------------------------
-- Congruence of the recursion
-- ---------------------------------------------------------------------------

/-- A derived table is the result of a query. -/
theorem derivedSource_some {dbName : Str} {t : TableWithJoins} {names : List Str}
    (h : readsDerived dbName t = some names) (env : QueryEnv) :
    ∃ r, derivedSource env dbName t = do return some (← r) := by
  obtain ⟨relation, joins⟩ := t
  cases relation with
  | derived subquery rest => exact ⟨select env dbName subquery, by rw [derivedSource]⟩
  | table name rest => simp [readsDerived] at h
  | other text => simp [readsDerived] at h

theorem derivedSource_none {dbName : Str} {t : TableWithJoins} (h : readsDerived dbName t = none)
    (env : QueryEnv) : derivedSource env dbName t = pure none := by
  obtain ⟨relation, joins⟩ := t
  cases relation with
  | derived subquery rest => simp [readsDerived] at h
  | table name rest => simp only [derivedSource]
  | other text => simp only [derivedSource]

mutual

/-- **A query looks nowhere else.** -/
theorem select_congr {env env' : QueryEnv} (dbName : Str) :
    (q : Query) → QueryEnv.AgreeOn (readsQuery dbName q) env env' →
      select env dbName q = select env' dbName q
  | .mk body orderBy limit offset => fun h => by
    rw [readsQuery] at h
    rw [select, select, selectBody_congr dbName orderBy limit offset body h]
termination_by structural q => q

theorem selectBody_congr {env env' : QueryEnv} (dbName : Str) (orderBy : Option OrderByKind)
    (limit offset : Option Expr) :
    (body : SetExpr) → QueryEnv.AgreeOn (readsBody dbName body) env env' →
      selectBody env dbName orderBy limit offset body =
        selectBody env' dbName orderBy limit offset body
  | .setOperation _ _ left right => fun h => by
    rw [readsBody] at h
    rw [selectBody, selectBody, selectBody_congr dbName none none none left h.left,
      selectBody_congr dbName none none none right h.right]
  | .select s => fun h => by
    rw [readsBody] at h
    rw [selectBody, selectBody, selectFrom_congr dbName orderBy limit offset s h]
  | .query _ | .values _ | .other _ => fun _ => by simp only [selectBody]
termination_by structural body => body

theorem selectFrom_congr {env env' : QueryEnv} (dbName : Str) (orderBy : Option OrderByKind)
    (limit offset : Option Expr) :
    (s : Select) → QueryEnv.AgreeOn (readsSelect dbName s) env env' →
      selectFrom env dbName orderBy limit offset s = selectFrom env' dbName orderBy limit offset s
  | .mk _ projection [] _ _ _ => fun h => by
    simp only [selectFrom, selectConstants, constantCell_congr h.now h.lastInsertId]
  | .mk distinct projection (from_ :: _) selection groupBy having => fun h => by
    have hDerived : QueryEnv.AgreeOn ((readsDerived dbName from_).getD []) env env' →
        derivedSource env dbName from_ = derivedSource env' dbName from_ :=
      derivedSource_congr dbName from_
    have hSelection : QueryEnv.AgreeOn (readsSelection (fromDb dbName from_) selection) env env' →
        resolveSelection env (fromDb dbName from_) selection =
          resolveSelection env' (fromDb dbName from_) selection :=
      resolveSelection_congr (fromDb dbName from_) selection
    rw [readsSelect] at h
    cases hReads : readsDerived dbName from_ with
    | some names =>
      -- a derived table: the rest of the query reads nothing
      simp only [hReads] at h hDerived
      obtain ⟨r, hSome⟩ := derivedSource_some hReads env'
      rw [selectFrom, selectFrom, hDerived h, hSome]
      simp only [bind_assoc, pure_bind, h.now]
    | none =>
      rcases hName : resolveName dbName from_.relation.toString with ⟨selDb, tableName⟩
      have hDb : fromDb dbName from_ = selDb := by rw [fromDb, hName]
      simp only [hReads, hDb] at h hSelection
      rw [selectFrom, selectFrom, derivedSource_none hReads, derivedSource_none hReads]
      simp only [pure_bind, hName, hSelection h.left, h.now]
      congr 1
      funext w
      have hFrom := h.right
      cases hJoins : from_.joins.isEmpty with
      | false => simp only [Bool.not_false, if_true, selectJoined_congr hJoins hFrom]
      | true =>
        rw [readsFrom, hJoins, if_pos rfl] at hFrom
        have hFind := findTable_congr (hFrom.databases selDb (List.mem_singleton_self _))
        simp only [Bool.not_true, Bool.false_eq_true, if_false, hFind]
termination_by structural s => s

theorem derivedSource_congr {env env' : QueryEnv} (dbName : Str) :
    (t : TableWithJoins) → QueryEnv.AgreeOn ((readsDerived dbName t).getD []) env env' →
      derivedSource env dbName t = derivedSource env' dbName t
  | .mk (.derived subquery _) _ => fun h => by
    rw [readsDerived] at h
    rw [derivedSource, derivedSource, select_congr dbName subquery h]
  | .mk (.table _ _) _ | .mk (.other _) _ => fun _ => by simp only [derivedSource]
termination_by structural t => t

theorem resolveSelection_congr {env env' : QueryEnv} (dbName : Str) :
    (w : Option Expr) → QueryEnv.AgreeOn (readsSelection dbName w) env env' →
      resolveSelection env dbName w = resolveSelection env' dbName w
  | none => fun _ => by rw [resolveSelection, resolveSelection]
  | some w => fun h => by
    rw [readsSelection] at h
    rw [resolveSelection, resolveSelection, resolveInSubqueries_congr dbName w h]
termination_by structural w => w

theorem resolveInSubqueries_congr {env env' : QueryEnv} (dbName : Str) :
    (e : Expr) → QueryEnv.AgreeOn (readsExpr dbName e) env env' →
      resolveInSubqueries env dbName e = resolveInSubqueries env' dbName e
  | .inSubquery _ subquery _ => fun h => by
    rw [readsExpr] at h
    rw [resolveInSubqueries, resolveInSubqueries, select_congr dbName subquery h]
  | .binaryOp left _ right => fun h => by
    rw [readsExpr] at h
    rw [resolveInSubqueries, resolveInSubqueries, resolveInSubqueries_congr dbName left h.left,
      resolveInSubqueries_congr dbName right h.right]
  | .unaryOp _ e => fun h => by
    rw [readsExpr] at h
    rw [resolveInSubqueries, resolveInSubqueries, resolveInSubqueries_congr dbName e h]
  | .subquery q => fun h => by
    rw [readsExpr] at h
    rw [resolveInSubqueries, resolveInSubqueries, select_congr dbName q h]
  | .nested e => fun h => by
    rw [readsExpr] at h
    rw [resolveInSubqueries, resolveInSubqueries, resolveInSubqueries_congr dbName e h]
  | .identifier _ | .compoundIdentifier _ | .value _ | .isNull _ | .isNotNull _ | .inList _ _ _
  | .between _ _ _ _ | .like _ _ _ | .iLike _ _ _ | .case _ _ _ | .cast _ _ | .convert _ _
  | .function _ | .interval _ _ | .exists _ _ | .compound _ _ | .other _ => fun _ => by
    simp only [resolveInSubqueries]
termination_by structural e => e

end

end RunAlexDb
