import RunAlexDb.Query.TableQueries

/-!
# Subqueries — what is left of them in a WHERE clause

The subqueries of a condition are replaced before it is evaluated, those that
stand where the replacement looks: under AND, OR and the other binary operators,
under unary ones and parentheses. A subquery that fails is replaced too, by an
empty list or NULL, and its error is lost.

Main result: `subqueries_iff`.
-/

set_option linter.unusedSectionVars false

namespace RunAlexDb

open Text Platform

-- ---------------------------------------------------------------------------
-- Subqueries of an expression
-- ---------------------------------------------------------------------------

mutual

/-- The subqueries in an expression, at any depth. -/
def Expr.subqueries : Expr → List Query
  | .identifier _ | .compoundIdentifier _ | .value _ | .other _ => []
  | .nested e | .unaryOp _ e | .isNull e | .isNotNull e | .cast e _ | .convert e _
  | .interval e _ => e.subqueries
  | .binaryOp left _ right => left.subqueries ++ right.subqueries
  | .inList e list _ => e.subqueries ++ listSubqueries list
  | .inSubquery e q _ => e.subqueries ++ [q]
  | .between e _ low high => e.subqueries ++ low.subqueries ++ high.subqueries
  | .like _ e pattern | .iLike _ e pattern => e.subqueries ++ pattern.subqueries
  | .case operand conditions elseResult =>
    optionSubqueries operand ++ whenSubqueries conditions ++ optionSubqueries elseResult
  | .function f => f.subqueries
  | .subquery q => [q]
  | .exists q _ => [q]
  | .compound _ parts => listSubqueries parts

def optionSubqueries : Option Expr → List Query
  | none => []
  | some e => e.subqueries

def listSubqueries : List Expr → List Query
  | [] => []
  | e :: rest => e.subqueries ++ listSubqueries rest

def whenSubqueries : List CaseWhen → List Query
  | [] => []
  | .mk condition result :: rest =>
    condition.subqueries ++ result.subqueries ++ whenSubqueries rest

def FunctionArgExpr.subqueries : FunctionArgExpr → List Query
  | .expr e => e.subqueries
  | .qualifiedWildcard _ | .wildcard => []

def FunctionArg.subqueries : FunctionArg → List Query
  | .unnamed arg | .named _ arg => arg.subqueries
  | .exprNamed name arg => name.subqueries ++ arg.subqueries

def argSubqueries : List FunctionArg → List Query
  | [] => []
  | a :: rest => a.subqueries ++ argSubqueries rest

def FunctionArgumentList.subqueries : FunctionArgumentList → List Query
  | .mk _ args _ => argSubqueries args

def FunctionArguments.subqueries : FunctionArguments → List Query
  | .none => []
  | .subquery q => [q]
  | .list l => l.subqueries

def Function.subqueries : Function → List Query
  | .mk _ args over_ => args.subqueries ++ overSubqueries over_

def overSubqueries : Option WindowType → List Query
  | none => []
  | some w => w.subqueries

def WindowType.subqueries : WindowType → List Query
  | .windowSpec partitionBy orderBy => listSubqueries partitionBy ++ orderSubqueries orderBy
  | .namedWindow _ => []

def orderSubqueries : List OrderByExpr → List Query
  | [] => []
  | .mk e _ :: rest => e.subqueries ++ orderSubqueries rest

end

/-- Every subquery stands where the replacement looks: none in the left operand of
IN, in a list, a call, CASE, BETWEEN, LIKE, IS NULL and the like, and no EXISTS. -/
def Expr.onlyReached : Expr → Prop
  | .inSubquery e _ _ => e.subqueries = []
  | .binaryOp left _ right => left.onlyReached ∧ right.onlyReached
  | .unaryOp _ e => e.onlyReached
  | .nested e => e.onlyReached
  | .subquery _ => True
  | e => e.subqueries = []

section Subqueries

variable [Platform] {env : QueryEnv} {db dbName : Str}

-- ---------------------------------------------------------------------------
-- What the replacement leaves
-- ---------------------------------------------------------------------------

theorem listSubqueries_literals {list : List Expr} (h : ∀ e ∈ list, ∃ v, e = .value v) :
    listSubqueries list = [] := by
  induction list with
  | nil => rfl
  | cons e list ih =>
    obtain ⟨v, rfl⟩ := h e (List.mem_cons_self ..)
    exact ih fun e' he' => h e' (List.mem_cons_of_mem _ he')

/-- **Nothing is left** exactly of the subqueries the replacement looks for. -/
theorem resolved_subqueries : ∀ (e : Expr) {e' : Expr}, resolveInSubqueries env db e = .ok e' →
    (e'.subqueries = [] ↔ e.onlyReached)
  | .inSubquery e q negated, e', h => by
    rw [resolveInSubqueries] at h
    obtain ⟨r, -, hEq⟩ := ok_of_bind h
    obtain rfl := Except.ok.inj hEq
    rw [Expr.subqueries, listSubqueries_literals (inListOf_literals r), List.append_nil,
      Expr.onlyReached]
  | .binaryOp left op right, e', h => by
    rw [resolveInSubqueries] at h
    obtain ⟨l, hLeft, h⟩ := ok_of_bind h
    obtain ⟨r, hRight, hEq⟩ := ok_of_bind h
    obtain rfl := Except.ok.inj hEq
    rw [Expr.subqueries, List.append_eq_nil_iff, resolved_subqueries left hLeft,
      resolved_subqueries right hRight, Expr.onlyReached]
  | .unaryOp op e, e', h => by
    rw [resolveInSubqueries] at h
    obtain ⟨r, hRun, hEq⟩ := ok_of_bind h
    obtain rfl := Except.ok.inj hEq
    rw [Expr.subqueries, resolved_subqueries e hRun, Expr.onlyReached]
  | .nested e, e', h => by
    rw [resolveInSubqueries] at h
    obtain ⟨r, hRun, hEq⟩ := ok_of_bind h
    obtain rfl := Except.ok.inj hEq
    rw [Expr.subqueries, resolved_subqueries e hRun, Expr.onlyReached]
  | .subquery q, e', h => by
    rw [resolveInSubqueries] at h
    obtain ⟨r, -, hEq⟩ := ok_of_bind h
    obtain rfl := Except.ok.inj hEq
    obtain ⟨v, hValue⟩ := scalarOf_literal r
    rw [hValue]
    exact iff_of_true rfl trivial
  | .identifier _, _, h | .compoundIdentifier _, _, h | .value _, _, h | .isNull _, _, h
  | .isNotNull _, _, h | .inList _ _ _, _, h | .between _ _ _ _, _, h | .like _ _ _, _, h
  | .iLike _ _ _, _, h | .case _ _ _, _, h | .cast _ _, _, h | .convert _ _, _, h
  | .function _, _, h | .interval _ _, _, h | .exists _ _, _, h | .compound _ _, _, h
  | .other _, _, h => by
    obtain rfl := Except.ok.inj h
    rfl

-- ---------------------------------------------------------------------------
-- Errors of a SELECT
-- ---------------------------------------------------------------------------

section Ways

variable {now : Nat} {t : Table} {distinct : Option Distinct} {projection : List SelectItem}
  {w : Option Expr} {orderBy : Option OrderByKind} {limit offset : Option Expr} {r : QueryResult}

theorem selectPlain_isErr
    (h : selectPlain now t distinct projection w orderBy limit offset = .ok r) :
    r.isErr = false := by
  rw [selectPlain_eq] at h
  obtain ⟨key, -, h⟩ := ok_of_bind h
  cases key with
  | some key =>
    obtain rfl := Except.ok.inj h
    rfl
  | none =>
    simp only at h
    cases hRows : selectedRows now t w with
    | error fault => rw [hRows] at h; cases h
    | ok rows =>
      rw [hRows] at h
      obtain rfl := Except.ok.inj h
      rw [plainResult]
      split <;> rfl

/-- A query that has its table does not fail. -/
theorem selectTable_isErr {groupBy : GroupByExpr} {having : Option Expr}
    (h : selectTable now t distinct projection w groupBy having orderBy limit offset = .ok r) :
    r.isErr = false := by
  cases hOnly : isAggregateOnly projection groupBy with
  | true =>
    rw [selectTable_aggregates _ _ _ _ _ _ hOnly] at h
    obtain ⟨rows, -, hEq⟩ := ok_of_bind h
    obtain rfl := Except.ok.inj hEq
    rfl
  | false =>
    by_cases hBy : groupByCols t.columns groupBy = []
    · cases hPlain : projection.all isPlainCol with
      | true =>
        rw [selectTable_plain _ _ _ _ _ _ hOnly hBy hPlain] at h
        exact selectPlain_isErr h
      | false =>
        rw [selectTable_exprs _ _ _ _ _ _ hOnly hBy hPlain] at h
        obtain ⟨rows, -, h⟩ := ok_of_bind h
        obtain ⟨out, -, hEq⟩ := ok_of_bind h
        obtain rfl := Except.ok.inj hEq
        rfl
    · rw [selectTable_groups _ _ _ _ _ _ hOnly hBy] at h
      obtain ⟨rows, -, h⟩ := ok_of_bind h
      obtain ⟨groups, -, hEq⟩ := ok_of_bind h
      obtain rfl := Except.ok.inj hEq
      rfl

end Ways

/-- There is no table of the name. -/
def TableMissing (env : QueryEnv) (dbName raw : Str) : Prop :=
  ∀ t, findTable env.databases (resolveName dbName raw).1 (resolveName dbName raw).2 [] [] ≠ .ok t

theorem findTable_isErr {dbs : HashMap Str Database} {db table noDb noTable : Str}
    {other : QueryResult} (h : findTable dbs db table noDb noTable = .error other) :
    other.isErr = true := by
  rw [findTable] at h
  split at h
  · obtain rfl := Except.error.inj h
    rfl
  · split at h
    · obtain rfl := Except.error.inj h
      rfl
    · cases h

/-- Joining fails exactly when a table to join is missing. -/
theorem joinAll_isErr : ∀ {joins : List Join} {cols : List Column} {rows : List Row}
    {res : Except QueryResult (List Column × List Row)},
    joinAll env dbName joins cols rows = .ok res →
      (∀ other, res = .error other → other.isErr = true ∧
        ∃ j relation operator, j ∈ joins ∧ j = Join.mk relation operator ∧
          TableMissing env dbName (relationName relation)) ∧
      (∀ p, res = .ok p → ∀ relation operator, Join.mk relation operator ∈ joins →
        ¬ TableMissing env dbName (relationName relation))
  | [], cols, rows, res, h => by
    obtain rfl := Except.ok.inj h
    exact ⟨fun other hEq => (by cases hEq), fun p _ relation operator hMem => (by cases hMem)⟩
  | .mk relation operator :: rest, cols, rows, res, h => by
    simp only [joinAll] at h
    cases hFind : findTable env.databases (resolveName dbName (relationName relation)).1
        (resolveName dbName (relationName relation)).2
        (unknownDatabase (resolveName dbName (relationName relation)).1)
        (unknownTable (resolveName dbName (relationName relation)).2) with
    | error other =>
      rw [hFind] at h
      obtain rfl := Except.ok.inj h
      refine ⟨fun other' hEq => ?_, fun p hEq => (by cases hEq)⟩
      obtain rfl := Except.error.inj hEq
      refine ⟨findTable_isErr hFind, _, relation, operator, List.mem_cons_self .., rfl, ?_⟩
      intro t hOk
      rw [findTable_ok_iff.2 hOk] at hFind
      cases hFind
    | ok right =>
      rw [hFind] at h
      obtain ⟨joined, -, h⟩ := ok_of_bind h
      obtain ⟨hError, hOk⟩ := joinAll_isErr h
      refine ⟨fun other hEq => ?_, fun p hEq relation' operator' hMem => ?_⟩
      · obtain ⟨hErr, j, relation', operator', hMem, hj, hMissing⟩ := hError other hEq
        exact ⟨hErr, j, relation', operator', List.mem_cons_of_mem _ hMem, hj, hMissing⟩
      · rcases List.mem_cons.1 hMem with hHere | hLater
        · obtain ⟨rfl, rfl⟩ := Join.mk.inj hHere
          exact fun hMissing => hMissing right (findTable_ok_iff.1 hFind)
        · exact hOk p hEq relation' operator' hLater

-- ---------------------------------------------------------------------------
-- Errors of the FROM clause
-- ---------------------------------------------------------------------------

/-- A query ends with an error. -/
def SelectFails (env : QueryEnv) (dbName : Str) (q : Query) : Prop :=
  ∃ r, select env dbName q = .ok r ∧ r.isErr = true

/-- The database the tables of a FROM item are looked up in. -/
def whereDb (dbName : Str) : List TableWithJoins → Str
  | .mk (.derived _ _) _ :: _ => dbName
  | .mk relation _ :: _ => (resolveName dbName relation.toString).1
  | [] => dbName

/-- The FROM clause fails on its own: a table it names is missing, or the query in
it fails. -/
def FromFails (env : QueryEnv) (dbName : Str) : List TableWithJoins → Prop
  | [] => False
  | .mk (.derived q _) _ :: _ => SelectFails env dbName q
  | .mk relation [] :: _ => TableMissing env dbName relation.toString
  | .mk relation joins :: _ =>
    TableMissing env (resolveName dbName relation.toString).1 (relationName relation) ∨
      ∃ joined operator, Join.mk joined operator ∈ joins ∧
        TableMissing env (resolveName dbName relation.toString).1 (relationName joined)

section From

variable {projection : List SelectItem} {w : Option Expr} {groupBy : GroupByExpr}
  {having : Option Expr} {orderBy : Option OrderByKind} {limit offset : Option Expr}
  {r : QueryResult}

theorem selectDerived_isErr {now : Nat} {inner : QueryResult}
    (h : selectDerived now inner projection w orderBy limit offset = .ok r) :
    r.isErr = inner.isErr := by
  rw [selectDerived] at h
  cases hInner : asTextRows inner with
  | error other =>
    rw [hInner] at h
    obtain rfl := Except.ok.inj h
    cases inner with
    | rows columns rows => cases hInner
    | valueRows columns rows => cases hInner
    | _ =>
      obtain rfl := Except.error.inj hInner
      rfl
  | ok p =>
    rw [hInner] at h
    obtain ⟨kept, -, h⟩ := ok_of_bind h
    obtain ⟨rows, -, hEq⟩ := ok_of_bind h
    obtain rfl := Except.ok.inj hEq
    cases inner with
    | rows columns rows => rfl
    | valueRows columns rows => rfl
    | _ => cases hInner

theorem selectJoined_isErr {relation : TableFactor} {joins : List Join}
    (h : selectJoined env dbName (.mk relation joins) projection w groupBy orderBy limit offset =
      .ok r) :
    r.isErr = true ↔ TableMissing env dbName (relationName relation) ∨
      ∃ joined operator, Join.mk joined operator ∈ joins ∧
        TableMissing env dbName (relationName joined) := by
  simp only [selectJoined, TableWithJoins.relation, TableWithJoins.joins] at h
  cases hFind : findTable env.databases (resolveName dbName (relationName relation)).1
      (resolveName dbName (relationName relation)).2
      (unknownDatabase (resolveName dbName (relationName relation)).1)
      (unknownTable (resolveName dbName (relationName relation)).2) with
  | error other =>
    rw [hFind] at h
    obtain rfl := Except.ok.inj h
    refine iff_of_true (findTable_isErr hFind) (.inl fun t hOk => ?_)
    rw [findTable_ok_iff.2 hOk] at hFind
    cases hFind
  | ok base =>
    rw [hFind] at h
    obtain ⟨res, hJoin, h⟩ := ok_of_bind h
    obtain ⟨hError, hOk⟩ := joinAll_isErr hJoin
    cases res with
    | error other =>
      obtain rfl := Except.ok.inj h
      obtain ⟨hErr, -, joined, operator, hMem, rfl, hMissing⟩ := hError other rfl
      exact iff_of_true hErr (.inr ⟨joined, operator, hMem, hMissing⟩)
    | ok p =>
      have hNone : r.isErr = false := by
        obtain ⟨rows, -, h⟩ := ok_of_bind h
        split at h
        · obtain ⟨out, -, hEq⟩ := ok_of_bind h
          obtain rfl := Except.ok.inj hEq
          rfl
        · obtain ⟨out, -, hEq⟩ := ok_of_bind h
          obtain rfl := Except.ok.inj hEq
          rfl
      rw [hNone]
      refine iff_of_false Bool.false_ne_true ?_
      rintro (hMissing | ⟨joined, operator, hMem, hMissing⟩)
      · exact hMissing base (findTable_ok_iff.1 hFind)
      · exact hOk p rfl joined operator hMem hMissing

/-- What follows FROM, when it is no subquery. -/
theorem selectFrom_relation {relation : TableFactor} (hPlain : ∀ q rest, relation ≠ .derived q rest)
    (distinct : Option Distinct) (joins : List Join) (more : List TableWithJoins) :
    selectFrom env dbName orderBy limit offset
        (.mk distinct projection (.mk relation joins :: more) w groupBy having) =
      (resolveSelection env (resolveName dbName relation.toString).1 w).bind fun w' =>
        if !joins.isEmpty then
          selectJoined env (resolveName dbName relation.toString).1 (.mk relation joins) projection w'
            groupBy orderBy limit offset
        else
          match findTable env.databases (resolveName dbName relation.toString).1
              (resolveName dbName relation.toString).2
              (unknownDatabase (resolveName dbName relation.toString).1)
              (unknownTable ((resolveName dbName relation.toString).1 ++ "." ++
                (resolveName dbName relation.toString).2)) with
          | .error other => .ok other
          | .ok table => selectTable env.now table distinct projection w' groupBy having orderBy
              limit offset := by
  cases relation with
  | derived q rest => exact absurd rfl (hPlain q rest)
  | _ => rw [selectFrom]; rfl

theorem fromFails_relation {relation : TableFactor} (hPlain : ∀ q rest, relation ≠ .derived q rest)
    (joins : List Join) (more : List TableWithJoins) :
    FromFails env dbName (.mk relation joins :: more) ↔
      if !joins.isEmpty then
        TableMissing env (resolveName dbName relation.toString).1 (relationName relation) ∨
          ∃ joined operator, Join.mk joined operator ∈ joins ∧
            TableMissing env (resolveName dbName relation.toString).1 (relationName joined)
      else TableMissing env dbName relation.toString := by
  cases relation with
  | derived q rest => exact absurd rfl (hPlain q rest)
  | _ => cases joins <;> exact Iff.rfl

/-- **A SELECT fails** exactly when its FROM clause does, whatever its condition. -/
theorem select_isErr {distinct : Option Distinct} {from_ : List TableWithJoins}
    (h : select env dbName
        (.mk (.select (.mk distinct projection from_ w groupBy having)) orderBy limit offset) =
      .ok r) : r.isErr = true ↔ FromFails env dbName from_ := by
  rw [select, selectBody] at h
  rcases from_ with _ | ⟨⟨relation, joins⟩, more⟩
  · rw [selectFrom] at h
    obtain ⟨vals, -, hEq⟩ := ok_of_bind h
    obtain rfl := Except.ok.inj hEq
    exact iff_of_false Bool.false_ne_true id
  by_cases hDerived : ∃ q rest, relation = .derived q rest
  · obtain ⟨q, rest, rfl⟩ := hDerived
    rw [selectFrom, derivedSource] at h
    obtain ⟨source, hSource, h⟩ := ok_of_bind h
    obtain ⟨inner, hInner, hEq⟩ := ok_of_bind hSource
    obtain rfl := Except.ok.inj hEq
    rw [selectDerived_isErr h]
    constructor
    · exact fun hErr => ⟨inner, hInner, hErr⟩
    · rintro ⟨inner', hInner', hErr⟩
      obtain rfl := Except.ok.inj (hInner.symm.trans hInner')
      exact hErr
  · have hPlain : ∀ q rest, relation ≠ .derived q rest := fun q rest hEq => hDerived ⟨q, rest, hEq⟩
    rw [selectFrom_relation hPlain] at h
    rw [fromFails_relation hPlain]
    obtain ⟨w', -, h⟩ := ok_of_bind h
    split at h
    · rename_i hJoins
      rw [if_pos hJoins]
      exact selectJoined_isErr h
    · rename_i hJoins
      rw [if_neg hJoins]
      split at h
      · rename_i other hFind
        obtain rfl := Except.ok.inj h
        refine iff_of_true (findTable_isErr hFind) fun t hOk => ?_
        rw [findTable_ok_iff.2 hOk] at hFind
        cases hFind
      · rename_i table hFind
        rw [selectTable_isErr h]
        exact iff_of_false Bool.false_ne_true fun hMissing =>
          hMissing table (findTable_ok_iff.1 hFind)

/-- **Subqueries.** The replacement leaves none exactly when all stand where it
looks; the error of one that fails becomes an error of the query exactly when the
FROM clause fails as well. -/
theorem subqueries_iff (env : QueryEnv) (dbName : Str) (w : Expr) :
    (∀ db e', resolveInSubqueries env db w = .ok e' → (e'.subqueries = [] ↔ w.onlyReached)) ∧
    ∀ distinct projection from_ groupBy having orderBy limit offset r,
      select env dbName (.mk (.select (.mk distinct projection from_ (some w) groupBy having))
        orderBy limit offset) = .ok r →
      (((∃ q ∈ w.subqueries, SelectFails env (whereDb dbName from_) q) → r.isErr = true) ↔
        (∀ q ∈ w.subqueries, ¬ SelectFails env (whereDb dbName from_) q) ∨
          FromFails env dbName from_) := by
  refine ⟨fun db e' h => resolved_subqueries w h, fun distinct projection from_ groupBy having
    orderBy limit offset r h => ?_⟩
  rw [select_isErr h]
  constructor
  · intro hFails
    by_cases hSome : ∃ q ∈ w.subqueries, SelectFails env (whereDb dbName from_) q
    · exact .inr (hFails hSome)
    · exact .inl fun q hq hFail => hSome ⟨q, hq, hFail⟩
  · rintro (hNone | hFrom) ⟨q, hq, hFail⟩
    · exact absurd hFail (hNone q hq)
    · exact hFrom

end From

end Subqueries

-- ---------------------------------------------------------------------------
-- A subquery of a missing table
-- ---------------------------------------------------------------------------

section MissingTable

local instance subqueriesPlatform : Platform := tablePlatform []

/-- `SELECT a FROM u`, where there is no table u. -/
def selectFromU : Query :=
  tableQuery [⟨"u", none⟩] none [.unnamedExpr (.identifier ⟨"a", none⟩)] none (.expressions []) none
    none none none

/-- `a NOT IN (SELECT a FROM u)`. -/
def notInU : Expr := .inSubquery (.identifier ⟨"a", none⟩) selectFromU true

def tOnly : QueryEnv := (oneTable [[.int 1]]).env 0

/-- `SELECT a FROM t WHERE w`. -/
def selectWhere (w : Expr) : Query :=
  tableQuery nameT none [.unnamedExpr (.identifier ⟨"a", none⟩)] (some w) (.expressions []) none
    none none none

theorem notInU_rows : select tOnly "test" (selectWhere notInU) = .ok (.valueRows ["a"] [[.int 1]]) := by
  decide +kernel

theorem selectFromU_fails : SelectFails tOnly "test" selectFromU :=
  ⟨.err 1146 (unknownTable "test.u"), by decide +kernel, rfl⟩

/-- `SELECT a FROM t WHERE a NOT IN (SELECT a FROM u)`: the rows of t, and u is
missing. -/
theorem subqueries_iff_missing : (∀ e', resolveInSubqueries tOnly "test" notInU = .ok e' →
      (e'.subqueries = [] ↔ notInU.onlyReached)) ∧
    (((∃ q ∈ notInU.subqueries, SelectFails tOnly "test" q) →
        (QueryResult.valueRows ["a"] [[.int 1]]).isErr = true) ↔
      (∀ q ∈ notInU.subqueries, ¬ SelectFails tOnly "test" q) ∨
        FromFails tOnly "test" [.mk (.table nameT []) []]) :=
  ⟨(subqueries_iff tOnly "test" notInU).1 "test",
    (subqueries_iff tOnly "test" notInU).2 none _ _ _ none none none none _ notInU_rows⟩

/-- The rows come, though the subquery fails. -/
theorem not_subqueries_resolved : ¬ ∀ (env : QueryEnv) (dbName : Str) (w : Expr),
    (∀ db e', resolveInSubqueries env db w = .ok e' → e'.subqueries = []) ∧
    ∀ distinct projection from_ groupBy having orderBy limit offset r,
      select env dbName (.mk (.select (.mk distinct projection from_ (some w) groupBy having))
        orderBy limit offset) = .ok r →
      (∃ q ∈ w.subqueries, SelectFails env (whereDb dbName from_) q) → r.isErr = true := by
  intro hAll
  have hErr := (hAll tOnly "test" notInU).2 none _ _ _ none none none none _ notInU_rows
    ⟨selectFromU, List.mem_singleton_self _, selectFromU_fails⟩
  cases hErr

end MissingTable

end RunAlexDb
