import RunAlexDb.Query.KeyLookup
import RunAlexDb.Query.SpelledSelects
import RunAlexDb.Statement.TableNames

/-!
# ColumnNames — a column written in backticks

Every place of a statement that names a column reads the identifier by itself:
some its value, some the way it prints, which keeps the quotes. A statement with
a column in backticks does what it does with the column bare exactly at the
places of the first kind.

Main result: `spelled_alike_iff`.
-/

set_option linter.unusedSectionVars false

namespace RunAlexDb

open Text Platform

-- ---------------------------------------------------------------------------
-- Places
-- ---------------------------------------------------------------------------

/-- Where a statement names a column. -/
inductive ColumnPlace
  | createTable | insert | updateSet
  | addColumn | dropColumn | renameFrom | renameTo
  | whereClause | groupBy
  /-- In a query of plain columns of one table, or in any other. -/
  | orderBy (plain : Bool)
  | aggregate
  /-- A column by itself, in a query with FROM and without GROUP BY, or in any other. -/
  | projection (listed : Bool)
deriving DecidableEq

/-- A query of plain columns of one table. -/
def SetExpr.isPlain : SetExpr → Bool
  | .select (.mk _ projection [.mk (.table _ _) []] _ groupBy _) =>
    groupBy.exprs.isEmpty && projection.all isPlainCol
  | _ => false

/-- A query with FROM and without GROUP BY. -/
def readsTable (from_ : List TableWithJoins) (groupBy : GroupByExpr) : Bool :=
  !from_.isEmpty && groupBy.exprs.isEmpty

section Spelling

variable [Platform]

/-- Respell the arguments of an aggregate. -/
def Function.respellAggregate (f : Ident → Ident) (call : Function) : Function :=
  if isAggName (toUppercase (ObjectName.toString call.name)) then call.respell f id else call

def SelectItem.respellAggregate (f : Ident → Ident) : SelectItem → SelectItem
  | .unnamedExpr (.function call) => .unnamedExpr (.function (call.respellAggregate f))
  | .exprWithAlias (.function call) a => .exprWithAlias (.function (call.respellAggregate f)) a
  | p => p

/-- A SELECT with the columns at a place respelled, `g` its subqueries. -/
def Select.spell (p : ColumnPlace) (f : Ident → Ident) (g : Query → Query) : Select → Select
  | .mk distinct projection from_ selection groupBy having =>
    let projection' := match p with
      | .projection listed =>
        if readsTable from_ groupBy = listed then projection.map (SelectItem.respellColumn f)
        else projection
      | .aggregate => projection.map (SelectItem.respellAggregate f)
      | _ => projection
    .mk distinct projection' from_
      (selection.map (Expr.respell (if p = .whereClause then f else id) g))
      (if p = .groupBy then groupBy.respellColumns f else groupBy) having

def SetExpr.spell (p : ColumnPlace) (f : Ident → Ident) (g : Query → Query) : SetExpr → SetExpr
  | .select s => .select (s.spell p f g)
  | .query q => .query (g q)
  | .setOperation op setQuantifier left right =>
    .setOperation op setQuantifier (left.spell p f g) (right.spell p f g)
  | .values rows => .values rows
  | .other text => .other text

def Query.spellOrder (p : ColumnPlace) (f : Ident → Ident) (body : SetExpr) (orderBy : Option OrderByKind) :
    Option OrderByKind :=
  match p with
  | .orderBy plain => if body.isPlain = plain then orderBy.map (OrderByKind.respellColumns f) else orderBy
  | _ => orderBy

/-- A query with the columns at a place respelled, and in its subqueries as deep
as `depth`. -/
def Query.spell (p : ColumnPlace) (f : Ident → Ident) : Nat → Query → Query
  | 0, q => q
  | depth + 1, .mk body orderBy limit offset =>
    .mk (body.spell p f (Query.spell p f depth)) (Query.spellOrder p f body orderBy) limit offset

def AssignmentTarget.respell (f : Ident → Ident) : AssignmentTarget → AssignmentTarget
  | .columnName name => .columnName (respellLast f name)
  | .tuple names => .tuple (names.map (respellLast f))

def AlterTableOperation.spell (p : ColumnPlace) (f : Ident → Ident) :
    AlterTableOperation → AlterTableOperation
  | .addColumn columnDef =>
    .addColumn { columnDef with name := if p = .addColumn then f columnDef.name else columnDef.name }
  | .dropColumn columnName => .dropColumn (if p = .dropColumn then f columnName else columnName)
  | .renameColumn oldColumnName newColumnName =>
    .renameColumn (if p = .renameFrom then f oldColumnName else oldColumnName)
      (if p = .renameTo then f newColumnName else newColumnName)
  | .other text => .other text

def spellCondition (p : ColumnPlace) (f : Ident → Ident) (depth : Nat) (selection : Option Expr) :
    Option Expr :=
  selection.map (Expr.respell (if p = .whereClause then f else id) (Query.spell p f depth))

/-- A statement with the columns at a place respelled. -/
def Statement.spell (p : ColumnPlace) (f : Ident → Ident) (depth : Nat) : Statement → Statement
  | .createTable create =>
    .createTable { create with
      columns := if p = .createTable then create.columns.map fun c => { c with name := f c.name }
        else create.columns
      query := create.query.map (Query.spell p f depth) }
  | .insert ins =>
    .insert { ins with
      columns := if p = .insert then ins.columns.map f else ins.columns
      source := ins.source.map (Query.spell p f depth) }
  | .query q => .query (q.spell p f depth)
  | .update table assignments selection =>
    .update table
      (if p = .updateSet then assignments.map fun a => { a with target := a.target.respell f }
        else assignments)
      (spellCondition p f depth selection)
  | .delete del => .delete { del with selection := spellCondition p f depth del.selection }
  | .alterTable name operations => .alterTable name (operations.map (AlterTableOperation.spell p f))
  | s => s

/-- The statement in a text, or prepared with bound values. -/
def Statement.run (now : Nat) (currentDb : Option Str) (bound : Option (List Value)) (s : Statement) :
    EngineM QueryResult :=
  match bound with
  | none => execStmt now currentDb s
  | some values => execStmtPrepared now values currentDb s

/-- `c` for `c` in backticks. -/
def bare (c : Str) (id : Ident) : Ident := if id = ⟨c, some '`'⟩ then ⟨c, none⟩ else id

/-- A statement that has `c` in backticks at the place, however deep, gives the
result and the engine it gives with `c` bare. -/
def SpelledAlike (bound : Option (List Value)) (p : ColumnPlace) (c : Str) : Prop :=
  ∀ (depth now : Nat) (currentDb : Option Str) (s : Statement) (e : Engine),
    (s.run now currentDb bound).exec e = ((s.spell p (bare c) depth).run now currentDb bound).exec e

/-- The place reads the value of the identifier. -/
def ColumnPlace.readsValue : ColumnPlace → Bool
  | .createTable | .insert | .whereClause | .groupBy => true
  | .updateSet | .addColumn | .dropColumn | .renameFrom | .renameTo | .aggregate => false
  | .orderBy plain => plain
  | .projection listed => listed

-- ---------------------------------------------------------------------------
-- Places that read the value
-- ---------------------------------------------------------------------------

theorem bare_value (c : Str) (id : Ident) : (bare c id).value = id.value := by
  unfold bare
  split
  · rename_i h
    rw [h]
  · rfl

/-- The same query results in every engine. -/
def SameQueries (g : Query → Query) : Prop :=
  ∀ env dbName q, select env dbName (g q) = select env dbName q

section Queries

variable {f : Ident → Ident} (hValue : ∀ id, (f id).value = id.value) {g : Query → Query}

/-- The literals a subquery yields are no columns. -/
theorem respellList_literals (f : Ident → Ident) (g : Query → Query) {list : List Expr}
    (h : ∀ e ∈ list, ∃ v, e = .value v) : respellList f g list = list := by
  induction list with
  | nil => rfl
  | cons e rest ih =>
    obtain ⟨v, rfl⟩ := h e (List.mem_cons_self ..)
    rw [respellList, ih fun x hx => h x (List.mem_cons_of_mem _ hx)]
    rfl

/-- Subqueries are resolved alike, before or after the columns are respelled. -/
theorem resolveInSubqueries_respell (hg : SameQueries g) (env : QueryEnv) (dbName : Str) :
    ∀ e : Expr, resolveInSubqueries env dbName (e.respell f g) =
      (resolveInSubqueries env dbName e).map (Expr.respell f g)
  | .inSubquery e subquery negated => by
    rw [Expr.respell, resolveInSubqueries, resolveInSubqueries, hg]
    rcases select env dbName subquery with fault | r
    · rfl
    · have hList := respellList_literals f g (inListOf_literals r)
      show Except.ok (Expr.inList (e.respell f g) (inListOf r) negated) =
        .ok (.inList (e.respell f g) (respellList f g (inListOf r)) negated)
      rw [hList]
  | .subquery q => by
    rw [Expr.respell, resolveInSubqueries, resolveInSubqueries, hg]
    rcases select env dbName q with fault | r
    · rfl
    · obtain ⟨v, hLiteral⟩ := scalarOf_literal r
      show Except.ok (scalarOf r) = .ok ((scalarOf r).respell f g)
      rw [hLiteral]
      rfl
  | .binaryOp left op right => by
    rw [Expr.respell, resolveInSubqueries, resolveInSubqueries, resolveInSubqueries_respell hg env dbName left,
      resolveInSubqueries_respell hg env dbName right]
    rcases resolveInSubqueries env dbName left with fault | l
    · rfl
    · rcases resolveInSubqueries env dbName right with fault | r <;> rfl
  | .unaryOp op e => by
    rw [Expr.respell, resolveInSubqueries, resolveInSubqueries, resolveInSubqueries_respell hg env dbName e]
    rcases resolveInSubqueries env dbName e with fault | e' <;> rfl
  | .nested e => by
    rw [Expr.respell, resolveInSubqueries, resolveInSubqueries, resolveInSubqueries_respell hg env dbName e]
    rcases resolveInSubqueries env dbName e with fault | e' <;> rfl
  | .identifier _ | .compoundIdentifier _ | .value _ | .isNull _ | .isNotNull _ | .inList _ _ _
  | .between _ _ _ _ | .like _ _ _ | .iLike _ _ _ | .case _ _ _ | .cast _ _ | .convert _ _
  | .function _ | .interval _ _ | .exists _ _ | .compound _ _ | .other _ => rfl
termination_by structural e => e

theorem resolveSelection_respell (hg : SameQueries g) (env : QueryEnv) (dbName : Str) (selection : Option Expr) :
    resolveSelection env dbName (selection.map (Expr.respell f g)) =
      (resolveSelection env dbName selection).map (Option.map (Expr.respell f g)) := by
  rcases selection with _ | w
  · rfl
  · rw [Option.map_some, resolveSelection, resolveSelection, resolveInSubqueries_respell hg]
    rcases resolveInSubqueries env dbName w with fault | w' <;> rfl

/-- What is left of a SELECT once its subqueries are resolved. -/
def selectResolved (env : QueryEnv) (dbName : Str) (from_ : TableWithJoins) (distinct : Option Distinct)
    (projection : List SelectItem) (groupBy : GroupByExpr) (having : Option Expr)
    (orderBy : Option OrderByKind) (limit offset : Option Expr) (selection : Option Expr) :
    Rust QueryResult :=
  let (selDb, tableName) := resolveName dbName from_.relation.toString
  if !from_.joins.isEmpty then
    selectJoined env selDb from_ projection selection groupBy orderBy limit offset
  else
    match findTable env.databases selDb tableName (unknownDatabase selDb)
        (unknownTable (selDb ++ "." ++ tableName)) with
    | .error other => pure other
    | .ok table => selectTable env.now table distinct projection selection groupBy having orderBy limit offset

/-- Queries agree when the parts that read a derived table, a join and a table do. -/
theorem selectFrom_parts {env : QueryEnv} {dbName : Str} {orderBy orderBy' : Option OrderByKind}
    {limit offset : Option Expr} {distinct : Option Distinct} {projection projection' : List SelectItem}
    {t : TableWithJoins} {selection selection' : Option Expr} {groupBy groupBy' : GroupByExpr}
    {having : Option Expr} (more : List TableWithJoins)
    (hDerived : derivedSource env dbName t ≠ pure none → ∀ inner,
      selectDerived env.now inner projection' selection' orderBy' limit offset =
        selectDerived env.now inner projection selection orderBy limit offset)
    (hResolved : (resolveSelection env (resolveName dbName t.relation.toString).1 selection' >>=
        selectResolved env dbName t distinct projection' groupBy' having orderBy' limit offset) =
      (resolveSelection env (resolveName dbName t.relation.toString).1 selection >>=
        selectResolved env dbName t distinct projection groupBy having orderBy limit offset)) :
    selectFrom env dbName orderBy' limit offset
        (.mk distinct projection' (t :: more) selection' groupBy' having) =
      selectFrom env dbName orderBy limit offset
        (.mk distinct projection (t :: more) selection groupBy having) := by
  rw [selectFrom, selectFrom]
  rcases hSource : derivedSource env dbName t with fault | _ | inner
  · rfl
  · exact hResolved
  · refine hDerived (fun h => ?_) inner
    rw [hSource] at h
    cases h

include hValue

/-- **WHERE.** -/
theorem selectFrom_selection (hg : SameQueries g) (env : QueryEnv) (dbName : Str) (orderBy : Option OrderByKind)
    (limit offset : Option Expr) (distinct : Option Distinct) (projection : List SelectItem)
    (from_ : List TableWithJoins) (selection : Option Expr) (groupBy : GroupByExpr) (having : Option Expr) :
    selectFrom env dbName orderBy limit offset
        (.mk distinct projection from_ (selection.map (Expr.respell f g)) groupBy having) =
      selectFrom env dbName orderBy limit offset
        (.mk distinct projection from_ selection groupBy having) := by
  rcases from_ with _ | ⟨t, more⟩
  · rw [selectFrom, selectFrom]
  · refine selectFrom_parts more (fun _ inner => selectDerived_selection hValue ..) ?_
    rw [resolveSelection_respell hg]
    rcases resolveSelection env (resolveName dbName t.relation.toString).1 selection with fault | selection'
    · rfl
    · show selectResolved env dbName t distinct projection groupBy having orderBy limit offset
          (selection'.map (Expr.respell f g)) =
        selectResolved env dbName t distinct projection groupBy having orderBy limit offset selection'
      unfold selectResolved
      simp only [selectJoined_selection hValue, selectTable_selection hValue]

/-- **Projected columns**, with FROM and without GROUP BY. -/
theorem selectFrom_projection (env : QueryEnv) (dbName : Str) (orderBy : Option OrderByKind)
    (limit offset : Option Expr) (distinct : Option Distinct) (projection : List SelectItem)
    {from_ : List TableWithJoins} (selection : Option Expr) {groupBy : GroupByExpr}
    (hReads : readsTable from_ groupBy = true) (having : Option Expr) :
    selectFrom env dbName orderBy limit offset
        (.mk distinct (projection.map (SelectItem.respellColumn f)) from_ selection groupBy having) =
      selectFrom env dbName orderBy limit offset
        (.mk distinct projection from_ selection groupBy having) := by
  unfold readsTable at hReads
  rw [Bool.and_eq_true] at hReads
  rcases from_ with _ | ⟨t, more⟩
  · cases hReads.1
  · refine selectFrom_parts more (fun _ inner => selectDerived_projection hValue ..) ?_
    refine congrArg (fun finish => _ >>= finish) (funext fun selection' => ?_)
    unfold selectResolved
    simp only [selectJoined_projection hValue _ _ _ _ _ hReads.2,
      selectTable_projection hValue _ _ _ _ _ hReads.2]

/-- **GROUP BY.** -/
theorem selectFrom_groupBy (env : QueryEnv) (dbName : Str) (orderBy : Option OrderByKind)
    (limit offset : Option Expr) (distinct : Option Distinct) (projection : List SelectItem)
    (from_ : List TableWithJoins) (selection : Option Expr) (groupBy : GroupByExpr) (having : Option Expr) :
    selectFrom env dbName orderBy limit offset
        (.mk distinct projection from_ selection (groupBy.respellColumns f) having) =
      selectFrom env dbName orderBy limit offset
        (.mk distinct projection from_ selection groupBy having) := by
  rcases from_ with _ | ⟨t, more⟩
  · rw [selectFrom, selectFrom]
  · refine selectFrom_parts more (fun _ inner => rfl) ?_
    refine congrArg (fun finish => _ >>= finish) (funext fun selection' => ?_)
    unfold selectResolved
    simp only [selectJoined_groupBy hValue, selectTable_groupBy hValue]

/-- **ORDER BY**, over plain columns of one table. -/
theorem selectBody_orderBy (env : QueryEnv) (dbName : Str) (orderBy : Option OrderByKind)
    (limit offset : Option Expr) {body : SetExpr} (hPlain : body.isPlain = true) :
    selectBody env dbName (orderBy.map (OrderByKind.respellColumns f)) limit offset body =
      selectBody env dbName orderBy limit offset body := by
  unfold SetExpr.isPlain at hPlain
  split at hPlain
  · rename_i distinct projection name rest selection groupBy having
    rw [Bool.and_eq_true] at hPlain
    obtain ⟨hGroupBy, hColumns⟩ := hPlain
    rw [selectBody, selectBody]
    refine selectFrom_parts [] (fun h => absurd rfl h) ?_
    refine congrArg (fun finish => _ >>= finish) (funext fun selection' => ?_)
    have hTable : ∀ table, selectTable env.now table distinct projection selection' groupBy having
        (orderBy.map (OrderByKind.respellColumns f)) limit offset =
        selectTable env.now table distinct projection selection' groupBy having orderBy limit offset := by
      intro table
      have hByCols : groupByCols table.columns groupBy = [] := by
        unfold groupByCols
        rw [List.isEmpty_iff.1 hGroupBy]
        rfl
      unfold selectTable
      simp only [hByCols, hColumns, List.isEmpty_nil, Bool.not_true, Bool.false_eq_true, if_false, if_true,
        selectPlain_orderBy hValue]
    show (match findTable env.databases _ _ _ _ with | .error other => pure other | .ok table => _) = _
    simp only [hTable]
    rfl
  · cases hPlain

-- ---------------------------------------------------------------------------
-- Queries and conditions at a place
-- ---------------------------------------------------------------------------

theorem selectFrom_spell {p : ColumnPlace} (hReads : p.readsValue = true) (hg : SameQueries g)
    (env : QueryEnv) (dbName : Str) (orderBy : Option OrderByKind) (limit offset : Option Expr) (s : Select) :
    selectFrom env dbName orderBy limit offset (s.spell p f g) =
      selectFrom env dbName orderBy limit offset s := by
  obtain ⟨distinct, projection, from_, selection, groupBy, having⟩ := s
  have hSelection : ∀ projection' groupBy', selectFrom env dbName orderBy limit offset
      (.mk distinct projection' from_ (selection.map (Expr.respell id g)) groupBy' having) =
      selectFrom env dbName orderBy limit offset (.mk distinct projection' from_ selection groupBy' having) :=
    fun projection' groupBy' => selectFrom_selection (f := id) (fun _ => rfl) hg ..
  unfold Select.spell
  cases p
  case whereClause => exact selectFrom_selection hValue hg ..
  case groupBy => exact (hSelection _ _).trans (selectFrom_groupBy hValue ..)
  case projection listed =>
    obtain rfl : listed = true := hReads
    refine (hSelection _ _).trans ?_
    dsimp only
    split
    · rename_i hListed
      exact selectFrom_projection hValue _ _ _ _ _ _ _ _ hListed _
    · rfl
  case aggregate => cases hReads
  all_goals exact hSelection _ _

theorem selectBody_spell {p : ColumnPlace} (hReads : p.readsValue = true) (hg : SameQueries g)
    (env : QueryEnv) (dbName : Str) :
    ∀ (body : SetExpr) (orderBy : Option OrderByKind) (limit offset : Option Expr),
      selectBody env dbName orderBy limit offset (body.spell p f g) =
        selectBody env dbName orderBy limit offset body
  | .select s, orderBy, limit, offset => by
    rw [SetExpr.spell, selectBody, selectBody, selectFrom_spell hValue hReads hg]
  | .setOperation op setQuantifier left right, orderBy, limit, offset => by
    rw [SetExpr.spell, selectBody, selectBody, selectBody_spell hReads hg env dbName left,
      selectBody_spell hReads hg env dbName right]
  | .query _, _, _, _ | .values _, _, _, _ | .other _, _, _, _ => rfl
termination_by structural body => body

/-- A query respelled at a place that reads the value has the same result, in
every engine. -/
theorem sameQueries_spell {p : ColumnPlace} (hReads : p.readsValue = true) :
    ∀ depth, SameQueries (Query.spell p f depth)
  | 0, _, _, _ => rfl
  | depth + 1, env, dbName, .mk body orderBy limit offset => by
    rw [Query.spell, select, select,
      selectBody_spell hValue hReads (sameQueries_spell hReads depth) env dbName body]
    unfold Query.spellOrder
    split
    · rename_i plain
      obtain rfl : plain = true := hReads
      split
      · rename_i hPlain
        exact selectBody_orderBy hValue env dbName orderBy limit offset hPlain
      · rfl
    · rfl

theorem conditionValue {p : ColumnPlace} (id' : Ident) :
    ((if p = .whereClause then f else id) id').value = id'.value := by
  split
  · exact hValue id'
  · rfl

-- ---------------------------------------------------------------------------
-- Prepared queries
-- ---------------------------------------------------------------------------

theorem boundKey_respell (bound : List Value) (paramOffset : Nat) (pkColName : Str) (w : Expr) :
    boundKey bound paramOffset pkColName (w.respell f g) = boundKey bound paramOffset pkColName w := by
  unfold boundKey
  rw [extractPkEqParam_respell hValue]

theorem selectTablePrepared_selection (now : Nat) (table : Table) (bound : List Value)
    (projection : List SelectItem) (selection : Option Expr) :
    selectTablePrepared now table bound projection (selection.map (Expr.respell f g)) =
      selectTablePrepared now table bound projection selection := by
  have hRows : ∀ r, rowSelectedBound now table.columns bound (selection.map (Expr.respell f g)) r =
      rowSelectedBound now table.columns bound selection r :=
    rowSelectedBound_respell hValue now table.columns bound selection
  unfold selectTablePrepared
  rcases selection with _ | w
  · rfl
  · rw [Option.map_some] at hRows ⊢
    rcases table.pkColIdx with _ | pkIdx
    · simp only [hRows]
    · simp only [boundKey_respell hValue]
      simp only [hRows]

theorem projColPrepared_respell (cols : List Column) (p : SelectItem) :
    projColPrepared cols (p.respellColumn f) = projColPrepared cols p := by
  rcases p with e | ⟨e, a⟩ | text | text
  · show (if (e.respellColumn f).isColumn then (e.respellColumn f).columnName?.bind _ else none) = _
    rw [respellColumn_isColumn, respellColumn_columnName? hValue]
    rfl
  · rfl
  · rfl
  · rfl

theorem selectTablePrepared_projection (now : Nat) (table : Table) (bound : List Value)
    (projection : List SelectItem) (selection : Option Expr) :
    selectTablePrepared now table bound (projection.map (SelectItem.respellColumn f)) selection =
      selectTablePrepared now table bound projection selection := by
  have hProj : (projection.map (SelectItem.respellColumn f)).filterMap (projColPrepared table.columns) =
      projection.filterMap (projColPrepared table.columns) := by
    rw [List.filterMap_map]
    exact congrArg (fun look => projection.filterMap look)
      (funext fun p => projColPrepared_respell hValue table.columns p)
  have hCalls : (projection.map (SelectItem.respellColumn f)).all (fun p => p.function?.isSome) =
      projection.all fun p => p.function?.isSome := by
    rw [List.all_map]
    simp only [Function.comp_def, respellColumn_function?]
  unfold selectTablePrepared
  simp only [respellColumn_anyWildcard, hProj, hCalls, List.isEmpty_map]
  by_cases hOnly : (!projection.isEmpty && projection.all fun p => p.function?.isSome) = true
  · -- items that are calls stay as they are
    have hSame : projection.map (SelectItem.respellColumn f) = projection := by
      rw [Bool.and_eq_true, List.all_eq_true] at hOnly
      have hItems : ∀ p ∈ projection, p.respellColumn f = id p := fun p hp =>
        respellColumn_of_function (hOnly.2 p hp)
      rw [List.map_congr_left hItems, List.map_id]
    rw [hSame]
  · simp only [hOnly, Bool.false_eq_true, if_false]

theorem selectPrepared_spell {p : ColumnPlace} (hReads : p.readsValue = true) (depth : Nat)
    (env : QueryEnv) (dbName : Str) (q : Query) (bound : List Value) :
    selectPrepared env dbName (q.spell p f depth) bound = selectPrepared env dbName q bound := by
  rcases depth with _ | depth
  · rfl
  · obtain ⟨body, orderBy, limit, offset⟩ := q
    rw [Query.spell]
    rcases body with ⟨distinct, projection, from_, selection, groupBy, having⟩ | q | _ | _ | _
    · rcases from_ with _ | ⟨t, more⟩
      · rfl
      · have hTable : ∀ (table : Table) (projection' : List SelectItem),
            selectTablePrepared env.now table bound projection'
                (selection.map (Expr.respell (if p = .whereClause then f else id) (Query.spell p f depth))) =
              selectTablePrepared env.now table bound projection' selection := fun table projection' =>
          selectTablePrepared_selection (conditionValue hValue) env.now table bound projection' selection
        have hProjection := fun table : Table =>
          selectTablePrepared_projection hValue env.now table bound projection selection
        unfold SetExpr.spell Select.spell
        unfold selectPrepared Query.body
        simp only [hTable]
        cases p
        case aggregate => cases hReads
        case projection listed =>
          by_cases hListed : readsTable (t :: more) groupBy = listed
          · simp only [hListed, if_true, hProjection]
          · simp only [hListed, if_false]
        all_goals rfl
    all_goals rfl

end Queries

-- ---------------------------------------------------------------------------
-- Statements
-- ---------------------------------------------------------------------------

section Statements

variable {f : Ident → Ident} (hValue : ∀ id, (f id).value = id.value) {g : Query → Query}

include hValue

theorem pkCondition_respell (selection : Option Expr) {extract : Str → Expr → Option Str}
    (hExtract : ∀ pkColName w, extract pkColName (Expr.respell f g w) = extract pkColName w) :
    pkCondition (selection.map (Expr.respell f g)) extract = pkCondition selection extract := by
  rcases selection with _ | w
  · rfl
  · refine congrArg (fun rest => get >>= rest) (funext fun t => ?_)
    rcases t.pkColIdx with _ | pkIdx
    · rfl
    · simp only [Option.map_some, hExtract]

theorem rowSelected_respell (now : Nat) (cols : List Column) (selection : Option Expr) (row : Row) :
    rowSelected now cols (selection.map (Expr.respell f g)) row = rowSelected now cols selection row := by
  rcases selection with _ | w
  · rfl
  · exact evalWhere_respell hValue now row cols w

theorem updateTable_respell (now : Nat) (assignments : List Assignment) (selection : Option Expr) :
    updateTable now assignments (selection.map (Expr.respell f g)) = updateTable now assignments selection := by
  have hRows := fun cols => funext (rowSelected_respell (g := g) hValue now cols selection)
  unfold updateTable
  simp only [pkCondition_respell hValue selection (extractPkEq_respell hValue), hRows]

theorem deleteTable_respell (now : Nat) (selection : Option Expr) :
    deleteTable now (selection.map (Expr.respell f g)) = deleteTable now selection := by
  have hKept : ∀ cols, rowKept (fun w r => evalWhere now r cols w) (selection.map (Expr.respell f g)) =
      rowKept (fun w r => evalWhere now r cols w) selection := by
    intro cols
    rcases selection with _ | w
    · rfl
    · exact funext fun row => congrArg (Except.map not) (evalWhere_respell hValue now row cols w)
  unfold deleteTable
  simp only [pkCondition_respell hValue selection (extractPkEq_respell hValue), hKept]

theorem updateTablePrepared_respell (now : Nat) (assignments : List Assignment) (selection : Option Expr)
    (bound : List Value) :
    updateTablePrepared now assignments (selection.map (Expr.respell f g)) bound =
      updateTablePrepared now assignments selection bound := by
  have hRows := fun cols => funext (rowSelectedBound_respell (g := g) hValue now cols bound selection)
  have hKey := fun params => pkCondition_respell (g := g) hValue selection
    (boundKey_respell hValue bound params)
  unfold updateTablePrepared
  simp only [hKey, hRows]

theorem deleteTablePrepared_respell (now : Nat) (selection : Option Expr) (bound : List Value) :
    deleteTablePrepared now (selection.map (Expr.respell f g)) bound =
      deleteTablePrepared now selection bound := by
  have hKept : ∀ cols, rowKept (fun w r => evalWhereBound now r cols bound w)
      (selection.map (Expr.respell f g)) =
      rowKept (fun w r => evalWhereBound now r cols bound w) selection := by
    intro cols
    rcases selection with _ | w
    · rfl
    · exact funext fun row => congrArg (Except.map not) (evalWhereBound_respell hValue now row cols bound w)
  unfold deleteTablePrepared
  simp only [hKept]

omit hValue in
theorem spellAlter_same {p : ColumnPlace} (hReads : p.readsValue = true)
    (op : AlterTableOperation) : op.spell p f = op := by
  rcases op with columnDef | columnName | ⟨oldColumnName, newColumnName⟩ | text <;> cases p
  case addColumn.addColumn | dropColumn.dropColumn | renameColumn.renameFrom | renameColumn.renameTo =>
    cases hReads
  all_goals rfl

omit hValue in
theorem runQuery_same {q q' : Query} (h : ∀ env dbName, select env dbName q' = select env dbName q)
    (now : Nat) (dbName : Str) : runQuery now dbName q' = runQuery now dbName q := by
  unfold runQuery
  simp only [h]

/-- The body of a query stays of its kind. -/
theorem insert_spell {p : ColumnPlace} (hReads : p.readsValue = true) (depth now : Nat)
    (dbName tableName : Str) (q : Query) (replaceInto : Bool) (columns : List Str) :
    insert now dbName tableName (some (q.spell p f depth)) replaceInto columns =
      insert now dbName tableName (some q) replaceInto columns := by
  have hQuery := runQuery_same (sameQueries_spell hValue hReads depth · · q) now
  have hRows : ∀ db table, sourceRows now db table (q.spell p f depth) = sourceRows now db table q := by
    intro db table
    unfold sourceRows
    simp only [hQuery]
    rcases depth with _ | depth
    · rfl
    · obtain ⟨body, orderBy, limit, offset⟩ := q
      rcases body with s | q | _ | _ | _ <;> rfl
  unfold insert
  simp only [hRows]

theorem createTableAs_spell {p : ColumnPlace} (hReads : p.readsValue = true) (depth now : Nat)
    (dbName : Str) (create create' : CreateTable) (hName : create'.name = create.name)
    (hIf : create'.ifNotExists = create.ifNotExists)
    (hColumns : create'.columns.map createColumn = create.columns.map createColumn)
    (q : Query) :
    createTableAs now dbName create' (q.spell p f depth) = createTableAs now dbName create q := by
  have hTable : ∀ qcols qrows, tableAs dbName create' qcols qrows = tableAs dbName create qcols qrows := by
    intro qcols qrows
    have hEmpty : create'.columns.isEmpty = create.columns.isEmpty := by
      have hMaps := congrArg List.isEmpty hColumns
      rwa [List.isEmpty_map, List.isEmpty_map] at hMaps
    unfold tableAs
    rw [hName, hColumns, hEmpty]
  unfold createTableAs
  simp only [runQuery_same (sameQueries_spell hValue hReads depth · · q) now, hTable, hName, hIf]

theorem execCreateTable_spell {p : ColumnPlace} (hReads : p.readsValue = true) (depth now : Nat)
    (currentDb : Option Str) (create : CreateTable) :
    execStmt now currentDb ((Statement.createTable create).spell p f depth) =
      execStmt now currentDb (.createTable create) := by
  obtain ⟨name, columns, ifNotExists, query⟩ := create
  rw [Statement.spell, execStmt, execStmt]
  dsimp only
  generalize hNew : (if p = .createTable then columns.map fun c => { c with name := f c.name }
    else columns) = columns'
  have hColumns : columns'.map createColumn = columns.map createColumn := by
    rw [← hNew]
    split
    · rw [List.map_map]
      refine List.map_congr_left fun c _ => ?_
      show createColumn { c with name := f c.name } = createColumn c
      unfold createColumn
      dsimp only
      rw [hValue]
    · rfl
  rcases query with _ | q
  · show createTable (dbOrTest currentDb) name columns' ifNotExists =
      createTable (dbOrTest currentDb) name columns ifNotExists
    unfold createTable
    rw [hColumns]
  · exact createTableAs_spell hValue hReads depth now (dbOrTest currentDb)
      ⟨name, columns, ifNotExists, some q⟩ ⟨name, columns', ifNotExists, some (q.spell p f depth)⟩ rfl rfl
      hColumns q

/-- **A place that reads the value.** -/
theorem run_spell {p : ColumnPlace} (hReads : p.readsValue = true) (depth now : Nat)
    (currentDb : Option Str) (bound : Option (List Value)) (s : Statement) :
    (s.spell p f depth).run now currentDb bound = s.run now currentDb bound := by
  have hCondition := conditionValue (f := f) (p := p) hValue
  cases s
  case createTable create => cases bound <;> exact execCreateTable_spell hValue hReads depth now currentDb create
  case insert ins =>
    obtain ⟨table, columns, source, replaceInto⟩ := ins
    have hNames : (if p = .insert then columns.map f else columns).map Ident.value =
        columns.map Ident.value := by
      split
      · rw [List.map_map]
        exact List.map_congr_left fun id _ => hValue id
      · rfl
    cases bound with
    | none =>
      show insert now (dbOrTest currentDb) table.toString (source.map (Query.spell p f depth)) replaceInto
        ((if p = .insert then columns.map f else columns).map Ident.value) = _
      rw [hNames]
      rcases source with _ | q
      · rfl
      · exact insert_spell hValue hReads depth now (dbOrTest currentDb) table.toString q replaceInto _
    | some values =>
      rcases source with _ | q
      · rfl
      · rcases depth with _ | depth
        · rfl
        · obtain ⟨body, orderBy, limit, offset⟩ := q
          rcases body with s | q | _ | _ | _ <;> rfl
  case query q =>
    cases bound with
    | none => exact runQuery_same (sameQueries_spell hValue hReads depth · · q) now (dbOrTest currentDb)
    | some values =>
      refine congrArg (fun rest => get >>= rest) (funext fun e => congrArg Prog.ofExcept ?_)
      exact selectPrepared_spell hValue hReads depth (e.env now) (dbOrTest currentDb) q values
  case update table assignments selection =>
    have hSet : p ≠ .updateSet := by
      rintro rfl
      cases hReads
    have hSpell : (Statement.update table assignments selection).spell p f depth =
        .update table assignments (spellCondition p f depth selection) := by
      rw [Statement.spell, if_neg hSet]
    rw [hSpell]
    cases bound with
    | none =>
      refine congrArg (withTable _ _ _ _) ?_
      exact updateTable_respell hCondition now assignments selection
    | some values =>
      refine congrArg (withTable _ _ _ _) ?_
      exact updateTablePrepared_respell hCondition now assignments selection values
  case delete del =>
    cases bound with
    | none =>
      refine congrArg (withTable _ _ _ _) ?_
      exact deleteTable_respell hCondition now del.selection
    | some values =>
      refine congrArg (withTable _ _ _ _) ?_
      exact deleteTablePrepared_respell hCondition now del.selection values
  case alterTable name operations =>
    have hSame : operations.map (AlterTableOperation.spell p f) = operations := by
      have hItems : ∀ op ∈ operations, AlterTableOperation.spell p f op = id op := fun op _ =>
        spellAlter_same hReads op
      rw [List.map_congr_left hItems, List.map_id]
    rw [Statement.spell, hSame]
  all_goals rfl

end Statements

-- ---------------------------------------------------------------------------
-- Places that read how the name prints
-- ---------------------------------------------------------------------------

/-- How names and the arguments of a call print. -/
structure PrintsNames : Prop where
  column : ∀ id : Ident, exprToString (.identifier id) = id.toString
  arguments : ∀ id : Ident,
    functionArgumentsToString (.list (.mk none [.unnamed (.expr (.identifier id))] [])) =
      '(' :: id.toString ++ [')']
  upper : toUppercase "SUM" = ("SUM" : Str)

section Printed

theorem length_of_eqIgnoreAsciiCase {s t : Str} (h : eqIgnoreAsciiCase s t = true) : s.length = t.length := by
  unfold eqIgnoreAsciiCase at h
  have hLengths := congrArg List.length (eq_of_beq h)
  unfold toAsciiLowercase at hLengths
  rwa [List.length_map, List.length_map] at hLengths

theorem eqIgnoreAsciiCase_self (s : Str) : eqIgnoreAsciiCase s s = true := beq_self_eq_true _

/-- `t` with the one column. -/
def columnTable (c : Str) (rows : List Row) : Table :=
  Table.create "test" "t" [⟨c, .int, true, false⟩] rows

theorem position_columnTable (c : Str) (rows : List Row) :
    columnPosition (columnTable c rows).columns c = some 0 := by
  show (List.findIdx? _ [_]) = _
  rw [List.findIdx?_cons]
  simp only [eqIgnoreAsciiCase_self, if_true]

theorem position_longer {c name : Str} (h : c.length < name.length) (rows : List Row) :
    columnPosition (columnTable c rows).columns name = none := by
  have hNe : eqIgnoreAsciiCase c name = false := by
    rw [← Bool.not_eq_true]
    intro hSame
    have hLength := length_of_eqIgnoreAsciiCase hSame
    omega
  show (List.findIdx? _ [_]) = _
  rw [List.findIdx?_cons]
  simp only [hNe]
  rfl

/-- What work on a table gives, and the table after it. -/
theorem exec_ofTable {t : Table} (hName : t.name = ("t" : Str)) (noDb noTable : Str) (act : TableM QueryResult) :
    ((withTable "test" "t" noDb noTable act).exec (Engine.ofTable t)).1 = (act.exec t).1 ∧
      Store.table? ((withTable "test" "t" noDb noTable act).exec (Engine.ofTable t)).2.databases "test" "t" =
        some (act.exec t).2 := by
  have hThere : Store.table? (Engine.ofTable t).databases "test" "t" = some t := by
    unfold Engine.ofTable
    rw [hName]
    rfl
  rw [exec_withTable, actOn_found hThere]
  refine ⟨rfl, ?_⟩
  rw [table?_modifyTables, if_pos ⟨rfl, rfl⟩, hThere]
  rfl

variable {c : Str} (hEscape : EscapesOnlyQuotes) (hClean : '`' ∉ c)

include hEscape hClean

theorem backticks_toString : Ident.toString ⟨c, some '`'⟩ = '`' :: c ++ ['`'] := by
  show '`' :: escapeQuotedString c '`' ++ ['`'] = _
  rw [hEscape _ _ hClean]

theorem backticks_longer : c.length < (Ident.toString ⟨c, some '`'⟩).length := by
  rw [backticks_toString hEscape hClean, List.length_append, List.length_cons, List.length_singleton]
  omega

omit hEscape hClean in
theorem bare_backticks : bare c ⟨c, some '`'⟩ = ⟨c, none⟩ := if_pos rfl

-- UPDATE .. SET

/-- `UPDATE t SET id = NULL`. -/
def setColumn (id : Ident) : Statement :=
  .update (.mk (.table [⟨"t", none⟩] []) []) [⟨.columnName [id], .value .null⟩] none

omit hEscape hClean in
theorem setColumn_rows (bound : Option (List Value)) (id : Ident) :
    (Store.table? (((setColumn id).run 0 (some "test") bound).exec
      (Engine.ofTable (columnTable c [[.int 0]]))).2.databases "test" "t").map Table.rows =
      some [if columnPosition (columnTable c [[.int 0]]).columns id.toString = some 0 then [.null]
        else [.int 0]] := by
  have hAssign : ∀ cols (value : Row → Expr → Rust Value), (∀ row, value row (.value .null) = .ok .null) →
      (∀ i, columnPosition cols id.toString = some i → i = 0) →
      ((Prog.forEach (assignRow cols value) [⟨.columnName [id], .value .null⟩]).exec [.int 0]).2 =
        if columnPosition cols id.toString = some 0 then [.null] else [.int 0] := by
    intro cols value hNull hZero
    rw [Prog.forEach, Prog.exec_bind]
    have hTarget : AssignmentTarget.toString (.columnName [id]) = id.toString := rfl
    unfold assignRow
    simp only [hTarget]
    rcases hPosition : columnPosition cols id.toString with _ | i
    · rfl
    · obtain rfl := hZero i hPosition
      simp only [Prog.exec_bind, Prog.exec_ofExcept, hNull, if_true]
      rfl
  have hZero : ∀ i, columnPosition (columnTable c [[.int 0]]).columns id.toString = some i → i = 0 := by
    intro i hi
    have hLength := (List.findIdx?_eq_some_iff_findIdx_eq.1 hi).1
    have hOne : (columnTable c [[.int 0]]).columns.length = 1 := rfl
    omega
  have hScan : ∀ (cond : Row → Rust Bool) (value : Row → Expr → Rust Value),
      (∀ row, cond row = .ok true) → (∀ row, value row (.value .null) = .ok .null) →
      ((updateScan cond value [⟨.columnName [id], .value .null⟩]).exec (columnTable c [[.int 0]])).2.rows =
        [if columnPosition (columnTable c [[.int 0]]).columns id.toString = some 0 then [.null]
          else [.int 0]] := by
    intro cond value hCond hNull
    have hOne : ∀ (j : Nat) (r' : Row), (columnTable c [[.int 0]]).rows[j]? = some r' →
        (true = true ↔ j = 0) := by
      intro j r' hRow
      obtain ⟨hLength, -⟩ := List.getElem?_eq_some_iff.1 hRow
      have hRows : (columnTable c [[.int 0]]).rows.length = 1 := rfl
      exact ⟨fun _ => by omega, fun _ => rfl⟩
    rw [(exec_updateScan_one (b := fun _ => true) (fun r _ => hCond r) rfl hOne value _).2,
      hAssign _ value hNull hZero]
    rfl
  cases bound with
  | none =>
    have hTable := (exec_ofTable (t := columnTable c [[.int 0]]) rfl (unknownDatabase "test")
      (unknownTable ("test" ++ "." ++ "t")) (updateTable 0 [⟨.columnName [id], .value .null⟩] none)).2
    have hRows := hScan (rowSelected 0 (columnTable c [[.int 0]]).columns none)
      (fun row e => evalRowExpr 0 row (columnTable c [[.int 0]]).columns e) (fun _ => rfl) (fun _ => rfl)
    exact (congrArg (Option.map Table.rows) hTable).trans (congrArg some hRows)
  | some values =>
    have hTable := (exec_ofTable (t := columnTable c [[.int 0]]) rfl "Unknown database" "Table not found"
      (updateTablePrepared 0 [⟨.columnName [id], .value .null⟩] none values)).2
    have hRows := hScan (rowSelectedBound 0 (columnTable c [[.int 0]]).columns values none)
      (fun row e => evalRowExpr 0 row (columnTable c [[.int 0]]).columns e) (fun _ => rfl) (fun _ => rfl)
    exact (congrArg (Option.map Table.rows) hTable).trans (congrArg some hRows)

theorem not_alike_updateSet (bound : Option (List Value)) : ¬SpelledAlike bound .updateSet c := by
  intro hAlike
  have hRun := hAlike 0 0 (some "test") (setColumn ⟨c, some '`'⟩)
    (Engine.ofTable (columnTable c [[.int 0]]))
  have hSpell : (setColumn ⟨c, some '`'⟩).spell .updateSet (bare c) 0 = setColumn ⟨c, none⟩ := by
    show setColumn (bare c ⟨c, some '`'⟩) = _
    rw [bare_backticks]
  have hPrinted := setColumn_rows (c := c) bound ⟨c, some '`'⟩
  have hBare := setColumn_rows (c := c) bound ⟨c, none⟩
  rw [position_longer (backticks_longer hEscape hClean)] at hPrinted
  rw [hRun, hSpell, hBare] at hPrinted
  have hPosition : columnPosition (columnTable c [[.int 0]]).columns (Ident.toString ⟨c, none⟩) = some 0 :=
    position_columnTable c _
  rw [if_pos hPosition] at hPrinted
  cases hPrinted

-- ALTER TABLE

omit hEscape hClean in
/-- One operation is enough to tell the spellings apart. -/
theorem not_alike_alter {p : ColumnPlace} (t : Table) (op op' : AlterTableOperation)
    (hName : t.name = ("t" : Str)) (hSpell : op.spell p (bare c) = op')
    (hDiffer : (alterTable [op]).exec t ≠ (alterTable [op']).exec t) (bound : Option (List Value)) :
    ¬SpelledAlike bound p c := by
  have hOutcome : ∀ op : AlterTableOperation,
      ((Statement.run 0 (some "test") bound (.alterTable [⟨"t", none⟩] [op])).exec (Engine.ofTable t)).1 =
          ((alterTable [op]).exec t).1 ∧
        Store.table? ((Statement.run 0 (some "test") bound (.alterTable [⟨"t", none⟩] [op])).exec
          (Engine.ofTable t)).2.databases "test" "t" = some ((alterTable [op]).exec t).2 := by
    intro op
    have hWork := exec_ofTable hName "Unknown database" "Table not found" (alterTable [op])
    have hBump := exec_bind_bumpIfOk (withTable "test" "t" "Unknown database" "Table not found"
      (alterTable [op])) (Engine.ofTable t)
    cases bound <;> exact ⟨hBump.1.trans hWork.1, (congrArg (Store.table? · "test" "t") hBump.2).trans hWork.2⟩
  intro hAlike
  have hRun := hAlike 0 0 (some "test") (.alterTable [⟨"t", none⟩] [op]) (Engine.ofTable t)
  have hStatement : (Statement.alterTable [⟨"t", none⟩] [op]).spell p (bare c) 0 =
      .alterTable [⟨"t", none⟩] [op'] := by
    rw [Statement.spell, List.map_singleton, hSpell]
  rw [hStatement] at hRun
  have hResult := (hOutcome op).1
  have hTable := (hOutcome op).2
  rw [hRun, (hOutcome op').1] at hResult
  rw [hRun, (hOutcome op').2] at hTable
  exact hDiffer (Prod.ext hResult.symm (Option.some.inj hTable).symm)

omit hEscape hClean in
theorem exec_alterOne (t : Table) (op : AlterTableOperation) :
    (alterTable [op]).exec t = match t.alter op with
      | .error e => (.ok e, t)
      | .ok t' => (.ok (.ok 0 0), t') := by
  rw [alterTable, Prog.exec_get_bind]
  rcases t.alter op with e | t' <;> rfl

theorem backticks_ne : Ident.toString ⟨c, some '`'⟩ ≠ c := by
  intro h
  have hLength := backticks_longer hEscape hClean
  rw [h] at hLength
  omega

theorem not_alike_addColumn (bound : Option (List Value)) : ¬SpelledAlike bound .addColumn c := by
  refine not_alike_alter (Table.create "test" "t" [] [])
    (.addColumn ⟨⟨c, some '`'⟩, .int, []⟩) (.addColumn ⟨⟨c, none⟩, .int, []⟩) rfl ?_ ?_ bound
  · show AlterTableOperation.addColumn ⟨bare c ⟨c, some '`'⟩, .int, []⟩ = _
    rw [bare_backticks]
  · intro h
    have hNames := congrArg (fun r => r.2.columns.map Column.name) h
    have hSame : [Ident.toString ⟨c, some '`'⟩] = [c] := hNames
    exact backticks_ne hEscape hClean (List.singleton_inj.1 hSame)

theorem not_alike_dropColumn (bound : Option (List Value)) : ¬SpelledAlike bound .dropColumn c := by
  refine not_alike_alter (columnTable c []) (.dropColumn ⟨c, some '`'⟩)
    (.dropColumn ⟨c, none⟩) rfl ?_ ?_ bound
  · show AlterTableOperation.dropColumn (bare c ⟨c, some '`'⟩) = _
    rw [bare_backticks]
  · have hMissing := position_longer (backticks_longer hEscape hClean) []
    have hThere : columnPosition (columnTable c []).columns (Ident.toString ⟨c, none⟩) = some 0 :=
      position_columnTable c []
    rw [exec_alterOne, exec_alterOne]
    unfold Table.alter
    simp only [hMissing, hThere]
    intro h
    cases congrArg Prod.fst h

theorem not_alike_renameFrom (bound : Option (List Value)) : ¬SpelledAlike bound .renameFrom c := by
  refine not_alike_alter (columnTable c []) (.renameColumn ⟨c, some '`'⟩ ⟨c, none⟩)
    (.renameColumn ⟨c, none⟩ ⟨c, none⟩) rfl ?_ ?_ bound
  · show AlterTableOperation.renameColumn (bare c ⟨c, some '`'⟩) ⟨c, none⟩ = _
    rw [bare_backticks]
  · have hMissing := position_longer (backticks_longer hEscape hClean) []
    have hThere : columnPosition (columnTable c []).columns (Ident.toString ⟨c, none⟩) = some 0 :=
      position_columnTable c []
    rw [exec_alterOne, exec_alterOne]
    unfold Table.alter
    simp only [hMissing, hThere]
    intro h
    cases congrArg Prod.fst h

theorem not_alike_renameTo (bound : Option (List Value)) : ¬SpelledAlike bound .renameTo c := by
  refine not_alike_alter (columnTable c []) (.renameColumn ⟨c, none⟩ ⟨c, some '`'⟩)
    (.renameColumn ⟨c, none⟩ ⟨c, none⟩) rfl ?_ ?_ bound
  · show AlterTableOperation.renameColumn ⟨c, none⟩ (bare c ⟨c, some '`'⟩) = _
    rw [bare_backticks]
  · have hThere : columnPosition (columnTable c []).columns (Ident.toString ⟨c, none⟩) = some 0 :=
      position_columnTable c []
    rw [exec_alterOne, exec_alterOne]
    unfold Table.alter
    simp only [hThere]
    intro h
    have hNames := congrArg (fun r => r.2.columns.map Column.name) h
    have hSame : [Ident.toString ⟨c, some '`'⟩] = [c] := hNames
    exact backticks_ne hEscape hClean (List.singleton_inj.1 hSame)

-- Queries

/-- The table that CREATE TABLE `u` AS makes of a result. -/
def asTable (cols : List Str) (rows : List TextRow) : Table :=
  tableAs "test" ⟨[⟨"u", none⟩], [], false, none⟩ cols rows

omit hEscape hClean in
theorem exec_createAs (bound : Option (List Value)) {t : Table} {q : Query} {cols : List Str}
    {rows : List TextRow}
    (hSelect : select ((Engine.ofTable t).env 0) "test" q = .ok (.rows cols rows)) :
    Store.table? ((Statement.run 0 (some "test") bound (.createTable ⟨[⟨"u", none⟩], [], false, some q⟩)).exec
      (Engine.ofTable t)).2.databases "test" "u" = some (asTable cols rows) := by
  have hDb : HashMap.get (Engine.ofTable t).databases "test" =
      some ⟨"test", HashMap.ofList [(t.name, t)]⟩ := rfl
  have hRun : (createTableAs 0 "test" ⟨[⟨"u", none⟩], [], false, some q⟩ q).exec (Engine.ofTable t) =
      (putNewTable false "test" (asTable cols rows) true).exec (Engine.ofTable t) := by
    have hQuery : (runQuery 0 "test" q).exec (Engine.ofTable t) = (.ok (.rows cols rows), Engine.ofTable t) :=
      congrArg (fun r => (r, Engine.ofTable t)) hSelect
    rw [createTableAs, Prog.exec_bind_ok hQuery]
    rfl
  have hPut : Store.table? ((putNewTable false "test" (asTable cols rows) true).exec
      (Engine.ofTable t)).2.databases "test" "u" = some (asTable cols rows) := by
    rw [putNewTable, Prog.exec_get_bind, hDb]
    show Store.table? (Store.modifyTables (Engine.ofTable t).databases "test"
      fun tables => tables.insert "u" (asTable cols rows)) "test" "u" = _
    rw [table?_modifyTables_with, if_pos rfl, hDb, Option.bind_some, HashMap.get_insert, if_pos rfl]
  cases bound <;> exact (congrArg (fun r => Store.table? r.2.databases "test" "u") hRun).trans hPut

omit hEscape hClean in
theorem not_alike_query {p : ColumnPlace} {t : Table} {q q' : Query} {cols cols' : List Str}
    {rows rows' : List TextRow} (hSpell : q.spell p (bare c) 1 = q')
    (hSelect : select ((Engine.ofTable t).env 0) "test" q = .ok (.rows cols rows))
    (hSelect' : select ((Engine.ofTable t).env 0) "test" q' = .ok (.rows cols' rows'))
    (hDiffer : asTable cols rows ≠ asTable cols' rows') (bound : Option (List Value)) :
    ¬SpelledAlike bound p c := by
  intro hAlike
  have hRun := hAlike 1 0 (some "test") (.createTable ⟨[⟨"u", none⟩], [], false, some q⟩) (Engine.ofTable t)
  have hStatement : (Statement.createTable ⟨[⟨"u", none⟩], [], false, some q⟩).spell p (bare c) 1 =
      .createTable ⟨[⟨"u", none⟩], [], false, some q'⟩ := by
    rw [Statement.spell]
    dsimp only
    rw [Option.map_some, hSpell, List.map_nil, ite_self]
  rw [hStatement] at hRun
  have hTable := exec_createAs bound hSelect
  rw [hRun, exec_createAs bound hSelect'] at hTable
  exact hDiffer (Option.some.inj hTable).symm

omit hEscape hClean in
theorem asTable_columns (cols : List Str) (rows : List TextRow) :
    (asTable cols rows).columns.map Column.name = cols := by
  show (List.mapIdx _ cols).map Column.name = cols
  refine List.ext_getElem? fun i => ?_
  rw [List.getElem?_map, List.getElem?_mapIdx]
  rcases cols[i]? with _ | name <;> rfl

/-- `SELECT id`. -/
def selectConstant (id : Ident) : Query :=
  .mk (.select (.mk none [.unnamedExpr (.identifier id)] [] none (.expressions []) none)) none none none

omit hEscape hClean in
theorem select_selectConstant (hPrints : PrintsNames) (env : QueryEnv) (dbName : Str) (id : Ident) :
    select env dbName (selectConstant id) = .ok (.rows [id.toString] [[some id.toString]]) := by
  have hLabel : itemLabel (.unnamedExpr (.identifier id)) = id.toString := hPrints.column id
  have hCell : constantCell env dbName (.unnamedExpr (.identifier id)) = .ok (some id.toString) := by
    show Except.ok (some (exprToString (.identifier id))) = _
    rw [hPrints.column]
  show selectConstants env dbName [.unnamedExpr (.identifier id)] = _
  unfold selectConstants
  rw [List.map_singleton, hLabel, List.mapM_cons, hCell]
  rfl

theorem not_alike_projection (hPrints : PrintsNames) (bound : Option (List Value)) :
    ¬SpelledAlike bound (.projection false) c := by
  refine not_alike_query (t := columnTable c []) ?_
    (select_selectConstant hPrints _ _ ⟨c, some '`'⟩) (select_selectConstant hPrints _ _ ⟨c, none⟩) ?_ bound
  · show selectConstant (bare c ⟨c, some '`'⟩) = _
    rw [bare_backticks]
  · intro h
    have hNames := congrArg (fun t => t.columns.map Column.name) h
    simp only [asTable_columns] at hNames
    exact backticks_ne hEscape hClean (List.singleton_inj.1 hNames)

omit hEscape hClean in
theorem select_ofTable {t : Table} (hName : t.name = ("t" : Str)) (projection : List SelectItem)
    (orderBy : Option OrderByKind) :
    select ((Engine.ofTable t).env 0) "test"
        (selectOf none projection none (.expressions []) none orderBy none none [⟨"t", none⟩]) =
      selectTable 0 t none projection none (.expressions []) none orderBy none none := by
  have hFind : findTable ((Engine.ofTable t).env 0).databases "test" "t" (unknownDatabase "test")
      (unknownTable ("test" ++ "." ++ "t")) = .ok t := by
    unfold Engine.env Engine.ofTable
    rw [hName]
    rfl
  rw [select_selectOf _ _ _ _ (fun w hw => by cases hw)]
  show (match findTable ((Engine.ofTable t).env 0).databases "test" "t" (unknownDatabase "test")
    (unknownTable ("test" ++ "." ++ "t")) with | .error other => pure other | .ok table => _) = _
  rw [hFind]
  rfl

-- Aggregates

omit hEscape hClean in
theorem dropWhile_concat {p : Char → Bool} {x : Char} (h : p x = false) (s : Str) :
    (s ++ [x]).dropWhile p = s.dropWhile p ++ [x] := by
  induction s with
  | nil =>
    rw [List.nil_append, List.dropWhile_nil, List.nil_append, List.dropWhile_cons_of_neg]
    rw [h]
    exact Bool.false_ne_true
  | cons a s ih =>
    rw [List.cons_append, List.dropWhile_cons, List.dropWhile_cons]
    split
    · exact ih
    · rfl

omit hEscape hClean in
/-- A text between characters that are no blanks. -/
theorem trim_between {x y : Char} (hx : isWhitespace x = false) (hy : isWhitespace y = false) (s : Str) :
    trim (x :: s ++ [y]) = x :: s ++ [y] := by
  have hStart : trimStart (x :: s ++ [y]) = x :: s ++ [y] := by
    unfold trimStart trimStartMatches
    rw [List.cons_append, List.dropWhile_cons_of_neg]
    rw [hx]
    exact Bool.false_ne_true
  unfold trim trimEnd trimEndMatches
  rw [hStart, List.reverse_append, List.reverse_singleton, List.singleton_append,
    List.dropWhile_cons_of_neg]
  · rw [List.reverse_cons, List.reverse_reverse]
  · rw [hy]
    exact Bool.false_ne_true

omit hEscape hClean in
theorem length_trim_le (s : Str) : (trim s).length ≤ s.length := by
  have hEnd := (List.dropWhile_sublist isWhitespace (l := (s.dropWhile isWhitespace).reverse)).length_le
  have hStart := (List.dropWhile_sublist isWhitespace (l := s)).length_le
  show ((s.dropWhile isWhitespace).reverse.dropWhile isWhitespace).reverse.length ≤ s.length
  rw [List.length_reverse]
  rw [List.length_reverse] at hEnd
  omega

/-- `SELECT SUM(id) AS s FROM t`. -/
def sumItem (id : Ident) : SelectItem :=
  .exprWithAlias (.function (.mk [⟨"SUM", none⟩]
    (.list (.mk none [.unnamed (.expr (.identifier id))] [])) none)) ⟨"s", none⟩

omit hEscape hClean in
/-- The parentheses go, and what is left is no longer than the name. -/
theorem length_argsColumn_le (hPrints : PrintsNames) (id : Ident) :
    (argsColumn (.list (.mk none [.unnamed (.expr (.identifier id))] []))).length ≤ id.toString.length := by
  have hTrim := trim_between (x := '(') (y := ')') (by decide) (by decide) id.toString
  have hOpen : trimStartMatches (· == '(') ('(' :: id.toString ++ [')']) =
      id.toString.dropWhile (· == '(') ++ [')'] := by
    unfold trimStartMatches
    rw [List.cons_append, List.dropWhile_cons_of_pos (by decide), dropWhile_concat (by decide)]
  have hClose := (List.dropWhile_sublist (· == ')')
    (l := (id.toString.dropWhile (· == '(')).reverse)).length_le
  have hShorter := (List.dropWhile_sublist (· == '(') (l := id.toString)).length_le
  unfold argsColumn
  rw [hPrints.arguments, hTrim, hOpen]
  refine (length_trim_le _).trans ?_
  unfold trimEndMatches
  rw [List.reverse_append, List.reverse_singleton, List.singleton_append,
    List.dropWhile_cons_of_pos (by decide), List.length_reverse]
  rw [List.length_reverse] at hClose
  omega

/-- A name in backticks comes out as it prints. -/
theorem argsColumn_backticks (hPrints : PrintsNames) :
    argsColumn (.list (.mk none [.unnamed (.expr (.identifier ⟨c, some '`'⟩))] [])) =
      Ident.toString ⟨c, some '`'⟩ := by
  have hTrim := trim_between (x := '(') (y := ')') (by decide) (by decide) (Ident.toString ⟨c, some '`'⟩)
  unfold argsColumn
  rw [hPrints.arguments, hTrim, backticks_toString hEscape hClean]
  have hOpen : trimStartMatches (· == '(') ('(' :: ('`' :: c ++ ['`']) ++ [')']) =
      '`' :: c ++ ['`'] ++ [')'] := by
    unfold trimStartMatches
    rw [List.cons_append, List.dropWhile_cons_of_pos (by decide), List.cons_append, List.cons_append,
      List.dropWhile_cons_of_neg (by decide)]
  have hClose : trimEndMatches (· == ')') ('`' :: c ++ ['`'] ++ [')']) = '`' :: c ++ ['`'] := by
    unfold trimEndMatches
    rw [List.reverse_append, List.reverse_singleton, List.singleton_append,
      List.dropWhile_cons_of_pos (by decide), List.reverse_append, List.reverse_singleton,
      List.singleton_append, List.dropWhile_cons_of_neg (by decide), List.reverse_cons, List.reverse_reverse]
  rw [hOpen, hClose, trim_between (by decide) (by decide)]

omit hEscape hClean in
theorem select_sum (hPrints : PrintsNames) (d : Str) (id : Ident) :
    select ((Engine.ofTable (columnTable d [])).env 0) "test"
        (selectOf none [sumItem id] none (.expressions []) none none none none [⟨"t", none⟩]) =
      .ok (.rows ["s"] [[(columnPosition (columnTable d []).columns
        (argsColumn (.list (.mk none [.unnamed (.expr (.identifier id))] [])))).map fun _ => "0"]]) := by
  have hOnly : isAggregateOnly [sumItem id] (.expressions []) = true := by
    show (true && true && (isAggName (toUppercase "SUM") && true)) = true
    rw [hPrints.upper]
    rfl
  have hCell : evalAggregate (columnTable d []).columns []
      (.mk [⟨"SUM", none⟩] (.list (.mk none [.unnamed (.expr (.identifier id))] [])) none) =
      (columnPosition (columnTable d []).columns
        (argsColumn (.list (.mk none [.unnamed (.expr (.identifier id))] [])))).map fun _ => ("0" : Str) := by
    have hUpper : toUppercase (ObjectName.toString [⟨"SUM", none⟩]) = ("SUM" : Str) := hPrints.upper
    unfold evalAggregate Function.name Function.args
    simp only [hUpper]
    rcases columnPosition (columnTable d []).columns
      (argsColumn (.list (.mk none [.unnamed (.expr (.identifier id))] []))) with _ | i
    · rfl
    · show (some (0 : Int64)).map i64ToString = some "0"
      decide
  rw [select_ofTable rfl]
  unfold selectTable
  rw [if_pos hOnly]
  show Except.ok (QueryResult.rows ["s"] [[evalAggregate (columnTable d []).columns [] _]]) = _
  rw [hCell]

theorem not_alike_aggregate (hPrints : PrintsNames) (bound : Option (List Value)) :
    ¬SpelledAlike bound .aggregate c := by
  let d := argsColumn (.list (.mk none [.unnamed (.expr (.identifier ⟨c, none⟩))] []))
  have hShort : d.length ≤ c.length := length_argsColumn_le hPrints ⟨c, none⟩
  have hLong := backticks_longer hEscape hClean
  have hMissing := position_longer (lt_of_le_of_lt hShort hLong) []
  have hPrinted := select_sum hPrints d ⟨c, some '`'⟩
  have hBare := select_sum hPrints d ⟨c, none⟩
  rw [argsColumn_backticks hEscape hClean hPrints, hMissing] at hPrinted
  rw [position_columnTable] at hBare
  refine not_alike_query ?_ hPrinted hBare ?_ bound
  · show selectOf none [(sumItem ⟨c, some '`'⟩).respellAggregate (bare c)] none (.expressions []) none none
      none none [⟨"t", none⟩] = selectOf none [sumItem ⟨c, none⟩] none _ none none none none _
    have hName : isAggName (toUppercase (ObjectName.toString [⟨"SUM", none⟩])) = true := by
      show isAggName (toUppercase "SUM") = true
      rw [hPrints.upper]
      rfl
    have hCall : ∀ args : FunctionArguments,
        Function.respellAggregate (bare c) (.mk [⟨"SUM", none⟩] args none) =
          .mk [⟨"SUM", none⟩] (args.respell (bare c) id) none := fun _ => if_pos hName
    have hItem : (sumItem ⟨c, some '`'⟩).respellAggregate (bare c) = sumItem (bare c ⟨c, some '`'⟩) :=
      congrArg (fun call => SelectItem.exprWithAlias (.function call) ⟨"s", none⟩) (hCall _)
    rw [hItem, bare_backticks]
  · intro h
    have hRows := congrArg (fun t => t.rows.head?.bind List.head?) h
    cases hRows

omit hEscape hClean in
/-- A number comes back as one. -/
theorem asTable_first {s : Str} {n : Int64} (hParse : parseI64 s = some n) (name : Str) (cols : List Str)
    (row : TextRow) (rows : List TextRow) :
    (asTable (name :: cols) ((some s :: row) :: rows)).rows.head?.bind List.head? = some (.int n) := by
  have hType : inferType (some (some s)) = .bigInt := by
    unfold inferType
    simp only [hParse, Option.isSome_some, if_true]
  have hColumn : (asTable (name :: cols) ((some s :: row) :: rows)).columns[0]? =
      some ⟨name, .bigInt, true, false⟩ := by
    show (List.mapIdx _ (name :: cols))[0]? = _
    rw [List.mapIdx_cons, List.getElem?_cons_zero]
    show some (Column.mk name (inferType (some (some s))) true false) = _
    rw [hType]
  show ((List.map (fun r => List.mapIdx (fun ci v =>
    readAs (asTable (name :: cols) ((some s :: row) :: rows)).columns[ci]? v) r)
      ((some s :: row) :: rows)).head?.bind List.head?) = _
  rw [List.map_cons, List.mapIdx_cons, hColumn]
  show some ((parseI64 s).elim (Value.text s) Value.int) = _
  rw [hParse]
  rfl

/-- `SELECT c, NULL AS k FROM t ORDER BY id`. -/
def orderedBy (c : Str) (id : Ident) : Query :=
  selectOf none [.unnamedExpr (.identifier ⟨c, none⟩), .exprWithAlias (.value .null) ⟨"k", none⟩] none
    (.expressions []) none (some (.expressions [.mk (.identifier id) none])) none none [⟨"t", none⟩]

omit hEscape hClean in
theorem select_orderedBy (hPrints : PrintsNames) (id : Ident) :
    select ((Engine.ofTable (columnTable c [[.int 1], [.int 0]])).env 0) "test" (orderedBy c id) =
      .ok (.rows [c, "k"] (match [c, "k"].findIdx? fun n => eqIgnoreAsciiCase n id.toString with
        | some p => sortBy (fun a b => cmpNullable (a[p]?.join) (b[p]?.join))
          [[some "1", none], [some "0", none]]
        | none => [[some "1", none], [some "0", none]])) := by
  let t := columnTable c [[.int 1], [.int 0]]
  have hOuts : ∀ n : Int64, evalOutputs 0 t.columns [(c, .identifier ⟨c, none⟩), ("k", .value .null)] [.int n] =
      .ok [some (i64ToString n), none] := by
    intro n
    have hCell : columnValue [.int n] t.columns c = some (.int n) := by
      unfold columnValue
      rw [position_columnTable]
      rfl
    have hValue : evalRowExpr 0 [.int n] t.columns (.identifier ⟨c, none⟩) = .ok (.int n) := by
      rw [evalRowExpr, hCell]
      rfl
    unfold evalOutputs
    rw [List.mapM_cons, List.mapM_cons, List.mapM_nil]
    dsimp only
    rw [hValue]
    rfl
  have hRows : t.rows.mapM (evalOutputs 0 t.columns [(c, .identifier ⟨c, none⟩), ("k", .value .null)]) =
      .ok [[some "1", none], [some "0", none]] := by
    have hOne : i64ToString 1 = ("1" : Str) := by decide
    have hZero : i64ToString 0 = ("0" : Str) := by decide
    show ([[.int 1], [.int 0]] : List Row).mapM _ = _
    rw [List.mapM_cons, List.mapM_cons, List.mapM_nil, hOuts, hOuts, hOne, hZero]
    rfl
  rw [orderedBy, select_ofTable rfl]
  show (do
    let rows ← t.rows.mapM (evalOutputs 0 t.columns [(c, .identifier ⟨c, none⟩), ("k", .value .null)])
    return QueryResult.rows [c, "k"]
      (sortOutputs cmpNullable [c, "k"] (some (.expressions [.mk (.identifier id) none])) rows)) = _
  rw [hRows, ← hPrints.column]
  rfl

theorem not_alike_orderBy (hPrints : PrintsNames) (bound : Option (List Value)) :
    ¬SpelledAlike bound (.orderBy false) c := by
  have hPrinted := select_orderedBy (c := c) hPrints ⟨c, some '`'⟩
  have hBare := select_orderedBy (c := c) hPrints ⟨c, none⟩
  have hLong := backticks_longer hEscape hClean
  have hMissing : [c, ("k" : Str)].findIdx? (fun n => eqIgnoreAsciiCase n (Ident.toString ⟨c, some '`'⟩)) =
      none := by
    rw [List.findIdx?_eq_none_iff]
    intro n hn
    rw [← Bool.not_eq_true]
    intro hSame
    have hLength := length_of_eqIgnoreAsciiCase hSame
    have hTwo : 2 ≤ (Ident.toString ⟨c, some '`'⟩).length := by
      rw [backticks_toString hEscape hClean, List.length_append, List.length_cons, List.length_singleton]
      omega
    rcases List.mem_pair.1 hn with rfl | rfl
    · omega
    · have hK : ("k" : Str).length = 1 := rfl
      omega
  have hThere : [c, ("k" : Str)].findIdx? (fun n => eqIgnoreAsciiCase n (Ident.toString ⟨c, none⟩)) =
      some 0 := by
    have hSame : eqIgnoreAsciiCase c (Ident.toString ⟨c, none⟩) = true := eqIgnoreAsciiCase_self c
    rw [List.findIdx?_cons, if_pos hSame]
  rw [hMissing] at hPrinted
  rw [hThere] at hBare
  refine not_alike_query ?_ hPrinted hBare ?_ bound
  · show orderedBy c (bare c ⟨c, some '`'⟩) = _
    rw [bare_backticks]
  · have hSorted : sortBy (fun a b : TextRow => cmpNullable (a[0]?.join) (b[0]?.join))
        [[some ("1" : Str), none], [some ("0" : Str), none]] =
          [[some ("0" : Str), none], [some ("1" : Str), none]] := by decide
    intro h
    have hFirst := congrArg (fun t => t.rows.head?.bind List.head?) h
    dsimp only at hFirst
    rw [hSorted, asTable_first (n := 1) (by decide), asTable_first (n := 0) (by decide)] at hFirst
    cases hFirst

/-- **Every place.** For every column name without dots and backticks and every
place: all statements do with the name in backticks what they do with it bare
exactly when the place reads the value of the identifier. -/
theorem spelled_alike_iff (hPrints : PrintsNames) (bound : Option (List Value)) (p : ColumnPlace) :
    SpelledAlike bound p c ↔ p.readsValue = true := by
  constructor
  · intro hAlike
    cases p
    case updateSet => exact absurd hAlike (not_alike_updateSet hEscape hClean bound)
    case addColumn => exact absurd hAlike (not_alike_addColumn hEscape hClean bound)
    case dropColumn => exact absurd hAlike (not_alike_dropColumn hEscape hClean bound)
    case renameFrom => exact absurd hAlike (not_alike_renameFrom hEscape hClean bound)
    case renameTo => exact absurd hAlike (not_alike_renameTo hEscape hClean bound)
    case aggregate => exact absurd hAlike (not_alike_aggregate hEscape hClean hPrints bound)
    case orderBy plain =>
      by_contra hOther
      obtain rfl : plain = false := Bool.eq_false_iff.2 hOther
      exact not_alike_orderBy hEscape hClean hPrints bound hAlike
    case projection listed =>
      by_contra hOther
      obtain rfl : listed = false := Bool.eq_false_iff.2 hOther
      exact not_alike_projection hEscape hClean hPrints bound hAlike
    all_goals rfl
  · intro hReads depth now currentDb s e
    rw [run_spell (bare_value c) hReads]

end Printed

end Spelling

-- ---------------------------------------------------------------------------
-- A column in backticks
-- ---------------------------------------------------------------------------

section Backticks

def printIdent (id : Ident) : Str :=
  match id.quoteStyle with
  | none => id.value
  | some '[' => '[' :: id.value ++ [']']
  | some q => q :: doubleQuote id.value q ++ [q]

/-- Names print with their quotes, also as the argument of a call. -/
local instance columnNamesPlatform : Platform :=
  { tablePlatform [] with
    exprToString
      | .identifier id => printIdent id
      | e => plainExprToString doubleQuote e
    functionArgumentsToString
      | .list (.mk none [.unnamed (.expr (.identifier id))] []) => '(' :: printIdent id ++ [')']
      | _ => [] }

theorem escapesOnlyQuotes_columns : EscapesOnlyQuotes := fun _ _ => doubleQuote_of_notMem

theorem printsNames_columns : PrintsNames := ⟨fun _ => rfl, fun _ => rfl, by decide⟩

theorem spelled_alike_iff_where : SpelledAlike none .whereClause "a" :=
  (spelled_alike_iff escapesOnlyQuotes_columns (by decide) printsNames_columns none .whereClause).2 rfl

/-- ``UPDATE t SET `a` = NULL`` changes nothing. -/
theorem not_spelled_alike :
    ¬ ∀ (bound : Option (List Value)) (p : ColumnPlace) (c : Str), '.' ∉ c → '`' ∉ c →
      SpelledAlike bound p c := fun hAll =>
  not_alike_updateSet escapesOnlyQuotes_columns (by decide) none
    (hAll none .updateSet "a" (by decide) (by decide))

end Backticks

end RunAlexDb
