import RunAlexDb.Query.Spelling

/-!
# SpelledSelects — queries whose columns are written in another way

The clauses of a SELECT that read the value of an identifier: WHERE, GROUP BY,
a projected column, and ORDER BY over plain columns of one table. A query with
columns respelled there gives the same result.
-/

set_option linter.unusedSectionVars false

namespace RunAlexDb

open Text Platform

-- ---------------------------------------------------------------------------
-- A column by itself
-- ---------------------------------------------------------------------------

/-- Respell an expression that is a column. -/
def Expr.respellColumn (f : Ident → Ident) : Expr → Expr
  | .identifier id => .identifier (f id)
  | .compoundIdentifier parts => .compoundIdentifier (respellLast f parts)
  | e => e

/-- Respell an item that is a column. -/
def SelectItem.respellColumn (f : Ident → Ident) : SelectItem → SelectItem
  | .unnamedExpr e => .unnamedExpr (e.respellColumn f)
  | .exprWithAlias e a => .exprWithAlias (e.respellColumn f) a
  | p => p

def OrderByExpr.respellColumn (f : Ident → Ident) : OrderByExpr → OrderByExpr
  | .mk e asc => .mk (e.respellColumn f) asc

def OrderByKind.respellColumns (f : Ident → Ident) : OrderByKind → OrderByKind
  | .expressions exprs => .expressions (exprs.map (OrderByExpr.respellColumn f))
  | .all => .all

def GroupByExpr.respellColumns (f : Ident → Ident) : GroupByExpr → GroupByExpr
  | .expressions exprs => .expressions (exprs.map (Expr.respellColumn f))
  | .all => .all

section Columns

variable [Platform] {f : Ident → Ident} (hValue : ∀ id, (f id).value = id.value)

omit hValue in
theorem respellColumn_function (call : Function) :
    (Expr.function call).respellColumn f = .function call := rfl

omit hValue in
theorem respellColumn_isColumn (e : Expr) : (e.respellColumn f).isColumn = e.isColumn := by
  cases e <;> rfl

include hValue

theorem evalRowExpr_respellColumn (now : Nat) (row : Row) (cols : List Column) (e : Expr) :
    evalRowExpr now row cols (e.respellColumn f) = evalRowExpr now row cols e := by
  cases e
  case identifier id => exact evalRowExpr_respell (g := fun q => q) hValue now row cols (.identifier id)
  case compoundIdentifier parts => exact evalRowExpr_respell (g := fun q => q) hValue now row cols (.compoundIdentifier parts)
  all_goals rfl

theorem respellColumn_columnName? (e : Expr) : (e.respellColumn f).columnName? = e.columnName? := by
  cases e
  case identifier id => exact columnName?_respell (g := fun q => q) hValue (.identifier id)
  case compoundIdentifier parts => exact columnName?_respell (g := fun q => q) hValue (.compoundIdentifier parts)
  all_goals rfl

theorem respellColumn_plainName (e : Expr) : plainName (e.respellColumn f) = plainName e := by
  cases e
  case identifier id => exact congrArg some (hValue id)
  case compoundIdentifier parts => exact congrArg (fun name => some (name.getD [])) (respellLast_getLast? hValue parts)
  all_goals rfl

theorem respellColumn_exprName (e : Expr) (emptyName : Str) :
    exprName (e.respellColumn f) emptyName = exprName e emptyName := by
  cases e
  case identifier id => exact hValue id
  case compoundIdentifier parts => exact congrArg (fun name => name.getD emptyName) (respellLast_getLast? hValue parts)
  all_goals rfl

/-- A name is empty when it has no parts, and then it is respelled as it is. -/
theorem respellColumn_outputName (emptyName : Expr → Str) (e : Expr) :
    exprName (e.respellColumn f) (emptyName (e.respellColumn f)) = exprName e (emptyName e) := by
  rw [respellColumn_exprName hValue]
  cases e
  case compoundIdentifier parts =>
    rcases parts with _ | ⟨id, rest⟩
    · rfl
    · have hLast : (id :: rest).getLast?.map Ident.value ≠ none := by
        rw [List.getLast?_cons]
        intro h
        cases h
      obtain ⟨name, hName⟩ := Option.ne_none_iff_exists'.1 hLast
      rw [exprName, exprName, hName]
      rfl
  all_goals rfl

-- ---------------------------------------------------------------------------
-- Projections
-- ---------------------------------------------------------------------------

omit hValue in
theorem respellColumn_isWildcard (p : SelectItem) : (p.respellColumn f).isWildcard = p.isWildcard := by
  cases p <;> rfl

omit hValue in
theorem respellColumn_anyWildcard (projection : List SelectItem) :
    (projection.map (SelectItem.respellColumn f)).any SelectItem.isWildcard =
      projection.any SelectItem.isWildcard := by
  rw [List.any_map]
  exact congrArg projection.any (funext respellColumn_isWildcard)

omit hValue in
theorem respellColumn_function? (p : SelectItem) : (p.respellColumn f).function? = p.function? := by
  rcases p with e | ⟨e, a⟩ | text | text
  · cases e <;> rfl
  · cases e <;> rfl
  · rfl
  · rfl

omit hValue in
/-- An item that is a call is not a column. -/
theorem respellColumn_of_function {p : SelectItem} (h : p.function?.isSome = true) :
    p.respellColumn f = p := by
  rcases p with e | ⟨e, a⟩ | text | text
  · cases e
    case identifier | compoundIdentifier => cases h
    all_goals rfl
  · cases e
    case identifier | compoundIdentifier => cases h
    all_goals rfl
  · rfl
  · rfl

omit hValue in
theorem respellColumn_isPlainCol (p : SelectItem) : isPlainCol (p.respellColumn f) = isPlainCol p := by
  rcases p with e | ⟨e, a⟩ | text | text
  · exact respellColumn_isColumn e
  · exact respellColumn_isColumn e
  · rfl
  · rfl

omit hValue in
theorem respellColumn_isAggregateOnly (projection : List SelectItem) (groupBy : GroupByExpr) :
    isAggregateOnly (projection.map (SelectItem.respellColumn f)) groupBy =
      isAggregateOnly projection groupBy := by
  unfold isAggregateOnly
  rw [List.isEmpty_map, List.all_map]
  simp only [Function.comp_def, respellColumn_function?]

theorem respellColumn_projCol (cols : List Column) (p : SelectItem) :
    projCol cols (p.respellColumn f) = projCol cols p := by
  rcases p with e | ⟨e, a⟩ | text | text
  · cases e
    case identifier id =>
      show (columnPosition cols (f id).value).map (fun i => ((f id).value, i)) = _
      rw [hValue]
      rfl
    case compoundIdentifier parts =>
      show (columnPosition cols (((respellLast f parts).getLast?.map Ident.value).getD [])).map
        (fun i => (((respellLast f parts).getLast?.map Ident.value).getD [], i)) = _
      rw [respellLast_getLast? hValue]
      rfl
    all_goals rfl
  · cases e
    case identifier id =>
      show (columnPosition cols (f id).value).map (fun i => (a.value, i)) = _
      rw [hValue]
      rfl
    all_goals rfl
  · rfl
  · rfl

theorem respellColumn_projCols (cols : List Column) (projection : List SelectItem) :
    projCols cols (projection.map (SelectItem.respellColumn f)) = projCols cols projection := by
  unfold projCols
  rw [respellColumn_anyWildcard, List.filterMap_map]
  simp only [Function.comp_def, respellColumn_projCol hValue]

/-- Outputs that go by the same names, have the same values and the same windows. -/
structure SameOutputs (outs outs' : List (Str × Expr)) : Prop where
  names : outs'.map Prod.fst = outs.map Prod.fst
  cells : ∀ now cols row, evalOutputs now cols outs' row = evalOutputs now cols outs row
  windows : winItems outs' = winItems outs

omit hValue in
theorem SameOutputs.refl (outs : List (Str × Expr)) : SameOutputs outs outs := ⟨rfl, fun _ _ _ => rfl, rfl⟩

theorem respellColumn_outputs (cols : List Column) (nameOf : Column → Str) (emptyName : Expr → Str)
    (projection : List SelectItem) :
    SameOutputs (projectionOutputs cols nameOf emptyName projection)
      (projectionOutputs cols nameOf emptyName (projection.map (SelectItem.respellColumn f))) := by
  unfold projectionOutputs
  rw [respellColumn_anyWildcard]
  split
  · exact SameOutputs.refl _
  · rw [List.map_map]
    have hName : ∀ p : SelectItem,
        (outputItem emptyName (p.respellColumn f)).1 = (outputItem emptyName p).1 := by
      intro p
      rcases p with e | ⟨e, a⟩ | text | text
      · exact respellColumn_outputName hValue emptyName e
      · rfl
      · rfl
      · rfl
    have hCell : ∀ now cols row (p : SelectItem),
        evalRowExpr now row cols (outputItem emptyName (p.respellColumn f)).2 =
          evalRowExpr now row cols (outputItem emptyName p).2 := by
      intro now cols row p
      rcases p with e | ⟨e, a⟩ | text | text
      · exact evalRowExpr_respellColumn hValue now row cols e
      · exact evalRowExpr_respellColumn hValue now row cols e
      · rfl
      · rfl
    refine ⟨?_, fun now cols row => ?_, ?_⟩
    · rw [List.map_map, List.map_map]
      exact List.map_congr_left fun p _ => hName p
    · unfold evalOutputs
      rw [List.mapM_map, List.mapM_map]
      simp only [Function.comp_def, hCell]
    · unfold winItems
      rw [List.zipIdx_map, List.zipIdx_map, List.filterMap_map, List.filterMap_map]
      refine List.filterMap_congr fun x _ => ?_
      obtain ⟨p, idx⟩ := x
      rcases p with e | ⟨e, a⟩ | text | text
      · cases e <;> rfl
      · cases e <;> rfl
      · rfl
      · rfl

-- ---------------------------------------------------------------------------
-- Clauses of a query
-- ---------------------------------------------------------------------------

variable {g : Query → Query}

theorem selectDerived_selection (now : Nat) (inner : QueryResult) (projection : List SelectItem)
    (selection : Option Expr) (orderBy : Option OrderByKind) (limit offset : Option Expr) :
    selectDerived now inner projection (selection.map (Expr.respell f g)) orderBy limit offset =
      selectDerived now inner projection selection orderBy limit offset := by
  unfold selectDerived
  simp only [filterRows_respell hValue]

theorem selectDerived_projection (now : Nat) (inner : QueryResult) (projection : List SelectItem)
    (selection : Option Expr) (orderBy : Option OrderByKind) (limit offset : Option Expr) :
    selectDerived now inner (projection.map (SelectItem.respellColumn f)) selection orderBy limit offset =
      selectDerived now inner projection selection orderBy limit offset := by
  unfold selectDerived
  rcases asTextRows inner with other | ⟨colNames, innerRows⟩
  · rfl
  · have hOuts := respellColumn_outputs hValue (colNames.map fun n =>
      { name := n, colType := .varChar 255, nullable := true, primaryKey := false }) Column.name
      exprToString projection
    have hCells := fun now cols => funext (hOuts.cells now cols)
    dsimp only
    rw [hOuts.names, hCells]

theorem selectJoined_selection (env : QueryEnv) (dbName : Str) (from_ : TableWithJoins)
    (projection : List SelectItem) (selection : Option Expr) (groupBy : GroupByExpr)
    (orderBy : Option OrderByKind) (limit offset : Option Expr) :
    selectJoined env dbName from_ projection (selection.map (Expr.respell f g)) groupBy orderBy limit offset =
      selectJoined env dbName from_ projection selection groupBy orderBy limit offset := by
  unfold selectJoined
  simp only [filterRows_respell hValue]

theorem joinOutput_projection (now : Nat) (cols : List Column) (projection : List SelectItem)
    (orderBy : Option OrderByKind) (limit offset : Option Expr) (rows : List Row) :
    joinOutput now cols (projection.map (SelectItem.respellColumn f)) orderBy limit offset rows =
      joinOutput now cols projection orderBy limit offset rows := by
  have hOuts := respellColumn_outputs hValue cols (fun c => lastSegment c.name) (fun _ => []) projection
  have hCells := fun now cols => funext (hOuts.cells now cols)
  unfold joinOutput
  dsimp only
  rw [hOuts.names, hCells]

theorem selectJoined_projection (env : QueryEnv) (dbName : Str) (from_ : TableWithJoins)
    (projection : List SelectItem) (selection : Option Expr) {groupBy : GroupByExpr}
    (hGroupBy : groupBy.exprs.isEmpty = true) (orderBy : Option OrderByKind) (limit offset : Option Expr) :
    selectJoined env dbName from_ (projection.map (SelectItem.respellColumn f)) selection groupBy orderBy
        limit offset =
      selectJoined env dbName from_ projection selection groupBy orderBy limit offset := by
  unfold selectJoined
  simp only [hGroupBy, if_true, joinOutput_projection hValue]

omit hValue in
theorem respellColumns_isEmpty (groupBy : GroupByExpr) :
    (groupBy.respellColumns f).exprs.isEmpty = groupBy.exprs.isEmpty := by
  cases groupBy with
  | expressions exprs => exact List.isEmpty_map
  | all => rfl

/-- GROUP BY goes by the plain names. -/
theorem respellColumns_plainNames {β : Type} (groupBy : GroupByExpr) (look : Str → Option β) :
    ((groupBy.respellColumns f).exprs.filterMap fun e => (plainName e).bind look) =
      groupBy.exprs.filterMap fun e => (plainName e).bind look := by
  cases groupBy with
  | expressions exprs =>
    show (exprs.map (Expr.respellColumn f)).filterMap _ = exprs.filterMap _
    rw [List.filterMap_map]
    simp only [Function.comp_def, respellColumn_plainName hValue]
  | all => rfl

theorem selectJoined_groupBy (env : QueryEnv) (dbName : Str) (from_ : TableWithJoins)
    (projection : List SelectItem) (selection : Option Expr) (groupBy : GroupByExpr)
    (orderBy : Option OrderByKind) (limit offset : Option Expr) :
    selectJoined env dbName from_ projection selection (groupBy.respellColumns f) orderBy limit offset =
      selectJoined env dbName from_ projection selection groupBy orderBy limit offset := by
  have hCols : ∀ cols, joinGroupByCols cols (groupBy.respellColumns f).exprs =
      joinGroupByCols cols groupBy.exprs := fun cols : List Column =>
    respellColumns_plainNames hValue groupBy fun name => cols.findIdx? fun c : Column => c.goesBy name
  unfold selectJoined selectJoinGroups
  simp only [respellColumns_isEmpty, hCols]

theorem selectedRows_selection (now : Nat) (table : Table) (selection : Option Expr) :
    selectedRows now table (selection.map (Expr.respell f g)) = selectedRows now table selection := by
  have hScan : (selection.map (Expr.respell f g)).bind (trySimdScan table) =
      selection.bind (trySimdScan table) := by
    rcases selection with _ | w
    · rfl
    · exact trySimdScan_respell hValue table w
  unfold selectedRows
  rw [hScan, filterRows_respell hValue]

theorem selectPlain_selection (now : Nat) (table : Table) (distinct : Option Distinct)
    (projection : List SelectItem) (selection : Option Expr) (orderBy : Option OrderByKind)
    (limit offset : Option Expr) :
    selectPlain now table distinct projection (selection.map (Expr.respell f g)) orderBy limit offset =
      selectPlain now table distinct projection selection orderBy limit offset := by
  have hRows := selectedRows_selection (g := g) hValue now table selection
  unfold selectPlain
  rcases selection with _ | w
  · rfl
  · rw [Option.map_some] at hRows ⊢
    rcases table.pkColIdx with _ | pkIdx
    · simp only [hRows]
    · simp only [extractPkEq_respell hValue, hRows]

theorem selectTable_selection (now : Nat) (table : Table) (distinct : Option Distinct)
    (projection : List SelectItem) (selection : Option Expr) (groupBy : GroupByExpr)
    (having : Option Expr) (orderBy : Option OrderByKind) (limit offset : Option Expr) :
    selectTable now table distinct projection (selection.map (Expr.respell f g)) groupBy having orderBy
        limit offset =
      selectTable now table distinct projection selection groupBy having orderBy limit offset := by
  unfold selectTable selectExprs
  simp only [filterRows_respell hValue, selectPlain_selection hValue]

theorem selectTable_projection (now : Nat) (table : Table) (distinct : Option Distinct)
    (projection : List SelectItem) (selection : Option Expr) {groupBy : GroupByExpr}
    (hGroupBy : groupBy.exprs.isEmpty = true) (having : Option Expr) (orderBy : Option OrderByKind)
    (limit offset : Option Expr) :
    selectTable now table distinct (projection.map (SelectItem.respellColumn f)) selection groupBy having
        orderBy limit offset =
      selectTable now table distinct projection selection groupBy having orderBy limit offset := by
  have hByCols : groupByCols table.columns groupBy = [] := by
    unfold groupByCols
    rw [List.isEmpty_iff.1 hGroupBy]
    rfl
  have hPlain : (projection.map (SelectItem.respellColumn f)).all isPlainCol = projection.all isPlainCol := by
    rw [List.all_map]
    exact congrArg projection.all (funext respellColumn_isPlainCol)
  have hOuts := respellColumn_outputs hValue table.columns Column.name exprToString projection
  have hCells := fun now cols => funext (hOuts.cells now cols)
  unfold selectTable
  rw [respellColumn_isAggregateOnly]
  by_cases hOnly : isAggregateOnly projection groupBy = true
  · -- items that are calls stay as they are
    have hSame : projection.map (SelectItem.respellColumn f) = projection := by
      unfold isAggregateOnly at hOnly
      simp only [Bool.and_eq_true, List.all_eq_true] at hOnly
      have hCalls : ∀ p ∈ projection, p.respellColumn f = id p := by
        intro p hp
        refine respellColumn_of_function ?_
        have hCall := hOnly.2 p hp
        rcases hFunction : p.function? with _ | call
        · rw [hFunction] at hCall
          cases hCall
        · rfl
      rw [List.map_congr_left hCalls, List.map_id]
    rw [hSame]
  · simp only [hOnly, hByCols, hPlain, List.isEmpty_nil, Bool.not_true, Bool.false_eq_true, if_false]
    unfold selectPlain selectExprs
    simp only [respellColumn_projCols hValue, hOuts.names, hCells, hOuts.windows]

theorem selectTable_groupBy (now : Nat) (table : Table) (distinct : Option Distinct)
    (projection : List SelectItem) (selection : Option Expr) (groupBy : GroupByExpr)
    (having : Option Expr) (orderBy : Option OrderByKind) (limit offset : Option Expr) :
    selectTable now table distinct projection selection (groupBy.respellColumns f) having orderBy limit
        offset =
      selectTable now table distinct projection selection groupBy having orderBy limit offset := by
  have hByCols : groupByCols table.columns (groupBy.respellColumns f) = groupByCols table.columns groupBy :=
    respellColumns_plainNames hValue groupBy (columnPosition table.columns)
  unfold selectTable isAggregateOnly
  rw [hByCols, respellColumns_isEmpty]

theorem sortSource_respellColumns (cols : List Column) (orderBy : Option OrderByKind) (rows : List Row) :
    sortSource cols (orderBy.map (OrderByKind.respellColumns f)) rows = sortSource cols orderBy rows := by
  rcases orderBy with _ | exprs | _
  · rfl
  · show (exprs.map (OrderByExpr.respellColumn f)).reverse.foldl _ rows = exprs.reverse.foldl _ rows
    rw [← List.map_reverse, List.foldl_map]
    refine congrArg (fun step => exprs.reverse.foldl step rows) (funext fun rows => funext fun oe => ?_)
    obtain ⟨e, asc⟩ := oe
    have hName := respellColumn_exprName hValue (e := e)
    dsimp only [OrderByExpr.respellColumn, OrderByExpr.expr]
    rw [hName]
    rfl
  · rfl

theorem selectPlain_orderBy (now : Nat) (table : Table) (distinct : Option Distinct)
    (projection : List SelectItem) (selection : Option Expr) (orderBy : Option OrderByKind)
    (limit offset : Option Expr) :
    selectPlain now table distinct projection selection (orderBy.map (OrderByKind.respellColumns f)) limit
        offset =
      selectPlain now table distinct projection selection orderBy limit offset := by
  unfold selectPlain
  simp only [sortSource_respellColumns hValue, Option.isNone_map]

end Columns

end RunAlexDb
