import RunAlexDb.Lib.Groups
import RunAlexDb.Lib.Slices
import RunAlexDb.Query.RowSelection

/-!
# TableQueries — SELECT over one base table

A SELECT whose FROM clause is one table resolves the subqueries of its condition
and leaves the rest to `selectTable`. What the results about single-table
queries share: the query, the rows its condition keeps, the groups its GROUP BY
makes.
-/

set_option linter.unusedSectionVars false

namespace RunAlexDb

open Text Platform

/-- What a computation in two parts returns comes from what the first returned. -/
theorem ok_of_bind {ε α β : Type} {x : Except ε α} {f : α → Except ε β} {b : β}
    (h : x.bind f = .ok b) : ∃ a, x = .ok a ∧ f a = .ok b := by
  cases x with
  | error e => cases h
  | ok a => exact ⟨a, rfl, h⟩

/-- What a loop over a list returns, element by element. -/
theorem forall₂_of_mapM {ε α β : Type} {f : α → Except ε β} {l : List α} {m : List β}
    (h : l.mapM f = .ok m) : List.Forall₂ (fun a b => f a = .ok b) l m := by
  induction l generalizing m with
  | nil =>
    obtain rfl := Except.ok.inj h
    exact .nil
  | cons a l ih =>
    rw [List.mapM_cons] at h
    obtain ⟨b, hHead, h⟩ := ok_of_bind h
    obtain ⟨rest, hRest, hEq⟩ := ok_of_bind h
    obtain rfl := Except.ok.inj hEq
    exact .cons hHead (ih hRest)

theorem forall₂_exists {α β : Type} {R : α → β → Prop} {l : List α} {m : List β}
    (h : List.Forall₂ R l m) {a : α} (ha : a ∈ l) : ∃ b ∈ m, R a b := by
  induction h with
  | nil => cases ha
  | cons hHead _ ih =>
    rcases List.mem_cons.1 ha with rfl | hTail
    · exact ⟨_, List.mem_cons_self .., hHead⟩
    · obtain ⟨b, hb, hR⟩ := ih hTail
      exact ⟨b, List.mem_cons_of_mem _ hb, hR⟩

-- ---------------------------------------------------------------------------
-- The order of group keys
-- ---------------------------------------------------------------------------

theorem cmpStr_eq_compareLex (s t : Str) :
    cmpStr s t = List.compareLex (compareOn Char.toNat) s t := by
  induction s generalizing t with
  | nil => cases t <;> rfl
  | cons a s ih =>
    cases t with
    | nil => rfl
    | cons b t =>
      have hChar : compareOn Char.toNat a b = compare a.toNat b.toNat := rfl
      rw [cmpStr, List.compareLex_cons_cons, hChar, ih]
      rcases Nat.lt_trichotomy a.toNat b.toNat with hLt | hEq | hGt
      · rw [if_pos hLt, Nat.compare_eq_lt.2 hLt]
        rfl
      · rw [if_neg (by omega), if_neg (by omega), Nat.compare_eq_eq.2 hEq]
        rfl
      · rw [if_neg (by omega), if_pos hGt, Nat.compare_eq_gt.2 hGt]
        rfl

instance : Std.TransCmp cmpStr := by
  have hEq : cmpStr = List.compareLex (compareOn Char.toNat) :=
    funext₂ cmpStr_eq_compareLex
  rw [hEq]
  infer_instance

instance : Std.LawfulEqCmp cmpStr where
  compare_self := (cmpStr_eq_iff _ _).2 rfl
  eq_of_compare := fun h => (cmpStr_eq_iff _ _).1 h

/-- NULL first, texts by bytes. -/
def cmpCell : Option Str → Option Str → Ordering := (@instOrdOption Str ⟨cmpStr⟩).compare

instance : Std.TransCmp cmpCell := 
  @Option.instTransOrd Str ⟨cmpStr⟩ (inferInstanceAs (Std.TransCmp cmpStr))

instance : Std.LawfulEqCmp cmpCell := 
  @Option.instLawfulEqOrd Str ⟨cmpStr⟩ (inferInstanceAs (Std.LawfulEqCmp cmpStr))

theorem cmpKey_eq_compareLex (s t : TextRow) : cmpKey s t = List.compareLex cmpCell s t := by
  induction s generalizing t with
  | nil => cases t <;> rfl
  | cons a s ih =>
    cases t with
    | nil => rfl
    | cons b t =>
      rw [List.compareLex_cons_cons, ← ih]
      cases a <;> cases b <;> rfl

instance : Std.TransCmp cmpKey := by
  have hEq : cmpKey = List.compareLex cmpCell := funext₂ cmpKey_eq_compareLex
  rw [hEq]
  infer_instance

instance : Std.LawfulEqCmp cmpKey := by
  have hEq : cmpKey = List.compareLex cmpCell := funext₂ cmpKey_eq_compareLex
  rw [hEq]
  infer_instance

-- ---------------------------------------------------------------------------
-- LIMIT and OFFSET
-- ---------------------------------------------------------------------------

/-- The number `n` of a LIMIT or an OFFSET. -/
def numeral (n : Nat) : Expr := .value (.number (natToString n) false)

/-- A number the engine reads: from 2^64 on it is as if there were none. -/
def readable (n : Nat) : Option Nat := if n < 2 ^ 64 then some n else none

theorem parseUsize_natToString (n : Nat) : parseUsize (natToString n) = readable n := by
  have hNoSign : ∀ r, natToString n ≠ '+' :: r := by
    intro r hPlus
    have hParse := parseNat_natToString n
    rw [hPlus, parseNat, if_neg (by simp)] at hParse
    cases hParse
  -- the first case of the match is ruled out by `hNoSign`
  rw [parseUsize, parseNat_natToString]
  · rfl
  · exact hNoSign

theorem numberOf_numeral (n : Option Nat) : numberOf (n.map numeral) = n.bind readable := by
  cases n with
  | none => rfl
  | some n => exact parseUsize_natToString n

section TableQueries

variable [Platform]

theorem literalOf_numeral (n : Option Nat) : literalOf (n.map numeral) = n.bind readable := by
  cases n with
  | none => rfl
  | some n => exact parseUsize_natToString n

-- ---------------------------------------------------------------------------
-- The query
-- ---------------------------------------------------------------------------

/-- `SELECT .. FROM name WHERE w GROUP BY .. HAVING .. ORDER BY .. LIMIT .. OFFSET ..`. -/
def tableQuery (name : ObjectName) (distinct : Option Distinct) (projection : List SelectItem)
    (w : Option Expr) (groupBy : GroupByExpr) (having : Option Expr) (orderBy : Option OrderByKind)
    (limit offset : Option Expr) : Query :=
  .mk (.select (.mk distinct projection [.mk (.table name []) []] w groupBy having)) orderBy limit
    offset

/-- The rows of a table its condition keeps, the subqueries of the condition
replaced. -/
def rowsWhere (env : QueryEnv) (db : Str) (t : Table) (w : Option Expr) : Rust (List Row) := do
  let w' ← resolveSelection env db w
  filterRows env.now t.columns w' t.rows

/-- A condition is true of a row. -/
def holds (now : Nat) (cols : List Column) (e : Expr) (row : Row) : Bool :=
  evalWhere now row cols e = .ok true

-- ---------------------------------------------------------------------------
-- Rows kept, sorted and cut
-- ---------------------------------------------------------------------------

theorem filter_of_filterRows {now : Nat} {cols : List Column} {w : Expr} {rows kept : List Row}
    (h : filterRows now cols (some w) rows = .ok kept) : kept = rows.filter (holds now cols w) :=
  Prog.eq_of_filterM h

theorem filterRows_sublist {now : Nat} {cols : List Column} {w : Option Expr} {rows kept : List Row}
    (h : filterRows now cols w rows = .ok kept) : kept.Sublist rows := by
  cases w with
  | none =>
    obtain rfl := Except.ok.inj h
    exact List.Sublist.refl _
  | some w =>
    rw [filter_of_filterRows h]
    exact List.filter_sublist

/-- A column is shown as the cell at its position. -/
theorem columnValue_of_position {cols : List Column} {name : Str} {i : Nat}
    (hPos : columnPosition cols name = some i) (row : Row) :
    ((columnValue row cols name).getD .null).toDisplay = row[i]?.bind Value.toDisplay := by
  rw [columnValue, hPos, Option.bind_some]
  cases row[i]? <;> rfl

/-- The rows a scan or a condition selects are rows of the table. -/
theorem selectedRows_subset {now : Nat} {t : Table} {w : Option Expr} {rows : List Row}
    (h : selectedRows now t w = .ok rows) : ∀ row ∈ rows, row ∈ t.rows := by
  intro row hRow
  rw [selectedRows] at h
  cases hScan : w.bind (trySimdScan t) with
  | some idxs =>
    rw [hScan] at h
    obtain rfl := Except.ok.inj h
    obtain ⟨i, -, hGet⟩ := List.mem_filterMap.1 hRow
    exact List.mem_of_getElem? hGet
  | none =>
    rw [hScan] at h
    exact (filterRows_sublist h).subset hRow

theorem perm_sortOutputs (cmp : Option Str → Option Str → Ordering) (names : List Str)
    (orderBy : Option OrderByKind) (rows : List TextRow) :
    (sortOutputs cmp names orderBy rows).Perm rows := by
  unfold sortOutputs
  split
  · rename_i exprs
    generalize exprs.reverse = keys
    induction keys generalizing rows with
    | nil => exact List.Perm.refl _
    | cons oe keys ih =>
      rw [List.foldl_cons]
      refine (ih _).trans ?_
      split
      · exact List.perm_insertionSort ..
      · exact List.Perm.refl _
  · exact List.Perm.refl _

-- ---------------------------------------------------------------------------
-- The ways through a query
-- ---------------------------------------------------------------------------

section Ways

variable {now : Nat} {t : Table} {projection : List SelectItem} {groupBy : GroupByExpr}
  (distinct : Option Distinct) (w : Option Expr) (having : Option Expr)
  (orderBy : Option OrderByKind) (limit offset : Option Expr)

theorem selectTable_aggregates (hOnly : isAggregateOnly projection groupBy = true) :
    selectTable now t distinct projection w groupBy having orderBy limit offset =
      (filterRows now t.columns w t.rows).bind fun rows =>
        .ok (.rows (projection.map itemLabel)
          [projection.map fun p => p.function?.bind (evalAggregate t.columns rows)]) := by
  rw [selectTable, if_pos hOnly]
  rfl

theorem selectTable_groups (hOnly : isAggregateOnly projection groupBy = false)
    (hBy : groupByCols t.columns groupBy ≠ []) :
    selectTable now t distinct projection w groupBy having orderBy limit offset =
      (filterRows now t.columns w t.rows).bind fun rows =>
        selectGroups t.columns (groupByCols t.columns groupBy) projection having rows := by
  rw [selectTable, if_neg (by simp [hOnly]), if_pos (by simpa using hBy)]
  rfl

theorem selectTable_plain (hOnly : isAggregateOnly projection groupBy = false)
    (hBy : groupByCols t.columns groupBy = []) (hPlain : projection.all isPlainCol = true) :
    selectTable now t distinct projection w groupBy having orderBy limit offset =
      selectPlain now t distinct projection w orderBy limit offset := by
  rw [selectTable, if_neg (by simp [hOnly]), if_neg (by simpa using hBy), if_pos hPlain]

theorem selectTable_exprs (hOnly : isAggregateOnly projection groupBy = false)
    (hBy : groupByCols t.columns groupBy = []) (hPlain : projection.all isPlainCol = false) :
    selectTable now t distinct projection w groupBy having orderBy limit offset =
      selectExprs now t projection w orderBy limit offset := by
  rw [selectTable, if_neg (by simp [hOnly]), if_neg (by simpa using hBy), if_neg (by simp [hPlain])]

/-- The rows of a projection whose items are evaluated, sorted but not cut. -/
def evaluatedRows (now : Nat) (t : Table) (projection : List SelectItem) (w : Option Expr)
    (orderBy : Option OrderByKind) : Rust (List TextRow) := do
  let outs := projectionOutputs t.columns Column.name exprToString projection
  let kept ← filterRows now t.columns w t.rows
  let rows ← kept.mapM (evalOutputs now t.columns outs)
  return sortOutputs cmpNullable (outs.map Prod.fst) orderBy
    ((winItems outs).foldl (applyWindow (outs.map Prod.fst)) rows)

theorem selectExprs_eq (projection : List SelectItem) :
    selectExprs now t projection w orderBy limit offset =
      (evaluatedRows now t projection w orderBy).map fun rows =>
        .rows ((projectionOutputs t.columns Column.name exprToString projection).map Prod.fst)
          (cutOut (numberOf limit) ((numberOf offset).getD 0) rows) := by
  rw [selectExprs, evaluatedRows]
  cases filterRows now t.columns w t.rows with
  | error fault => rfl
  | ok kept =>
    simp only [bind, Except.bind]
    cases kept.mapM (evalOutputs now t.columns
      (projectionOutputs t.columns Column.name exprToString projection)) <;> rfl

/-- The key a table's index is asked for, by a condition if there is one. -/
def lookupOf (t : Table) : Option Expr → Rust (Option Str)
  | none => .ok none
  | some w => lookupKey t w

/-- What a projection of plain columns makes of the rows it selects: their values
as they are, or their texts sorted, cut and, with DISTINCT, cleared. -/
def plainResult (cols : List Column) (distinct : Option Distinct) (projection : List SelectItem)
    (orderBy : Option OrderByKind) (limit offset : Option Expr) (rows : List Row) : QueryResult :=
  if orderBy.isNone && limit.isNone && offset.isNone then
    .valueRows ((projCols cols projection).map Prod.fst)
      (rows.map fun row => (projCols cols projection).map fun p => row[p.2]?.getD .null)
  else
    let cut := cutOut (literalOf limit) ((literalOf offset).getD 0)
      ((sortSource cols orderBy rows).map (projectText (projCols cols projection)))
    .rows ((projCols cols projection).map Prod.fst)
      (if distinct = some .distinct then cut.reverse.dedup.reverse else cut)

/-- A projection of plain columns, by the index or by the rows selected. -/
theorem selectPlain_eq (projection : List SelectItem) :
    selectPlain now t distinct projection w orderBy limit offset =
      (lookupOf t w).bind fun pkKey => match pkKey with
        | some key => .ok (.rows ((projCols t.columns projection).map Prod.fst)
            ((pkRow t key).toList.map (projectText (projCols t.columns projection))))
        | none => (selectedRows now t w).map
            (plainResult t.columns distinct projection orderBy limit offset) := by
  cases w with
  | none =>
    simp only [selectPlain, bind, pure, Except.pure, lookupOf]
    cases t.pkColIdx <;> simp only [Except.bind] <;> cases selectedRows now t none <;>
      first | rfl | exact (apply_ite Except.ok _ _ _).symm
  | some w => exact selectPlain_lookup now t distinct projection w orderBy limit offset

end Ways

section Resolved

variable {env : QueryEnv} {dbName db table : Str} {name : ObjectName} {t : Table}
  (hTarget : resolveName dbName (ObjectName.toString name) = (db, table))
  (hTable : findTable env.databases db table [] [] = .ok t)

include hTarget hTable

/-- A query over one table is what `selectTable` makes of the table. -/
theorem select_tableQuery (distinct : Option Distinct) (projection : List SelectItem)
    (w : Option Expr) (groupBy : GroupByExpr) (having : Option Expr) (orderBy : Option OrderByKind)
    (limit offset : Option Expr) :
    select env dbName (tableQuery name distinct projection w groupBy having orderBy limit offset) =
      (resolveSelection env db w).bind fun w' =>
        selectTable env.now t distinct projection w' groupBy having orderBy limit offset := by
  have hName : TableFactor.toString (.table name []) = ObjectName.toString name :=
    List.append_nil _
  have hFound : findTable env.databases db table (unknownDatabase db)
      (unknownTable (db ++ "." ++ table)) = .ok t := findTable_ok_iff.2 hTable
  simp only [tableQuery, select, selectBody, selectFrom, derivedSource, TableWithJoins.relation,
    TableWithJoins.joins, hName, hTarget, hFound, bind, pure, Except.pure]
  rfl

/-- A query of aggregates alone has one row. -/
theorem select_aggregates {projection : List SelectItem} {w : Option Expr} {rows : List Row}
    (hRows : rowsWhere env db t w = .ok rows)
    (hOnly : isAggregateOnly projection (.expressions []) = true) (distinct : Option Distinct)
    (having : Option Expr) (orderBy : Option OrderByKind) (limit offset : Option Expr) :
    select env dbName
        (tableQuery name distinct projection w (.expressions []) having orderBy limit offset) =
      .ok (.rows (projection.map itemLabel)
        [projection.map fun p => p.function?.bind (evalAggregate t.columns rows)]) := by
  rw [select_tableQuery hTarget hTable]
  rw [rowsWhere] at hRows
  cases hWhere : resolveSelection env db w with
  | error fault => rw [hWhere] at hRows; cases hRows
  | ok w' =>
    rw [hWhere] at hRows
    show selectTable env.now t distinct projection w' (.expressions []) having orderBy limit offset = _
    rw [selectTable_aggregates _ _ _ _ _ _ hOnly]
    rw [show filterRows env.now t.columns w' t.rows = .ok rows from hRows]
    rfl

/-- A query with GROUP BY has one row for each group. -/
theorem select_groups {exprs : List Expr} {w : Option Expr} {rows : List Row}
    (hRows : rowsWhere env db t w = .ok rows) (hExprs : exprs ≠ [])
    (hCols : groupByCols t.columns (.expressions exprs) ≠ []) (distinct : Option Distinct)
    (projection : List SelectItem) (orderBy : Option OrderByKind) (limit offset : Option Expr) :
    select env dbName
        (tableQuery name distinct projection w (.expressions exprs) none orderBy limit offset) =
      .ok (.rows (projection.map itemLabel)
        ((groupRows (groupByCols t.columns (.expressions exprs)) rows).map fun g =>
          projection.map
            (groupCell t.columns (groupByCols t.columns (.expressions exprs)) g.1 g.2))) := by
  have hNotOnly : isAggregateOnly projection (.expressions exprs) = false := by
    rw [isAggregateOnly]
    simp [GroupByExpr.exprs, hExprs]
  rw [select_tableQuery hTarget hTable]
  rw [rowsWhere] at hRows
  cases hWhere : resolveSelection env db w with
  | error fault => rw [hWhere] at hRows; cases hRows
  | ok w' =>
    rw [hWhere] at hRows
    show selectTable env.now t distinct projection w' (.expressions exprs) none orderBy limit
      offset = _
    rw [selectTable_groups _ _ _ _ _ _ hNotOnly hCols]
    rw [show filterRows env.now t.columns w' t.rows = .ok rows from hRows]
    show (List.filterM (fun _ => Except.ok true) (groupRows _ rows)).bind _ = _
    rw [Prog.filterM_ok fun _ _ => rfl, List.filter_true]
    rfl

end Resolved

-- ---------------------------------------------------------------------------
-- Groups
-- ---------------------------------------------------------------------------

/-- The displayed cells of some columns of a row. -/
def shownCells (byCols : List Nat) (row : Row) : TextRow :=
  byCols.map fun ci => row[ci]?.bind Value.toDisplay

theorem addToGroup_eq (key : TextRow) (row : Row) (groups : Groups) :
    addToGroup key row groups = insertGroup cmpKey key row groups := by
  induction groups with
  | nil => rfl
  | cons g rest ih =>
    rw [addToGroup, insertGroup]
    cases cmpKey key g.1 with
    | lt => rfl
    | eq => rfl
    | gt => exact congrArg _ ih

/-- **GROUP BY** groups the rows by their displayed cells. -/
theorem grouped_groupRows (byCols : List Nat) (rows : List Row) :
    Grouped cmpKey (shownCells byCols) rows (groupRows byCols rows) := by
  have hLoop : groupRows byCols rows =
      rows.foldl (fun groups row => insertGroup cmpKey (shownCells byCols row) row groups) [] := by
    rw [groupRows]
    congr 1
    funext groups row
    exact addToGroup_eq _ row groups
  rw [hLoop]
  exact grouped_foldl (shownCells byCols) rows

end TableQueries

end RunAlexDb
