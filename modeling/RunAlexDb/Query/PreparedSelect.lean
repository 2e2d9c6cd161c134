import RunAlexDb.Query.BoundParameters
import RunAlexDb.Query.RowSelection
import RunAlexDb.Statement.Calls

/-!
# PreparedSelect — a SELECT with parameters and its text

`select_prepared` is a second, shorter `select`: no joins, no groups, no order,
no expressions, COUNT as the one aggregate. What it shows is compared with what
the text shows in which every `?` is replaced by the literal of its value.

Main result: `executePrepared_shown`.
-/

set_option linter.unusedSectionVars false

namespace RunAlexDb

open Text Platform

/-- Positions in order, told by their members. -/
theorem positions_eq {idx idx' : List Nat} (h : idx.Pairwise (· < ·)) (h' : idx'.Pairwise (· < ·))
    (hMem : ∀ i, i ∈ idx ↔ i ∈ idx') : idx = idx' := by
  have hNodup : ∀ {l : List Nat}, l.Pairwise (· < ·) → l.Nodup := fun h => h.imp Nat.ne_of_lt
  have hPerm := (List.perm_ext_iff_of_nodup (hNodup h) (hNodup h')).2 hMem
  exact hPerm.eq_of_pairwise (fun a b _ _ hab hba => absurd hab (Nat.lt_asymm hba)) h h'

section PreparedSelect

variable [Platform]

/-- Columns and displayed rows of a result; an error shows none. -/
def shown (r : QueryResult) : Option (List Str × List TextRow) := (asTextRows r).toOption

@[simp] theorem shown_err (code : Nat) (message : Str) : shown (.err code message) = none := rfl

-- ---------------------------------------------------------------------------
-- The rows of the two
-- ---------------------------------------------------------------------------

/-- The key `select_prepared` looks up. -/
def preparedKey (t : Table) (bound : List Value) : Option Expr → Rust (Option Str)
  | none => .ok none
  | some w =>
    match t.pkColIdx with
    | none => .ok none
    | some p => (orPanic t.columns[p]?).map fun c => boundKey bound 0 c.name w

/-- The positions of the rows `select_prepared` finds. -/
def preparedPositions (now : Nat) (t : Table) (bound : List Value) (selection : Option Expr) :
    Rust (List Nat) := do
  match ← preparedKey t bound selection with
  | some key => return ((t.pkIndex.get key).filter (· < t.rows.length)).toList
  | none =>
    (t.rows.zipIdx.filterM fun x => rowSelectedBound now t.columns bound selection x.1).map
      (List.map Prod.snd)

/-- `select_prepared` takes row `i`: the entry of the index, or the condition,
says so. -/
def takesBound (now : Nat) (t : Table) (bound : List Value) (selection : Option Expr) (i : Nat)
    (r : Row) : Prop :=
  match preparedKey t bound selection with
  | .ok (some key) => t.pkIndex.get key = some i
  | .ok none => rowSelectedBound now t.columns bound selection r = .ok true
  | .error _ => False

/-- The positions of the rows a SELECT finds, all of them without a condition. -/
def textPositions (now : Nat) (t : Table) : Option Expr → Rust (List Nat)
  | none => .ok (List.range t.rows.length)
  | some w => foundPositions now t w

/-- SELECT takes row `i`. -/
def takesText (now : Nat) (t : Table) (selection : Option Expr) (i : Nat) (r : Row) : Prop :=
  selection.elim True fun w => takes now t w i r

/-- Both find their rows without a panic, and the same ones. -/
structure SameRows (now : Nat) (t : Table) (bound : List Value) (selection selection' : Option Expr) :
    Prop where
  prepared : ∃ idx, preparedPositions now t bound selection = .ok idx
  text : ∃ idx, textPositions now t selection' = .ok idx
  same : ∀ i r, t.rows[i]? = some r →
    (takesBound now t bound selection i r ↔ takesText now t selection' i r)

theorem foundPositions_sorted {now : Nat} {t : Table} {w : Expr} {idx : List Nat}
    (h : foundPositions now t w = .ok idx) : idx.Pairwise (· < ·) := by
  rw [foundPositions] at h
  cases hKey : lookupKey t w with
  | error fault => rw [hKey] at h; cases h
  | ok pkKey =>
    rw [hKey] at h
    cases pkKey with
    | some key =>
      obtain rfl : ((t.pkIndex.get key).filter (· < t.rows.length)).toList = idx := Except.ok.inj h
      cases (t.pkIndex.get key).filter (· < t.rows.length) <;> simp
    | none =>
      cases hScan : trySimdScan t w with
      | some found =>
        simp only [hScan, bind, Except.bind, pure, Except.pure] at h
        obtain rfl := Except.ok.inj h
        exact (trySimdScan_sorted hScan).filter _
      | none =>
        simp only [hScan, bind, Except.bind] at h
        cases hRun : t.rows.zipIdx.filterM fun x => evalWhere now x.1 t.columns w with
        | error fault => rw [hRun] at h; cases h
        | ok res =>
          rw [hRun] at h
          rw [← Except.ok.inj h, Prog.eq_of_filterM hRun]
          exact scanWhere_sorted (fun r => decide (evalWhere now r t.columns w = .ok true)) t.rows

/-- Members and order of a scan that decides every row. -/
theorem filterM_positions {f : Row → Rust Bool} {rows : List Row} {res : List (Row × Nat)}
    (h : (rows.zipIdx.filterM fun x => f x.1) = .ok res) :
    res.map Prod.snd = scanWhere (fun r => decide (f r = .ok true)) rows := by
  rw [Prog.eq_of_filterM h, scanWhere]

theorem preparedPositions_spec {now : Nat} {t : Table} {bound : List Value} {selection : Option Expr}
    {idx : List Nat} (h : preparedPositions now t bound selection = .ok idx) :
    idx.Pairwise (· < ·) ∧ (∀ i ∈ idx, i < t.rows.length) ∧
      ∀ i r, t.rows[i]? = some r → (i ∈ idx ↔ takesBound now t bound selection i r) := by
  rw [preparedPositions] at h
  cases hKey : preparedKey t bound selection with
  | error fault => rw [hKey] at h; cases h
  | ok pkKey =>
    rw [hKey] at h
    cases pkKey with
    | some key =>
      obtain rfl : ((t.pkIndex.get key).filter (· < t.rows.length)).toList = idx := Except.ok.inj h
      refine ⟨?_, ?_, fun i r hGet => ?_⟩
      · cases (t.pkIndex.get key).filter (· < t.rows.length) <;> simp
      · intro i hi
        rw [Option.mem_toList, Option.filter_eq_some_iff] at hi
        simpa using hi.2
      · rw [Option.mem_toList, Option.filter_eq_some_iff]
        simp only [takesBound, hKey]
        have hIn := (List.getElem?_eq_some_iff.1 hGet).1
        exact and_iff_left (by simpa using hIn)
    | none =>
      simp only [bind, Except.bind] at h
      cases hRun : t.rows.zipIdx.filterM fun x =>
          rowSelectedBound now t.columns bound selection x.1 with
      | error fault => rw [hRun] at h; cases h
      | ok res =>
        rw [hRun] at h
        obtain rfl : res.map Prod.snd = idx := Except.ok.inj h
        rw [filterM_positions hRun]
        refine ⟨scanWhere_sorted _ _, ?_, fun i r hGet => ?_⟩
        · intro i hi
          obtain ⟨r, hGet, _⟩ := mem_scanWhere.1 hi
          exact (List.getElem?_eq_some_iff.1 hGet).1
        · simp only [takesBound, hKey, mem_scanWhere, hGet, Option.some.injEq, exists_eq_left',
            decide_eq_true_eq]

theorem textPositions_spec {now : Nat} {t : Table} {selection : Option Expr} {idx : List Nat}
    (h : textPositions now t selection = .ok idx) :
    idx.Pairwise (· < ·) ∧ (∀ i ∈ idx, i < t.rows.length) ∧
      ∀ i r, t.rows[i]? = some r → (i ∈ idx ↔ takesText now t selection i r) := by
  cases selection with
  | none =>
    obtain rfl : List.range t.rows.length = idx := Except.ok.inj h
    refine ⟨List.pairwise_lt_range, fun i hi => List.mem_range.1 hi, fun i r hGet => ?_⟩
    exact iff_of_true (List.mem_range.2 (List.getElem?_eq_some_iff.1 hGet).1) trivial
  | some w =>
    obtain ⟨-, hIn, hMem⟩ := foundPositions_spec h
    exact ⟨foundPositions_sorted h, hIn, hMem⟩

/-- Rows taken alike are found at the same positions. -/
theorem SameRows.positions {now : Nat} {t : Table} {bound : List Value}
    {selection selection' : Option Expr} (h : SameRows now t bound selection selection') :
    ∃ idx, preparedPositions now t bound selection = .ok idx ∧
      textPositions now t selection' = .ok idx := by
  obtain ⟨idx, hPrepared⟩ := h.prepared
  obtain ⟨idx', hText⟩ := h.text
  obtain ⟨hSorted, hIn, hMem⟩ := preparedPositions_spec hPrepared
  obtain ⟨hSorted', hIn', hMem'⟩ := textPositions_spec hText
  have hEq : idx = idx' := by
    refine positions_eq hSorted hSorted' fun i => ?_
    by_cases hLt : i < t.rows.length
    · have hGet := List.getElem?_eq_getElem hLt
      rw [hMem i _ hGet, hMem' i _ hGet, h.same i _ hGet]
    · exact iff_of_false (fun hi => hLt (hIn i hi)) fun hi => hLt (hIn' i hi)
  exact ⟨idx, hPrepared, hEq ▸ hText⟩

-- ---------------------------------------------------------------------------
-- Plain columns
-- ---------------------------------------------------------------------------

/-- The columns `select_prepared` projects to. -/
def preparedCols (cols : List Column) (projection : List SelectItem) : List (Str × Nat) :=
  if projection.any SelectItem.isWildcard then cols.zipIdx.map fun (c, i) => (c.name, i)
  else projection.filterMap (projColPrepared cols)

/-- All items are calls, and there is one. -/
def allCalls (projection : List SelectItem) : Bool :=
  !projection.isEmpty && projection.all fun p => p.function?.isSome

/-- `select_prepared` on a table, the key taken out. -/
theorem selectTablePrepared_eq (now : Nat) (t : Table) (bound : List Value)
    (projection : List SelectItem) (selection : Option Expr) :
    selectTablePrepared now t bound projection selection =
      (preparedKey t bound selection).bind fun pkKey => match pkKey with
        | some key => .ok (.rows ((preparedCols t.columns projection).map Prod.fst)
            ((pkRow t key).toList.map (projectText (preparedCols t.columns projection))))
        | none =>
          (t.rows.filterM fun r => rowSelectedBound now t.columns bound selection r).bind fun kept =>
            if allCalls projection then
              .ok (.rows (projection.map SelectItem.toString) [projection.map fun p =>
                p.function?.bind fun f =>
                  if toUppercase (ObjectName.toString f.name) = ("COUNT" : Str) then
                    some (natToString kept.length)
                  else none])
            else .ok (.rows ((preparedCols t.columns projection).map Prod.fst)
              (kept.map (projectText (preparedCols t.columns projection)))) := by
  cases selection with
  | none =>
    cases hPk : t.pkColIdx with
    | none => simp only [selectTablePrepared, preparedKey, hPk, bind, pure, Except.pure]; rfl
    | some p => simp only [selectTablePrepared, preparedKey, hPk, bind, pure, Except.pure]; rfl
  | some w =>
    cases hPk : t.pkColIdx with
    | none => simp only [selectTablePrepared, preparedKey, hPk, bind, pure, Except.pure]; rfl
    | some p =>
      simp only [selectTablePrepared, preparedKey, hPk, bind, pure, Except.pure]
      cases orPanic t.columns[p]? with
      | error fault => rfl
      | ok c =>
        simp only [Except.bind, Except.map]
        cases boundKey bound 0 c.name w <;> rfl

/-- The rows found, projected. -/
def projected (t : Table) (proj : List (Str × Nat)) (idx : List Nat) :
    Option (List Str × List TextRow) :=
  some (proj.map Prod.fst, (elemsAt t.rows idx).map (projectText proj))

theorem shown_selectTablePrepared {projection : List SelectItem} (hCalls : allCalls projection = false)
    (now : Nat) (t : Table) (bound : List Value) (selection : Option Expr) :
    (selectTablePrepared now t bound projection selection).map shown =
      (preparedPositions now t bound selection).map
        (projected t (preparedCols t.columns projection)) := by
  rw [selectTablePrepared_eq, preparedPositions, hCalls]
  cases preparedKey t bound selection with
  | error fault => rfl
  | ok pkKey =>
    cases pkKey with
    | some key =>
      simp only [Except.bind, bind, Except.map, pure, Except.pure, shown, asTextRows, projected,
        pkRow_eq_elemsAt]
      rfl
    | none =>
      simp only [Except.bind, bind, filterM_elemsAt]
      cases t.rows.zipIdx.filterM fun x => rowSelectedBound now t.columns bound selection x.1 <;> rfl

/-- A row of values, displayed. -/
theorem displayRow_cells (proj : List (Str × Nat)) (row : Row) :
    displayRow (proj.map fun p => row[p.2]?.getD .null) = projectText proj row := by
  rw [displayRow, projectText, List.map_map]
  refine List.map_congr_left fun x _ => ?_
  show (row[x.2]?.getD .null).toDisplay = _
  cases row[x.2]? <;> rfl

/-- Without ORDER BY, LIMIT and OFFSET a SELECT of plain columns shows the rows
it finds, DISTINCT or not. -/
theorem shown_selectPlain (now : Nat) (t : Table) (distinct : Option Distinct)
    (projection : List SelectItem) (selection : Option Expr) :
    (selectPlain now t distinct projection selection none none none).map shown =
      (textPositions now t selection).map (projected t (projCols t.columns projection)) := by
  cases selection with
  | none =>
    have hAll : selectPlain now t distinct projection none none none none =
        .ok (.valueRows ((projCols t.columns projection).map Prod.fst)
          (t.rows.map fun row => (projCols t.columns projection).map fun p =>
            row[p.2]?.getD .null)) := by
      cases hPk : t.pkColIdx <;>
        simp only [selectPlain, hPk, selectedRows, filterRows, bind, pure, Except.pure] <;> rfl
    rw [hAll]
    simp only [Except.map, shown, asTextRows, textPositions, projected, elemsAt_range,
      List.map_map, Function.comp_def, displayRow_cells]
    rfl
  | some w =>
    rw [selectPlain_lookup]
    cases hKey : lookupKey t w with
    | error fault => rw [textPositions, foundPositions, hKey]; rfl
    | ok pkKey =>
      cases pkKey with
      | some key =>
        rw [textPositions, foundPositions, hKey]
        simp only [Except.bind, bind, Except.map, pure, Except.pure, shown, asTextRows, projected,
          pkRow_eq_elemsAt]
        rfl
      | none =>
        simp only [Except.bind, selectedRows_eq hKey, textPositions]
        cases foundPositions now t w with
        | error fault => rfl
        | ok idx =>
          simp only [Except.map, Option.isNone_none, Bool.and_self, if_true, shown, asTextRows,
            projected, List.map_map, Function.comp_def, displayRow_cells]
          rfl

/-- A row looked up by its key is shown whatever ORDER BY, LIMIT and OFFSET
say. -/
theorem shown_selectPlain_key {t : Table} {w : Expr} {key : Str}
    (hKey : lookupKey t w = .ok (some key)) (now : Nat) (distinct : Option Distinct)
    (projection : List SelectItem) (orderBy : Option OrderByKind) (limit offset : Option Expr) :
    (selectPlain now t distinct projection (some w) orderBy limit offset).map shown =
      (textPositions now t (some w)).map (projected t (projCols t.columns projection)) := by
  rw [← shown_selectPlain now t distinct, selectPlain_key hKey, selectPlain_key hKey]

-- ---------------------------------------------------------------------------
-- One table
-- ---------------------------------------------------------------------------

/-- Plain columns: both read the same columns of the same rows, the GROUP BY
names no column, and there is no ORDER BY, LIMIT and OFFSET to obey. -/
structure PlainAgrees (now : Nat) (t : Table) (bound : List Value) (projection : List SelectItem)
    (selection selection' : Option Expr) (groupBy : GroupByExpr) (orderBy : Option OrderByKind)
    (limit offset : Option Expr) : Prop where
  items : projection.all isPlainCol = true
  cols : preparedCols t.columns projection = projCols t.columns projection
  groups : groupByCols t.columns groupBy = []
  order : (orderBy = none ∧ limit = none ∧ offset = none) ∨
    ∃ w key, selection' = some w ∧ lookupKey t w = .ok (some key)
  rows : SameRows now t bound selection selection'

/-- Unaliased COUNTs without DISTINCT over a condition that both decide alike on
every row, and that is no lookup of the key. -/
structure CountAgrees (now : Nat) (t : Table) (bound : List Value) (projection : List SelectItem)
    (selection selection' : Option Expr) (groupBy : GroupByExpr) : Prop where
  some_item : projection ≠ []
  items : ∀ p ∈ projection, ∃ f, p = .unnamedExpr (.function f) ∧
    toUppercase (ObjectName.toString f.name) = ("COUNT" : Str) ∧ f.args.isDistinct = false
  groups : groupBy.exprs = []
  noKey : preparedKey t bound selection = .ok none
  rows : ∀ r ∈ t.rows, ∃ b, rowSelectedBound now t.columns bound selection r = .ok b ∧
    rowSelected now t.columns selection' r = .ok b

theorem function?_of_isPlainCol {p : SelectItem} (h : isPlainCol p = true) : p.function? = none := by
  cases p with
  | unnamedExpr e => cases e <;> first | rfl | cases h
  | exprWithAlias e a => cases e <;> first | rfl | cases h
  | wildcard text => rfl
  | qualifiedWildcard text => rfl

/-- Plain columns are no calls. -/
theorem noCalls_of_plain {projection : List SelectItem} (h : projection.all isPlainCol = true) :
    allCalls projection = false ∧ ∀ groupBy, isAggregateOnly projection groupBy = false := by
  cases projection with
  | nil => exact ⟨rfl, fun _ => rfl⟩
  | cons p rest =>
    rw [List.all_cons, Bool.and_eq_true] at h
    have hNone := function?_of_isPlainCol h.1
    refine ⟨?_, fun groupBy => ?_⟩
    · rw [allCalls, List.all_cons, hNone]
      rfl
    · rw [isAggregateOnly, List.all_cons, hNone]
      simp

theorem shown_plain {now : Nat} {t : Table} {bound : List Value} {projection : List SelectItem}
    {selection selection' : Option Expr} {groupBy : GroupByExpr} {orderBy : Option OrderByKind}
    {limit offset : Option Expr}
    (h : PlainAgrees now t bound projection selection selection' groupBy orderBy limit offset)
    (distinct : Option Distinct) (having : Option Expr) :
    (selectTablePrepared now t bound projection selection).map shown =
      (selectTable now t distinct projection selection' groupBy having orderBy limit offset).map
        shown := by
  obtain ⟨hCalls, hAggregate⟩ := noCalls_of_plain h.items
  obtain ⟨idx, hPrepared, hText⟩ := h.rows.positions
  have hTable : selectTable now t distinct projection selection' groupBy having orderBy limit
      offset = selectPlain now t distinct projection selection' orderBy limit offset := by
    simp only [selectTable, hAggregate, h.groups, h.items, Bool.false_eq_true, if_false,
      List.isEmpty_nil, Bool.not_true, if_true]
  have hShown : (selectPlain now t distinct projection selection' orderBy limit offset).map shown =
      (textPositions now t selection').map (projected t (projCols t.columns projection)) := by
    rcases h.order with ⟨rfl, rfl, rfl⟩ | ⟨w, key, rfl, hKey⟩
    · exact shown_selectPlain now t distinct projection selection'
    · exact shown_selectPlain_key hKey now distinct projection orderBy limit offset
  rw [shown_selectTablePrepared hCalls, hTable, hShown, hPrepared, hText, h.cols]

/-- Every item counts the rows, in both. -/
theorem CountAgrees.cells {now : Nat} {t : Table} {bound : List Value}
    {projection : List SelectItem} {selection selection' : Option Expr} {groupBy : GroupByExpr}
    (h : CountAgrees now t bound projection selection selection' groupBy) (kept : List Row) :
    (projection.map fun p => p.function?.bind fun f =>
        if toUppercase (ObjectName.toString f.name) = ("COUNT" : Str) then
          some (natToString kept.length)
        else none) =
      projection.map fun p => p.function?.bind (evalAggregate t.columns kept) := by
  refine List.map_congr_left fun p hp => ?_
  obtain ⟨f, rfl, hName, hDistinct⟩ := h.items p hp
  simp only [SelectItem.function?, Option.bind_some, evalAggregate, hName, if_true]
  show _ = if f.args.isDistinct = true then _ else _
  rw [hDistinct]
  rfl

theorem CountAgrees.labels {now : Nat} {t : Table} {bound : List Value}
    {projection : List SelectItem} {selection selection' : Option Expr} {groupBy : GroupByExpr}
    (h : CountAgrees now t bound projection selection selection' groupBy) :
    projection.map SelectItem.toString = projection.map itemLabel := by
  refine List.map_congr_left fun p hp => ?_
  obtain ⟨f, rfl, -, -⟩ := h.items p hp
  rfl

/-- Such items are taken for calls here and for aggregates there. -/
theorem CountAgrees.recognised {now : Nat} {t : Table} {bound : List Value}
    {projection : List SelectItem} {selection selection' : Option Expr} {groupBy : GroupByExpr}
    (h : CountAgrees now t bound projection selection selection' groupBy) :
    allCalls projection = true ∧ isAggregateOnly projection groupBy = true := by
  have hSome : projection.isEmpty = false := by
    cases hItems : projection with
    | nil => exact absurd hItems h.some_item
    | cons p rest => rfl
  rw [allCalls, isAggregateOnly, hSome, h.groups]
  simp only [Bool.not_false, Bool.true_and, List.isEmpty_nil, List.all_eq_true]
  refine ⟨fun p hp => ?_, fun p hp => ?_⟩
  · obtain ⟨f, rfl, -, -⟩ := h.items p hp
    rfl
  · obtain ⟨f, rfl, hName, -⟩ := h.items p hp
    show isAggName (toUppercase (ObjectName.toString f.name)) = true
    rw [hName]
    rfl

theorem shown_count {now : Nat} {t : Table} {bound : List Value} {projection : List SelectItem}
    {selection selection' : Option Expr} {groupBy : GroupByExpr}
    (h : CountAgrees now t bound projection selection selection' groupBy)
    (distinct : Option Distinct) (having : Option Expr) (orderBy : Option OrderByKind)
    (limit offset : Option Expr) :
    (selectTablePrepared now t bound projection selection).map shown =
      (selectTable now t distinct projection selection' groupBy having orderBy limit offset).map
        shown := by
  obtain ⟨hCalls, hAggregate⟩ := h.recognised
  have hKept : t.rows.filterM (rowSelectedBound now t.columns bound selection) =
      .ok (t.rows.filter fun r => decide (rowSelectedBound now t.columns bound selection r = .ok true)) := by
    refine Prog.filterM_ok fun r hr => ?_
    obtain ⟨b, hBound, -⟩ := h.rows r hr
    rw [hBound]
    cases b <;> rfl
  have hFiltered : filterRows now t.columns selection' t.rows =
      .ok (t.rows.filter fun r => decide (rowSelectedBound now t.columns bound selection r = .ok true)) := by
    have hAll : filterRows now t.columns selection' t.rows =
        t.rows.filterM (rowSelected now t.columns selection') := by
      cases selection' with
      | none =>
        have hTrue : t.rows.filterM (rowSelected now t.columns none) =
            .ok (t.rows.filter fun _ => true) := Prog.filterM_ok fun _ _ => rfl
        rw [List.filter_eq_self.2 fun _ _ => rfl] at hTrue
        exact hTrue.symm
      | some w => rfl
    rw [hAll]
    refine Prog.filterM_ok fun r hr => ?_
    obtain ⟨b, hBound, hText⟩ := h.rows r hr
    rw [hBound, hText]
    cases b <;> rfl
  have hTable : selectTable now t distinct projection selection' groupBy having orderBy limit
      offset = .ok (.rows (projection.map itemLabel) [projection.map fun p =>
        p.function?.bind (evalAggregate t.columns (t.rows.filter fun r =>
          decide (rowSelectedBound now t.columns bound selection r = .ok true)))]) := by
    simp only [selectTable, hAggregate, if_true, hFiltered, bind, Except.bind, pure, Except.pure]
  rw [selectTablePrepared_eq, h.noKey, hTable]
  simp only [Except.bind, hKept, hCalls, if_true, h.cells, h.labels]

-- ---------------------------------------------------------------------------
-- Queries
-- ---------------------------------------------------------------------------

variable {literal : Value → Expr}

/-- The values left for the WHERE clause: items and FROM stand before it. -/
def whereValues (literal : Value → Expr) (bound : List Value) (projection : List SelectItem)
    (from_ : List TableWithJoins) : List Value :=
  (bindTables literal from_ (bindItems literal projection bound).2).2

/-- The WHERE clause of the text. -/
def textSelection (literal : Value → Expr) (bound : List Value) (projection : List SelectItem)
    (from_ : List TableWithJoins) (selection : Option Expr) : Option Expr :=
  (bindOption literal selection (whereValues literal bound projection from_)).1

/-- The GROUP BY of the text. -/
def textGroupBy (literal : Value → Expr) (bound : List Value) (projection : List SelectItem)
    (from_ : List TableWithJoins) (selection : Option Expr) (groupBy : GroupByExpr) : GroupByExpr :=
  (bindGroupBy literal groupBy
    (bindOption literal selection (whereValues literal bound projection from_)).2).1

/-- A SELECT from one plain table, its items without `?`: where there is the
table, it selects plain columns or COUNTs in a way both paths honour. -/
structure SelectAgrees (literal : Value → Expr) (env : QueryEnv) (dbName : Str) (bound : List Value)
    (projection : List SelectItem) (from_ : TableWithJoins) (rest : List TableWithJoins)
    (selection : Option Expr) (groupBy : GroupByExpr) (orderBy : Option OrderByKind)
    (limit offset : Option Expr) : Prop where
  plainTable : ∀ subquery text, from_.relation ≠ .derived subquery text
  noJoins : from_.joins = []
  noParam : (bindItems literal projection bound).1 = projection
  onTable : ∃ selection', resolveSelection env (resolveName dbName from_.relation.toString).1
      (textSelection literal bound projection (from_ :: rest) selection) = .ok selection' ∧
    ∀ t, findTable env.databases (resolveName dbName from_.relation.toString).1
        (resolveName dbName from_.relation.toString).2 [] [] = .ok t →
      PlainAgrees env.now t bound projection selection selection'
          (textGroupBy literal bound projection (from_ :: rest) selection groupBy) orderBy limit offset ∨
        CountAgrees env.now t bound projection selection selection'
          (textGroupBy literal bound projection (from_ :: rest) selection groupBy)

/-- The queries whose every clause both paths honour. A body that is neither a
SELECT nor a set operation is an error on both. -/
def PreparedAgrees (literal : Value → Expr) (env : QueryEnv) (dbName : Str) (bound : List Value) :
    Query → Prop
  | .mk (.select (.mk _ projection (from_ :: rest) selection groupBy _)) orderBy limit offset =>
    SelectAgrees literal env dbName bound projection from_ rest selection groupBy orderBy limit offset
  | .mk (.select (.mk _ _ [] _ _ _)) _ _ _ => False
  | .mk (.setOperation ..) _ _ _ => False
  | _ => True

/-- The text's tree. -/
def boundQuery (literal : Value → Expr) (bound : List Value) (q : Query) : Query :=
  (bindQuery literal q bound).1

theorem boundQuery_eq (bound : List Value) (body : SetExpr) (orderBy : Option OrderByKind)
    (limit offset : Option Expr) :
    ∃ orderBy' limit' offset', boundQuery literal bound (.mk body orderBy limit offset) =
        .mk (bindBody literal body bound).1 orderBy' limit' offset' ∧
      (orderBy = none → orderBy' = none) ∧ (limit = none → limit' = none) ∧
        (offset = none → offset' = none) := by
  refine ⟨_, _, _, by rw [boundQuery, bindQuery]; rfl, ?_, ?_, ?_⟩
  · rintro rfl
    rw [bindOrderBy]
    rfl
  · rintro rfl
    rw [bindOption]
    rfl
  · rintro rfl
    rw [bindOption]
    rfl

theorem boundSelect_eq {bound : List Value} {projection : List SelectItem} {from_ : TableWithJoins}
    (hPlain : ∀ subquery text, from_.relation ≠ .derived subquery text) (hJoins : from_.joins = [])
    (hItems : (bindItems literal projection bound).1 = projection) (distinct : Option Distinct)
    (rest : List TableWithJoins) (selection : Option Expr) (groupBy : GroupByExpr)
    (having : Option Expr) :
    ∃ rest' having', (bindSelect literal
        (.mk distinct projection (from_ :: rest) selection groupBy having) bound).1 =
      .mk distinct projection (from_ :: rest')
        (textSelection literal bound projection (from_ :: rest) selection)
        (textGroupBy literal bound projection (from_ :: rest) selection groupBy) having' := by
  obtain ⟨relation, joins⟩ := from_
  obtain rfl : joins = [] := hJoins
  have hRelation : ∀ own, bindRelation literal relation own = (relation, own) := by
    intro own
    cases relation with
    | derived subquery text => exact absurd rfl (hPlain subquery text)
    | table name text => rw [bindRelation]; rfl
    | other text => rw [bindRelation]; rfl
  have hFirst : ∀ own, (bindTables literal (.mk relation [] :: rest) own).1 =
      .mk relation [] :: (bindTables literal rest own).1 := by
    intro own
    have hTree : (bindTables literal (.mk relation [] :: rest) own).1 =
        .mk (bindRelation literal relation own).1
            (bindJoins literal [] (bindRelation literal relation own).2).1 ::
          (bindTables literal rest (bindJoins literal [] (bindRelation literal relation own).2).2).1 := by
      rw [bindTables]
      rfl
    rw [hTree, hRelation, bindJoins]
    rfl
  have hTree : (bindSelect literal (.mk distinct projection (.mk relation [] :: rest) selection groupBy
        having) bound).1 =
      .mk distinct (bindItems literal projection bound).1
        (bindTables literal (.mk relation [] :: rest) (bindItems literal projection bound).2).1
        (textSelection literal bound projection (.mk relation [] :: rest) selection)
        (textGroupBy literal bound projection (.mk relation [] :: rest) selection groupBy)
        (bindOption literal having (bindGroupBy literal groupBy (bindOption literal selection
          (whereValues literal bound projection (.mk relation [] :: rest))).2).2).1 := by
    rw [bindSelect]
    rfl
  rw [hTree, hItems, hFirst]
  exact ⟨_, _, rfl⟩

/-- The errors of the two lookups show nothing. -/
theorem shown_of_findTable {s : Store} {db table noDb noTable : Str} {other : QueryResult}
    (h : findTable s db table noDb noTable = .error other) : shown other = none := by
  rw [findTable] at h
  split at h
  · cases h; rfl
  · split at h
    · cases h; rfl
    · cases h

theorem shown_selectAgrees {env : QueryEnv} {dbName : Str} {bound : List Value}
    {projection : List SelectItem} {from_ : TableWithJoins} {rest : List TableWithJoins}
    {selection : Option Expr} {groupBy : GroupByExpr} {orderBy : Option OrderByKind}
    {limit offset : Option Expr}
    (h : SelectAgrees literal env dbName bound projection from_ rest selection groupBy orderBy limit
      offset)
    (distinct : Option Distinct) (having : Option Expr) :
    (selectPrepared env dbName (.mk (.select (.mk distinct projection (from_ :: rest) selection
        groupBy having)) orderBy limit offset) bound).map shown =
      (select env dbName (boundQuery literal bound (.mk (.select (.mk distinct projection
        (from_ :: rest) selection groupBy having)) orderBy limit offset))).map shown := by
  obtain ⟨orderBy', limit', offset', hQuery, hOrder, hLimit, hOffset⟩ := boundQuery_eq bound
    (.select (.mk distinct projection (from_ :: rest) selection groupBy having)) orderBy limit offset
  obtain ⟨rest', having', hSelect⟩ := boundSelect_eq h.plainTable h.noJoins h.noParam distinct rest
    selection groupBy having
  obtain ⟨selection', hResolve, hTable⟩ := h.onTable
  have hBody : (bindBody literal
      (.select (.mk distinct projection (from_ :: rest) selection groupBy having)) bound).1 = .select (.mk distinct projection (from_ :: rest')
        (textSelection literal bound projection (from_ :: rest) selection)
        (textGroupBy literal bound projection (from_ :: rest) selection groupBy) having') := by
    rw [bindBody, ← hSelect]
    rfl
  have hSource : derivedSource env dbName from_ = .ok none := by
    obtain ⟨relation, joins⟩ := from_
    cases relation with
    | derived subquery text => exact absurd rfl (h.plainTable subquery text)
    | table name text => rw [derivedSource] <;> first | rfl | nofun
    | other text => rw [derivedSource] <;> first | rfl | nofun
  rcases hName : resolveName dbName from_.relation.toString with ⟨selDb, tableName⟩
  rw [hName] at hResolve hTable
  rw [hQuery, hBody, select, selectBody, selectFrom, hSource, selectPrepared]
  simp only [Query.body, hName, hResolve, h.noJoins, bind, Except.bind, List.isEmpty_nil,
    Bool.not_true, Bool.false_eq_true, if_false]
  cases hFind : findTable env.databases selDb tableName [] [] with
  | error other =>
    have hNone : ∀ noDb noTable, ∃ other',
        findTable env.databases selDb tableName noDb noTable = .error other' := by
      intro noDb noTable
      cases hOther : findTable env.databases selDb tableName noDb noTable with
      | error other' => exact ⟨other', rfl⟩
      | ok t =>
        rw [findTable_ok_iff, hFind] at hOther
        cases hOther
    obtain ⟨e, hErr⟩ := hNone (unknownDatabase selDb) ("Table not found: " ++ tableName)
    obtain ⟨e', hErr'⟩ := hNone (unknownDatabase selDb) (unknownTable (selDb ++ "." ++ tableName))
    rw [hErr, hErr']
    simp only [Except.map, pure, Except.pure, shown_of_findTable hErr, shown_of_findTable hErr']
  | ok t =>
    rw [findTable_ok_iff.2 hFind, findTable_ok_iff.2 hFind]
    rcases hTable t hFind with hPlain | hCount
    · exact shown_plain { hPlain with
        order := hPlain.order.imp_left fun hNone =>
          ⟨hOrder hNone.1, hLimit hNone.2.1, hOffset hNone.2.2⟩ } distinct having'
    · exact shown_count hCount distinct having' orderBy' limit' offset'

/-- Neither a SELECT nor a set operation. -/
def SetExpr.isOther : SetExpr → Bool
  | .select _ => false
  | .setOperation .. => false
  | _ => true

/-- Any other body is refused, here and there. -/
theorem shown_otherBody {env : QueryEnv} {dbName : Str} {bound : List Value} {body : SetExpr}
    {orderBy : Option OrderByKind} {limit offset : Option Expr}
    (hBound : (bindBody literal body bound).1.isOther = true) (hBody : body.isOther = true) :
    (selectPrepared env dbName (.mk body orderBy limit offset) bound).map shown =
      (select env dbName (boundQuery literal bound (.mk body orderBy limit offset))).map shown := by
  obtain ⟨orderBy', limit', offset', hQuery, -⟩ := boundQuery_eq bound body orderBy limit offset
  rw [hQuery, select, selectPrepared]
  have hText : selectBody env dbName orderBy' limit' offset' (bindBody literal body bound).1 =
      pure (.err 1295 "Complex SELECT not yet supported") := by
    cases hOther : (bindBody literal body bound).1 with
    | select s => rw [hOther] at hBound; cases hBound
    | setOperation op quantifier l r => rw [hOther] at hBound; cases hBound
    | query inner => rw [selectBody] <;> simp
    | values rows => rw [selectBody] <;> simp
    | other text => rw [selectBody] <;> simp
  rw [hText]
  cases body with
  | select s => cases hBody
  | setOperation op quantifier l r => cases hBody
  | _ => simp only [Query.body, Except.map, pure, Except.pure, shown_err]

/-- What `select_prepared` shows is what the text's SELECT shows. -/
theorem shown_selectPrepared {env : QueryEnv} {dbName : Str} {bound : List Value} {q : Query}
    (h : PreparedAgrees literal env dbName bound q) :
    (selectPrepared env dbName q bound).map shown =
      (select env dbName (boundQuery literal bound q)).map shown := by
  obtain ⟨body, orderBy, limit, offset⟩ := q
  cases body with
  | select s =>
    obtain ⟨distinct, projection, from_, selection, groupBy, having'⟩ := s
    cases from_ with
    | nil => exact h.elim
    | cons from_ rest => exact shown_selectAgrees h distinct having'
  | setOperation op quantifier l r => exact h.elim
  | query inner => exact shown_otherBody (by rw [bindBody]; rfl) rfl
  | values rows => exact shown_otherBody (by rw [bindBody]; rfl) rfl
  | other text => exact shown_otherBody (by rw [bindBody]; rfl) rfl

-- ---------------------------------------------------------------------------
-- Calls
-- ---------------------------------------------------------------------------

/-- A prepared SELECT is answered by `select_prepared` from the state it finds. -/
theorem exec_executePrepared_query {e : Engine} {sql : Str} {q : Query}
    (hParse : parseAnswer e sql = .ok [.query q]) (now : Nat) (params : List (Option Str))
    (currentDb : Option Str) (userName : Str) :
    ((executePrepared now sql params currentDb userName).exec e).1 =
      match privilegeCheck e.users userName currentDb [.query q] with
      | some refusal => .ok refusal
      | none => selectPrepared (e.env now) (dbOrTest currentDb) q (params.map bindParam) := by
  rw [exec_executePrepared, hParse]
  simp only []
  cases hCheck : privilegeCheck e.users userName currentDb [.query q] with
  | some refusal => rfl
  | none =>
    have hStmt : (execStmtPrepared now (params.map bindParam) currentDb (.query q)).exec
        (e.parsed sql) = (selectPrepared (e.env now) (dbOrTest currentDb) q
          (params.map bindParam), e.parsed sql) := rfl
    show ((execStmtPrepared now (params.map bindParam) currentDb (.query q) >>= fun last =>
      pure last).exec (e.parsed sql)).1 = _
    rw [Prog.exec_bind, hStmt]
    cases selectPrepared (e.env now) (dbOrTest currentDb) q (params.map bindParam) <;> rfl

/-- The text of a SELECT that is parsed is answered by `select`. -/
theorem exec_execute_query {e : Engine} {sql : Str} {q : Query}
    (hShortcut : shortcutOf (toUppercase (trim sql)) = none)
    (hParse : parseAnswer e sql = .ok [.query q]) (now : Nat) (currentDb : Option Str)
    (userName : Str) :
    ((execute now sql currentDb userName).exec e).1 =
      match privilegeCheck e.users userName currentDb [.query q] with
      | some refusal => .ok refusal
      | none => select (e.env now) (dbOrTest currentDb) q := by
  rw [exec_execute_parsed hShortcut, hParse]
  simp only []
  cases hCheck : privilegeCheck e.users userName currentDb [.query q] with
  | some refusal => rfl
  | none =>
    have hStmt : (execStmt now currentDb (.query q)).exec (e.parsed sql) =
        (select (e.env now) (dbOrTest currentDb) q, e.parsed sql) := rfl
    show ((execStmt now currentDb (.query q) >>= fun r => bumpIfOk r >>= fun last =>
      pure last).exec (e.parsed sql)).1 = _
    rw [Prog.exec_bind, hStmt]
    cases select (e.env now) (dbOrTest currentDb) q with
    | error fault => rfl
    | ok r =>
      have hBump : ((bumpIfOk r).exec (e.parsed sql)).1 = .ok r := by
        rw [bumpIfOk]
        split <;> rfl
      show ((bumpIfOk r >>= fun last => pure last).exec (e.parsed sql)).1 = _
      rw [Prog.exec_bind]
      split
      · rename_i last s' hLast
        rw [hLast] at hBump
        exact hBump
      · rename_i fault s' hLast
        rw [hLast] at hBump
        cases hBump

/-- A SELECT asks for no write privilege. -/
theorem privilegeCheck_query (users : HashMap Str DbUser) (userName : Str) (currentDb : Option Str)
    (q q' : Query) :
    privilegeCheck users userName currentDb [.query q] =
      privilegeCheck users userName currentDb [.query q'] := by
  rfl

end PreparedSelect

-- ---------------------------------------------------------------------------
-- A LIMIT that is not read
-- ---------------------------------------------------------------------------

section Limit

set_option maxRecDepth 2000

/-- `a op right`. -/
def aCompared (op : BinaryOperator) (right : SqlValue) : Expr :=
  .binaryOp (.identifier ⟨"a", none⟩) op (.value right)

/-- `SELECT a FROM t WHERE a op right` with a LIMIT. -/
def selectCompared (op : BinaryOperator) (right : SqlValue) (limit : Option Expr) : Query :=
  .mk (.select (.mk none [.unnamedExpr (.identifier ⟨"a", none⟩)] [.mk (.table nameT []) []]
    (some (aCompared op right)) (.expressions []) none)) none limit none

def limitOne : Option Expr := some (.value (.number "1" false))

local instance preparedSelectPlatform : Platform := tablePlatform [
  ("SELECT a FROM t WHERE a = ?", [.query (selectCompared .eq (.placeholder "?") none)]),
  ("SELECT a FROM t WHERE a = 2", [.query (selectCompared .eq (.number "2" false) none)]),
  ("SELECT a FROM t WHERE a > ? LIMIT 1", [.query (selectCompared .gt (.placeholder "?") limitOne)]),
  ("SELECT a FROM t WHERE a > 0 LIMIT 1", [.query (selectCompared .gt (.number "0" false) limitOne)])]

/-- The query has at most one `?`: of two values, one is left over. -/
def Query.oneParam (q : Query) : Prop := ∀ v v', (bindQuery paramLiteral q [v, v']).2 ≠ []

end Limit

end RunAlexDb
