import Mathlib.Data.List.Perm.Basic
import RunAlexDb.Query.ColumnScan

/-!
# KeyLookup — the primary-key index and the WHERE clause

SELECT, UPDATE and DELETE take `WHERE pk = literal` to the index, which holds
the text of the key; the WHERE clause compares the key with the literal as
values.

Main result: `keyLookup_iff`, when the three of them work on the rows for which
the condition holds.
-/

set_option linter.unusedSectionVars false

namespace RunAlexDb

open Text Platform

section KeyLookup

variable [Platform]

-- ---------------------------------------------------------------------------
-- Rows with a key
-- ---------------------------------------------------------------------------

/-- The row with a key, in a list where keys are unique. -/
theorem filter_eq_one {α β : Type} [DecidableEq β] {f : α → β} {l : List α} (hUnique : (l.map f).Nodup)
    {x : α} (hMem : x ∈ l) : l.filter (fun y => f y = f x) = [x] := by
  induction l with
  | nil => cases hMem
  | cons y l ih =>
    obtain ⟨hHead, hTail⟩ := List.nodup_cons.1 hUnique
    rcases List.mem_cons.1 hMem with rfl | hIn
    · have hNone : l.filter (fun y => f y = f x) = [] := by
        refine List.filter_eq_nil_iff.2 fun z hz => ?_
        rw [decide_eq_true_eq]
        intro hEq
        exact hHead (by rw [← hEq]; exact List.mem_map_of_mem hz)
      rw [List.filter_cons, if_pos (by simp), hNone]
    · have hNe : f y ≠ f x := fun hEq => hHead (by rw [hEq]; exact List.mem_map_of_mem hIn)
      rw [List.filter_cons, if_neg (by simpa using hNe), ih hTail hIn]

variable {t : Table} {p : Nat}

/-- **The index finds the rows with the key.** -/
theorem pkRow_eq_filter (hIndex : IndexExact t p) (hUnique : KeysUnique t p) (key : Str) :
    (pkRow t key).toList = t.rows.filter fun r => rowPkKey r p = key := by
  rw [pkRow]
  cases hGet : t.pkIndex.get key with
  | none =>
    refine (List.filter_eq_nil_iff.2 fun r hr => ?_).symm
    rw [decide_eq_true_eq]
    rintro rfl
    have hSome := hIndex.indexed r hr
    rw [hGet] at hSome
    cases hSome
  | some i =>
    obtain ⟨r, hRow, rfl⟩ := hIndex.entry key i hGet
    rw [Option.bind_some, hRow, filter_eq_one hUnique (List.mem_of_getElem? hRow)]
    rfl

/-- The key of a row is the text of its cell. -/
theorem rowPkKey_eq (r : Row) (p : Nat) : rowPkKey r p = (r[p]?.getD .null).toDisplay.getD [] := by
  rw [rowPkKey]
  rcases r[p]? with _ | _ | _ | _ | _ | _ <;> rfl

-- ---------------------------------------------------------------------------
-- Conditions the index serves
-- ---------------------------------------------------------------------------

/-- The key a literal stands for. -/
def litKey : SqlValue → Option Str
  | .number n _ => some n
  | .singleQuotedString s => some s
  | _ => none

/-- `column = literal` or `literal = column`. -/
structure KeyEq where
  column : Expr
  lit : SqlValue
  columnFirst : Bool
  key : Str
  isColumn : column.isColumn = true
  key_eq : litKey lit = some key

namespace KeyEq

def expr (k : KeyEq) : Expr :=
  if k.columnFirst then .binaryOp k.column .eq (.value k.lit) else .binaryOp (.value k.lit) .eq k.column

/-- The literal as the evaluator reads it. -/
def value (k : KeyEq) : Value := exprToValue (.value k.lit)

/-- The comparison of a cell with the literal. -/
def holds (k : KeyEq) (cell : Value) : Bool :=
  if k.columnFirst then valuesEq cell k.value else valuesEq k.value cell

/-- The text of a cell is the key exactly when the comparison holds: for NULL
when the key is not empty, for an integer unless the literal is the same
integer in another spelling, for anything when the literal is a text. -/
def reads (k : KeyEq) (cell : Value) : Prop :=
  match k.value, cell with
  | _, .null => k.key ≠ []
  | .text _, _ => True
  | .int target, .int i => i = target → k.key = i64ToString target
  | _, v => (v.toDisplay.getD [] = k.key ↔ k.holds v = true)

/-- A literal that reads as a text is its key. -/
theorem text_value {k : KeyEq} {s : Str} (h : k.value = .text s) : s = k.key := by
  have hKey := k.key_eq
  rw [value] at h
  cases hLit : k.lit with
  | number n long =>
    rw [hLit, exprToValue, numberToValue] at h
    rw [hLit, litKey, Option.some.injEq] at hKey
    rw [← hKey]
    split at h
    · cases h
    · split at h <;> cases h
      rfl
  | singleQuotedString s =>
    rw [hLit, exprToValue, Value.text.injEq] at h
    rw [hLit, litKey, Option.some.injEq] at hKey
    rw [← h, hKey]
  | _ => rw [hLit] at hKey; cases hKey

/-- A literal that reads as an integer is a spelling of it. -/
theorem int_value {k : KeyEq} {target : Int64} (h : k.value = .int target) :
    parseI64 k.key = some target := by
  have hKey := k.key_eq
  rw [value] at h
  cases hLit : k.lit with
  | number n long =>
    rw [hLit, exprToValue, numberToValue] at h
    rw [hLit, litKey, Option.some.injEq] at hKey
    rw [← hKey]
    split at h
    · rename_i i hParse
      rw [hParse, Value.int.inj h]
    · split at h <;> cases h
  | singleQuotedString s => rw [hLit, exprToValue] at h; cases h
  | _ => rw [hLit] at hKey; cases hKey

theorem value_ne_null (k : KeyEq) : k.value ≠ .null := by
  have hKey := k.key_eq
  rw [value]
  cases hLit : k.lit with
  | number n long =>
    rw [exprToValue, numberToValue]
    split
    · intro h; cases h
    · split <;> intro h <;> cases h
  | singleQuotedString s => rw [exprToValue]; intro h; cases h
  | _ => rw [hLit] at hKey; cases hKey

theorem holds_text {k : KeyEq} {s : Str} (h : k.value = .text s) {cell : Value} (hNull : cell ≠ .null) :
    k.holds cell = true ↔ cell.toDisplay.getD [] = s := by
  rw [holds, h]
  split
  · exact valuesEq_text_right hNull s
  · rw [valuesEq_text_left hNull]
    exact eq_comm

theorem holds_null (k : KeyEq) : k.holds .null = false := by
  rw [holds]
  split
  · rfl
  · cases h : k.value with
    | null => exact absurd h k.value_ne_null
    | _ => rfl

theorem holds_int {k : KeyEq} {target : Int64} (h : k.value = .int target) (i : Int64) :
    k.holds (.int i) = true ↔ i = target := by
  rw [holds, h, valuesEq_int, valuesEq_int]
  split
  · exact beq_iff_eq
  · rw [beq_iff_eq]
    exact eq_comm

/-- **Keys and values.** -/
theorem reads_iff (k : KeyEq) (cell : Value) :
    (cell.toDisplay.getD [] = k.key ↔ k.holds cell = true) ↔ k.reads cell := by
  have hText : ∀ s, k.value = .text s → cell ≠ .null →
      (cell.toDisplay.getD [] = k.key ↔ k.holds cell = true) := by
    intro s hValue hNull
    rw [holds_text hValue hNull, text_value hValue]
  have hEmpty : ([] = k.key ↔ k.holds .null = true) ↔ k.key ≠ [] := by
    rw [holds_null]
    simp [eq_comm]
  cases cell with
  | null =>
    simp only [reads]
    exact hEmpty
  | int i =>
    cases hValue : k.value with
    | text s =>
      simp only [reads, hValue]
      exact iff_true_intro (hText s hValue (by intro h; cases h))
    | int target =>
      have hParse := int_value hValue
      simp only [reads, hValue]
      rw [holds_int hValue, Value.toDisplay, Option.getD_some]
      constructor
      · rintro h rfl
        exact (h.2 rfl).symm
      · intro h
        constructor
        · intro hKey
          rw [← hKey, parseI64_i64ToString] at hParse
          exact Option.some.inj hParse
        · rintro rfl
          exact (h rfl).symm
    | null => exact absurd hValue k.value_ne_null
    | float f => simp only [reads, hValue]
    | bytes b => simp only [reads, hValue]
  | text x =>
    cases hValue : k.value with
    | text s =>
      simp only [reads, hValue]
      exact iff_true_intro (hText s hValue (by intro h; cases h))
    | _ => simp only [reads, hValue]
  | float f =>
    cases hValue : k.value with
    | text s =>
      simp only [reads, hValue]
      exact iff_true_intro (hText s hValue (by intro h; cases h))
    | _ => simp only [reads, hValue]
  | bytes b =>
    cases hValue : k.value with
    | text s =>
      simp only [reads, hValue]
      exact iff_true_intro (hText s hValue (by intro h; cases h))
    | _ => simp only [reads, hValue]

/-- **What the index serves**: the column named like the key column. -/
theorem of_extractPkEq {name : Str} {w : Expr} {key : Str} (h : extractPkEq name w = some key) :
    ∃ k : KeyEq, w = k.expr ∧ k.key = key ∧
      ∃ n, k.column.columnName? = some n ∧ eqIgnoreAsciiCase n name = true := by
  simp only [extractPkEq, Option.bind_eq_bind, Option.bind_eq_some_iff] at h
  obtain ⟨⟨col, val⟩, hSides, n, hName, h⟩ := h
  split at h
  · cases h
  rename_i hNamed
  have hLit : ∃ lit, val = .value lit ∧ litKey lit = some key := by
    cases val with
    | value lit =>
      refine ⟨lit, rfl, ?_⟩
      cases lit with
      | number n long => exact h
      | singleQuotedString s => exact h
      | _ => cases h
    | _ => cases h
  obtain ⟨lit, rfl, hKey⟩ := hLit
  have hColumn : col.isColumn = true := by
    cases col with
    | identifier id => rfl
    | compoundIdentifier parts => rfl
    | _ => cases hName
  cases w with
  | binaryOp left op right =>
    cases op with
    | eq =>
      rw [eqSides] at hSides
      split at hSides <;> cases hSides
      · exact ⟨⟨_, lit, true, key, hColumn, hKey⟩, rfl, rfl, n, hName, by simpa using hNamed⟩
      · exact ⟨⟨_, lit, false, key, hColumn, hKey⟩, rfl, rfl, n, hName, by simpa using hNamed⟩
    | _ => cases hSides
  | _ => cases hSides

/-- The condition on a row whose column is read from position `q`. -/
theorem evalWhere_eq (k : KeyEq) {cols : List Column} {q : Nat}
    (hRead : ∀ now (row : Row), evalRowExpr now row cols k.column = .ok (row[q]?.getD .null))
    (now : Nat) (row : Row) :
    evalWhere now row cols k.expr = .ok (k.holds (row[q]?.getD .null)) := by
  rw [expr, holds]
  split
  · rw [evalWhere, hRead, evalRowExpr]
    · rfl
    · intro h; cases h
    · intro h; cases h
  · rw [evalWhere, hRead, evalRowExpr]
    · rfl
    · intro h; cases h
    · intro h; cases h

theorem expr_inj {k k' : KeyEq} (h : k.expr = k'.expr) : k = k' := by
  have hKey := k.key_eq
  have hKey' := k'.key_eq
  have hCol := k.isColumn
  have hCol' := k'.isColumn
  obtain ⟨column, lit, first, key, _, _⟩ := k
  obtain ⟨column', lit', first', key', _, _⟩ := k'
  simp only [expr] at h hKey hKey' hCol hCol'
  have hParts : column = column' ∧ lit = lit' ∧ first = first' := by
    cases first <;> cases first' <;> simp only [if_true, if_false, Bool.false_eq_true] at h <;>
      injection h with hLeft _ hRight
    · injection hLeft with hLit
      exact ⟨hRight, hLit, rfl⟩
    · subst hRight
      cases hCol
    · subst hLeft
      cases hCol
    · injection hRight with hLit
      exact ⟨hLeft, hLit, rfl⟩
  obtain ⟨rfl, rfl, rfl⟩ := hParts
  obtain rfl : key = key' := Option.some.inj (hKey.symm.trans hKey')
  rfl

/-- Every row has the key exactly when the condition holds for it. Should a
column have the whole dotted name of the key side, or the name of the key column
before it, the condition reads that one. -/
def sound (k : KeyEq) (t : Table) (p : Nat) : Prop :=
  ∀ q, k.column.readColumn t.columns = some q →
    if q = p then ∀ r ∈ t.rows, k.reads (r[p]?.getD .null)
    else ∀ r ∈ t.rows, (rowPkKey r p = k.key ↔ k.holds (r[q]?.getD .null) = true)

theorem sound_iff (k : KeyEq) {t : Table} {p q : Nat} (hPos : k.column.readColumn t.columns = some q) :
    k.sound t p ↔ ∀ r ∈ t.rows, (rowPkKey r p = k.key ↔ k.holds (r[q]?.getD .null) = true) := by
  have hSame : ∀ r : Row, (rowPkKey r p = k.key ↔ k.holds (r[p]?.getD .null) = true) ↔
      k.reads (r[p]?.getD .null) := by
    intro r
    rw [rowPkKey_eq]
    exact k.reads_iff _
  simp only [sound, hPos, Option.some.injEq, forall_eq']
  split
  · rename_i hEq
    subst hEq
    exact forall_congr' fun r => forall_congr' fun _ => (hSame r).symm
  · exact Iff.rfl

end KeyEq

-- ---------------------------------------------------------------------------
-- SELECT
-- ---------------------------------------------------------------------------

/-- The scan path of a SELECT: WHERE, ORDER BY, OFFSET, LIMIT. -/
def selectScan (now : Nat) (t : Table) (projection : List SelectItem) (w : Expr)
    (orderBy : Option OrderByKind) (limit offset : Option Expr) : Rust QueryResult := do
  let proj := projCols t.columns projection
  let rows ← filterRows now t.columns (some w) t.rows
  let sorted := (sortSource t.columns orderBy rows).map (projectText proj)
  return .rows (proj.map Prod.fst)
    (applyLimit (literalOf limit) (sorted.drop ((literalOf offset).getD 0)))

/-- At most one row has nothing to sort. -/
theorem sortSource_short (cols : List Column) (orderBy : Option OrderByKind) {rows : List Row}
    (h : rows.length ≤ 1) : sortSource cols orderBy rows = rows := by
  have hSort : ∀ cmp : Row → Row → Ordering, sortBy cmp rows = rows := by
    intro cmp
    rcases rows with _ | ⟨r, _ | ⟨r', rest⟩⟩
    · rfl
    · rfl
    · simp at h
  unfold sortSource
  split
  · rename_i exprs
    generalize exprs.reverse = keys
    induction keys with
    | nil => rfl
    | cons oe keys ih =>
      rw [List.foldl_cons]
      split
      · rw [hSort, ih]
      · exact ih
  · rfl

/-- The key a table's index is asked for, when the condition is one for it. -/
def lookupKey (t : Table) (w : Expr) : Rust (Option Str) :=
  match t.pkColIdx with
  | none => .ok none
  | some p => (orPanic t.columns[p]?).map fun c => extractPkEq c.name w

theorem lookupKey_eq {t : Table} {p : Nat} {c : Column} (hPk : t.pkColIdx = some p)
    (hCol : t.columns[p]? = some c) (w : Expr) : lookupKey t w = .ok (extractPkEq c.name w) := by
  simp only [lookupKey, hPk, hCol]
  rfl

/-- The name of the key column, read before anything else. -/
theorem selectPlain_lookup (now : Nat) (t : Table) (distinct : Option Distinct)
    (projection : List SelectItem) (w : Expr) (orderBy : Option OrderByKind)
    (limit offset : Option Expr) :
    selectPlain now t distinct projection (some w) orderBy limit offset =
      (lookupKey t w).bind fun pkKey => match pkKey with
        | some key => .ok (.rows ((projCols t.columns projection).map Prod.fst)
            ((pkRow t key).toList.map (projectText (projCols t.columns projection))))
        | none => (selectedRows now t (some w)).map fun rows =>
          if orderBy.isNone && limit.isNone && offset.isNone then
            .valueRows ((projCols t.columns projection).map Prod.fst)
              (rows.map fun row => (projCols t.columns projection).map fun p => row[p.2]?.getD .null)
          else
            let cut := applyLimit (literalOf limit) (((sortSource t.columns orderBy rows).map
              (projectText (projCols t.columns projection))).drop ((literalOf offset).getD 0))
            .rows ((projCols t.columns projection).map Prod.fst)
              (if distinct = some .distinct then cut.reverse.dedup.reverse else cut) := by
  have hScan : ∀ (rows : Rust (List Row)) (c : Bool) (f g : List Row → QueryResult),
      (rows.bind fun rows => if c = true then Except.ok (f rows) else Except.ok (g rows)) =
        rows.map fun rows => if c = true then f rows else g rows := by
    intro rows c f g
    cases rows <;> cases c <;> rfl
  simp only [selectPlain, lookupKey, bind, pure, Except.pure]
  cases t.pkColIdx with
  | none => exact hScan ..
  | some p =>
    simp only
    cases orPanic t.columns[p]? with
    | error fault => rfl
    | ok c =>
      simp only [Except.bind, Except.map]
      cases extractPkEq c.name w with
      | some key => rfl
      | none => exact hScan ..

theorem selectPlain_key {now : Nat} {t : Table} {w : Expr} {key : Str}
    (hKey : lookupKey t w = .ok (some key)) (distinct : Option Distinct)
    (projection : List SelectItem) (orderBy : Option OrderByKind) (limit offset : Option Expr) :
    selectPlain now t distinct projection (some w) orderBy limit offset =
      .ok (.rows ((projCols t.columns projection).map Prod.fst)
        ((pkRow t key).toList.map (projectText (projCols t.columns projection)))) := by
  rw [selectPlain_lookup, hKey]
  rfl

theorem selectPlain_error {now : Nat} {t : Table} {w : Expr} {fault : Fault}
    (hKey : lookupKey t w = .error fault) (distinct : Option Distinct)
    (projection : List SelectItem) (orderBy : Option OrderByKind) (limit offset : Option Expr) :
    selectPlain now t distinct projection (some w) orderBy limit offset = .error fault := by
  rw [selectPlain_lookup, hKey]
  rfl

/-- Without a key to look up, SELECT sorts and cuts the rows it selects. -/
theorem selectPlain_scan {now : Nat} {t : Table} {w : Expr} (hKey : lookupKey t w = .ok none)
    (projection : List SelectItem) (orderBy : Option OrderByKind) (limit offset : Option Expr) :
    (selectPlain now t none projection (some w) orderBy limit offset).map asTextRows =
      (selectedRows now t (some w)).map fun rows =>
        .ok ((projCols t.columns projection).map Prod.fst, applyLimit (literalOf limit)
          (((sortSource t.columns orderBy rows).map (projectText (projCols t.columns projection))).drop
            ((literalOf offset).getD 0))) := by
  rw [selectPlain_lookup, hKey]
  simp only [Except.bind]
  cases selectedRows now t (some w) with
  | error fault => rfl
  | ok rows =>
    by_cases hPlain : (orderBy.isNone && limit.isNone && offset.isNone) = true
    · simp only [Except.map, hPlain, if_true]
      simp only [Bool.and_eq_true, Option.isNone_iff_eq_none] at hPlain
      obtain ⟨⟨rfl, rfl⟩, rfl⟩ := hPlain
      have hCell : ∀ (proj : List (Str × Nat)) (row : Row),
          displayRow (proj.map fun p => row[p.2]?.getD .null) = projectText proj row := by
        intro proj row
        rw [displayRow, projectText, List.map_map]
        refine List.map_congr_left fun x _ => ?_
        show (row[x.2]?.getD .null).toDisplay = _
        cases row[x.2]? <;> rfl
      simp only [asTextRows, List.map_map, sortSource, literalOf, applyLimit, Option.getD_none,
        List.drop_zero, Option.elim_none, Function.comp_def, hCell]
    · simp only [Except.map, hPlain]
      rfl

/-- Without an index and a store, SELECT takes the scan path. -/
theorem selectPlain_unindexed {now : Nat} {t : Table} {w : Expr} (hPk : t.pkColIdx = none)
    (hStore : trySimdScan t w = none) (projection : List SelectItem) (orderBy : Option OrderByKind)
    (limit offset : Option Expr) :
    (selectPlain now t none projection (some w) orderBy limit offset).map asTextRows =
      (selectScan now t projection w orderBy limit offset).map asTextRows := by
  have hKey : lookupKey t w = .ok none := by rw [lookupKey, hPk]
  rw [selectPlain_scan hKey, selectScan, selectedRows, Option.bind_some, hStore]
  cases filterRows now t.columns (some w) t.rows <;> rfl

/-- LIMIT and OFFSET let a single row through. -/
def keepsFirst (limit offset : Option Expr) : Prop :=
  (literalOf offset).getD 0 = 0 ∧ literalOf limit ≠ some 0

theorem keepsFirst_iff {α : Type} (limit offset : Option Expr) (x : α) :
    applyLimit (literalOf limit) ([x].drop ((literalOf offset).getD 0)) = [x] ↔
      keepsFirst limit offset := by
  rw [keepsFirst]
  cases (literalOf offset).getD 0 with
  | succ n => cases literalOf limit <;> simp [applyLimit]
  | zero =>
    cases literalOf limit with
    | none => simp [applyLimit]
    | some n => cases n <;> simp [applyLimit]

theorem applyLimit_map {α β : Type} (limit : Option Nat) (f : α → β) (l : List α) :
    applyLimit limit (l.map f) = (applyLimit limit l).map f := by
  cases limit with
  | none => rfl
  | some n => exact List.map_take.symm

theorem applyLimit_nil {α : Type} (limit : Option Nat) (n : Nat) :
    applyLimit limit (([] : List α).drop n) = [] := by
  cases limit <;> simp [applyLimit]

-- ---------------------------------------------------------------------------
-- UPDATE
-- ---------------------------------------------------------------------------

/-- What an UPDATE through the index does to the rows, when its row is there:
the assignments on that row. -/
theorem exec_assignAt {t : Table} {ri : Nat} {r : Row} (hRow : t.rows[ri]? = some r)
    (value : Row → Expr → Rust Value) (asgn : Assignment) :
    ((assignAt ri value asgn).exec t).1 = ((assignRow t.columns value asgn).exec r).1 ∧
      ((assignAt ri value asgn).exec t).2.columns = t.columns ∧
      ((assignAt ri value asgn).exec t).2.rows =
        t.rows.set ri ((assignRow t.columns value asgn).exec r).2 := by
  have hLookup : t.rows.getD ri [] = r := by rw [List.getD_eq_getElem?_getD, hRow]; rfl
  have hSame : t.rows.set ri r = t.rows := by
    obtain ⟨hLt, rfl⟩ := List.getElem?_eq_some_iff.1 hRow
    exact List.set_getElem_self hLt
  have hStores : ∀ idx v, (t.writeStores ri idx v).rows = t.rows ∧
      (t.writeStores ri idx v).columns = t.columns := by
    intro idx v
    cases v <;> exact ⟨rfl, rfl⟩
  simp only [assignAt, assignRow, Prog.exec_get_bind]
  cases columnPosition t.columns asgn.target.toString with
  | none => exact ⟨rfl, rfl, hSame.symm⟩
  | some idx =>
    simp only [hLookup, Prog.exec_bind, Prog.exec_ofExcept, Prog.exec_get]
    cases value r asgn.value with
    | error fault => exact ⟨rfl, rfl, hSame.symm⟩
    | ok v =>
      have hSt := hStores idx v
      simp only [Prog.exec_modify, onRow, Prog.zoom, Prog.exec_mk, hSt.1, hSt.2, hLookup]
      exact ⟨trivial, trivial, trivial⟩

theorem exec_assignAll {t : Table} {ri : Nat} {r : Row} (hRow : t.rows[ri]? = some r)
    (value : Row → Expr → Rust Value) (assignments : List Assignment) :
    ((Prog.forEach (assignAt ri value) assignments).exec t).1 =
        ((Prog.forEach (assignRow t.columns value) assignments).exec r).1 ∧
      ((Prog.forEach (assignAt ri value) assignments).exec t).2.rows =
        t.rows.set ri ((Prog.forEach (assignRow t.columns value) assignments).exec r).2 := by
  induction assignments generalizing t r with
  | nil =>
    obtain ⟨hLt, rfl⟩ := List.getElem?_eq_some_iff.1 hRow
    exact ⟨rfl, (List.set_getElem_self hLt).symm⟩
  | cons asgn rest ih =>
    obtain ⟨hOut, hCols, hRows⟩ := exec_assignAt hRow value asgn
    rw [Prog.forEach, Prog.forEach, Prog.exec_bind, Prog.exec_bind]
    rcases hAt : (assignAt ri value asgn).exec t with ⟨out, t'⟩
    rcases hIn : (assignRow t.columns value asgn).exec r with ⟨out', r'⟩
    rw [hAt] at hOut hCols hRows
    rw [hIn] at hOut hRows
    obtain rfl : out = out' := hOut
    cases out with
    | error fault => exact ⟨rfl, hRows⟩
    | ok _ =>
      have hRow' : t'.rows[ri]? = some r' := by
        rw [hRows, List.getElem?_set_self (List.getElem?_eq_some_iff.1 hRow).1]
      obtain ⟨hOut', hRows'⟩ := ih hRow'
      simp only at hCols
      rw [hCols] at hOut' hRows'
      refine ⟨hOut', hRows'.trans ?_⟩
      rw [hRows, List.set_set]

/-- The condition of an UPDATE decided by `b`, on rows of which one meets it. -/
theorem exec_updateScan_one {t : Table} {cond : Row → Rust Bool} {b : Row → Bool}
    (hCond : ∀ r ∈ t.rows, cond r = .ok (b r)) {ri : Nat} {r : Row} (hRow : t.rows[ri]? = some r)
    (hOne : ∀ j r', t.rows[j]? = some r' → (b r' = true ↔ j = ri))
    (value : Row → Expr → Rust Value) (assignments : List Assignment) :
    ((updateScan cond value assignments).exec t).1 =
        ((Prog.forEach (assignRow t.columns value) assignments).exec r).1.map (fun _ => .ok 1 0) ∧
      ((updateScan cond value assignments).exec t).2.rows =
        t.rows.set ri ((Prog.forEach (assignRow t.columns value) assignments).exec r).2 := by
  have hQuiet : ∀ j r', t.rows[j]? = some r' → j ≠ ri →
      (updateRow t.columns cond value assignments).exec r' = (.ok 0, r') := by
    intro j r' hGet hNe
    have hFalse : b r' = false := by
      rw [← Bool.not_eq_true, hOne j r' hGet]
      exact hNe
    rw [updateRow, Prog.exec_get_bind, hCond r' (List.mem_of_getElem? hGet), hFalse]
    rfl
  have hBody : (updateRow t.columns cond value assignments).exec r =
      (((Prog.forEach (assignRow t.columns value) assignments).exec r).1.map (fun _ => 1),
        ((Prog.forEach (assignRow t.columns value) assignments).exec r).2) := by
    rw [updateRow, Prog.exec_get_bind, hCond r (List.mem_of_getElem? hRow), (hOne ri r hRow).2 rfl,
      Prog.exec_bind, Prog.exec_ofExcept]
    simp only [if_true]
    rw [Prog.exec_bind]
    rcases (Prog.forEach (assignRow t.columns value) assignments).exec r with ⟨_ | _, r'⟩ <;> rfl
  have hScan := Prog.iterMut_one hRow hQuiet
  rw [hBody] at hScan
  rw [updateScan, Prog.exec_get_bind, Prog.exec_bind, onRows, Prog.zoom, Prog.exec_mk, hScan]
  rcases (Prog.forEach (assignRow t.columns value) assignments).exec r with ⟨_ | _, r'⟩ <;>
    exact ⟨rfl, rfl⟩

theorem exec_updateScan_none {t : Table} {cond : Row → Rust Bool}
    (hCond : ∀ r ∈ t.rows, cond r = .ok false) (value : Row → Expr → Rust Value)
    (assignments : List Assignment) :
    (updateScan cond value assignments).exec t = (.ok (.ok 0 0), t) := by
  have hQuiet : ∀ r ∈ t.rows, (updateRow t.columns cond value assignments).exec r = (.ok 0, r) := by
    intro r hr
    rw [updateRow, Prog.exec_get_bind, hCond r hr]
    rfl
  rw [updateScan, Prog.exec_get_bind, Prog.exec_bind, onRows, Prog.zoom, Prog.exec_mk,
    Prog.iterMut_quiet hQuiet]
  rfl

theorem exec_pkCondition (t : Table) (w : Expr) :
    (pkCondition (some w) extractPkEq).exec t = (lookupKey t w, t) := by
  simp only [pkCondition, lookupKey, Prog.exec_get_bind]
  cases t.pkColIdx with
  | none => rfl
  | some p =>
    simp only [Prog.exec_bind, Prog.exec_ofExcept]
    cases orPanic t.columns[p]? <;> rfl

-- ---------------------------------------------------------------------------
-- DELETE
-- ---------------------------------------------------------------------------

/-- The last element takes the place of the removed one; past the rest there is
no place to take. -/
theorem swapRemove_append_one {α : Type} (init : List α) (last : α) {i : Nat} (h : i ≤ init.length) :
    swapRemove (init ++ [last]) i = init.set i last := by
  rw [swapRemove, List.getLast?_concat]
  simp only
  rw [if_pos (by simp; omega)]
  rcases Nat.lt_or_ge i init.length with hIn | hEnd
  · rw [List.set_append_left _ _ hIn, List.dropLast_concat]
  · obtain rfl : i = init.length := by omega
    rw [List.set_append_right _ _ hEnd, Nat.sub_self, List.set_cons_zero, List.dropLast_concat,
      List.set_eq_of_length_le (le_refl _)]

theorem swapRemove_perm {α : Type} {l : List α} {i : Nat} {x : α} (hGet : l[i]? = some x) :
    (x :: swapRemove l i).Perm l := by
  rcases List.eq_nil_or_concat' l with rfl | ⟨init, last, rfl⟩
  · cases hGet
  · obtain ⟨hLt, hx⟩ := List.getElem?_eq_some_iff.1 hGet
    have hLe : i ≤ init.length := by simpa [Nat.lt_succ_iff] using hLt
    rw [swapRemove_append_one init last hLe]
    rcases Nat.lt_or_ge i init.length with hIn | hEnd
    · rw [List.getElem_append_left hIn] at hx
      subst hx
      have hSet := (List.set_perm_cons_eraseIdx hIn last).cons init[i]
      have hBack := (List.getElem_cons_eraseIdx_perm hIn).cons last
      exact hSet.trans ((List.Perm.swap ..).trans
        (hBack.trans (List.perm_append_singleton last init).symm))
    · obtain rfl : i = init.length := by omega
      rw [List.getElem_append_right hEnd] at hx
      have hLast : x = last := by rw [← hx]; simp
      rw [List.set_eq_of_length_le (le_refl _), hLast]
      exact (List.perm_append_singleton last init).symm

/-- DELETE through the index leaves the rows without the key. -/
theorem deleteKey_perm {t : Table} {p : Nat} (hIndex : IndexExact t p) (hUnique : KeysUnique t p)
    (key : Str) : (t.deleteKey p key).rows.Perm (t.rows.filter fun r => rowPkKey r p ≠ key) := by
  cases hGet : t.pkIndex.get key with
  | none =>
    have hAll : (t.rows.filter fun r => rowPkKey r p ≠ key) = t.rows := by
      refine List.filter_eq_self.2 fun r hr => ?_
      rw [decide_eq_true_eq]
      rintro rfl
      have hSome := hIndex.indexed r hr
      rw [hGet] at hSome
      cases hSome
    rw [Table.deleteKey, hGet, hAll]
  | some i =>
    obtain ⟨r, hRow, rfl⟩ := hIndex.entry key i hGet
    have hPerm := swapRemove_perm hRow
    have hNodup : ((r :: swapRemove t.rows i).map fun r => rowPkKey r p).Nodup :=
      (hPerm.map _).nodup_iff.2 hUnique
    have hRest : (swapRemove t.rows i).filter (fun x => rowPkKey x p ≠ rowPkKey r p) =
        swapRemove t.rows i := by
      refine List.filter_eq_self.2 fun x hx => ?_
      rw [decide_eq_true_eq]
      intro hEq
      refine (List.nodup_cons.1 hNodup).1 ?_
      show rowPkKey r p ∈ _
      rw [← hEq]
      exact List.mem_map_of_mem hx
    have hFilter := hPerm.filter fun x => rowPkKey x p ≠ rowPkKey r p
    rw [List.filter_cons, if_neg (by simp), hRest] at hFilter
    rw [Table.deleteKey, hGet]
    simp only
    rw [if_pos (List.getElem?_eq_some_iff.1 hRow).1]
    exact hFilter

-- ---------------------------------------------------------------------------
-- When the index and the condition agree
-- ---------------------------------------------------------------------------

/-- The fast paths for a condition do what the condition says: SELECT gives the
rows of the scan path, UPDATE assigns as the scan over the condition does, and
DELETE leaves the rows for which the condition fails. -/
structure KeyLookupAgrees (now : Nat) (t : Table) (w : Expr) (orderBy : Option OrderByKind)
    (limit offset : Option Expr) : Prop where
  select : ∀ distinct projection,
    selectPlain now t distinct projection (some w) orderBy limit offset =
      selectScan now t projection w orderBy limit offset
  update : ∀ assignments,
    ((updateTable now assignments (some w)).exec t).1 =
        ((updateScan (fun r => evalWhere now r t.columns w)
          (fun r e => evalRowExpr now r t.columns e) assignments).exec t).1 ∧
      ((updateTable now assignments (some w)).exec t).2.rows =
        ((updateScan (fun r => evalWhere now r t.columns w)
          (fun r e => evalRowExpr now r t.columns e) assignments).exec t).2.rows
  delete : ((deleteTable now (some w)).exec t).2.rows.Perm
    (t.rows.filter fun r => ¬ evalWhere now r t.columns w = .ok true)

variable {t : Table} {p : Nat}

/-- UPDATE when the key names the rows for which the condition holds. -/
theorem update_agrees {now : Nat} {c : Column} {w : Expr} {key : Str}
    (hPk : t.pkColIdx = some p) (hCol : t.columns[p]? = some c) (hIndex : IndexExact t p)
    (hUnique : KeysUnique t p) (hKey : extractPkEq c.name w = some key)
    (hRows : ∀ r ∈ t.rows, evalWhere now r t.columns w = .ok (decide (rowPkKey r p = key)))
    (assignments : List Assignment) :
    ((updateTable now assignments (some w)).exec t).1 =
        ((updateScan (fun r => evalWhere now r t.columns w)
          (fun r e => evalRowExpr now r t.columns e) assignments).exec t).1 ∧
      ((updateTable now assignments (some w)).exec t).2.rows =
        ((updateScan (fun r => evalWhere now r t.columns w)
          (fun r e => evalRowExpr now r t.columns e) assignments).exec t).2.rows := by
  have hFast : (updateTable now assignments (some w)).exec t =
      (updateKey key (fun r e => evalRowExpr now r t.columns e) assignments).exec t := by
    rw [updateTable, Prog.exec_get_bind]
    simp only
    rw [Prog.exec_bind, exec_pkCondition, lookupKey_eq hPk hCol, hKey]
  rw [hFast, updateKey, Prog.exec_get_bind]
  cases hGet : t.pkIndex.get key with
  | none =>
    have hNone : ∀ r ∈ t.rows, evalWhere now r t.columns w = .ok false := by
      intro r hr
      rw [hRows r hr, decide_eq_false]
      rintro rfl
      have hSome := hIndex.indexed r hr
      rw [hGet] at hSome
      cases hSome
    rw [exec_updateScan_none hNone]
    exact ⟨rfl, rfl⟩
  | some i =>
    obtain ⟨r, hRow, rfl⟩ := hIndex.entry key i hGet
    have hLt := (List.getElem?_eq_some_iff.1 hRow).1
    have hOne : ∀ j r', t.rows[j]? = some r' →
        (decide (rowPkKey r' p = rowPkKey r p) = true ↔ j = i) := by
      intro j r' hGet'
      rw [decide_eq_true_eq]
      constructor
      · intro hEq
        have hMap : (t.rows.map fun r => rowPkKey r p)[j]? = (t.rows.map fun r => rowPkKey r p)[i]? := by
          rw [List.getElem?_map, List.getElem?_map, hGet', hRow, Option.map_some, Option.map_some, hEq]
        have hIn : j < (t.rows.map fun r => rowPkKey r p).length := by
          rw [List.length_map]
          exact (List.getElem?_eq_some_iff.1 hGet').1
        exact (List.getElem?_inj hIn hUnique).1 hMap
      · rintro rfl
        rw [Option.some.inj (hGet'.symm.trans hRow)]
    obtain ⟨hOut, hSet⟩ := exec_updateScan_one hRows hRow hOne
      (fun r e => evalRowExpr now r t.columns e) assignments
    obtain ⟨hOut', hSet'⟩ := exec_assignAll hRow (fun r e => evalRowExpr now r t.columns e) assignments
    rw [hOut, hSet]
    simp only [if_pos hLt]
    rw [Prog.exec_bind, ← hOut', ← hSet']
    rcases (Prog.forEach (assignAt i fun r e => evalRowExpr now r t.columns e) assignments).exec t with
      ⟨_ | _, t'⟩ <;> exact ⟨rfl, rfl⟩

theorem exec_deleteTable_key {now : Nat} {c : Column} {w : Expr} {key : Str}
    (hPk : t.pkColIdx = some p) (hCol : t.columns[p]? = some c)
    (hKey : extractPkEq c.name w = some key) :
    ((deleteTable now (some w)).exec t).2 = t.deleteKey p key := by
  rw [deleteTable, Prog.exec_get_bind, Prog.exec_bind, exec_pkCondition, lookupKey_eq hPk hCol, hKey,
    hPk]
  rfl

/-- **Key lookups.** On a table with an exact index and unique keys, the fast
paths for a condition they serve do what the condition says exactly when the
cells of the key read like the literal, and LIMIT and OFFSET let the row found
through. -/
theorem keyLookup_iff (now : Nat) (t : Table) (p : Nat) (c : Column) (w : Expr) (key : Str)
    (orderBy : Option OrderByKind) (limit offset : Option Expr) (hPk : t.pkColIdx = some p)
    (hCol : t.columns[p]? = some c) (hIndex : IndexExact t p) (hUnique : KeysUnique t p)
    (hKey : extractPkEq c.name w = some key) :
    KeyLookupAgrees now t w orderBy limit offset ↔
      (∃ k : KeyEq, w = k.expr ∧ k.sound t p) ∧
        ((∃ r ∈ t.rows, rowPkKey r p = key) → keepsFirst limit offset) := by
  obtain ⟨k, rfl, hKeyEq, n, hName, hNamed⟩ := KeyEq.of_extractPkEq hKey
  obtain ⟨q, hPos, hRead⟩ : ∃ q, k.column.readColumn t.columns = some q ∧
      ∀ now (row : Row), evalRowExpr now row t.columns k.column = .ok (row[q]?.getD .null) := by
    have hThere : (t.columns.findIdx? fun c => eqIgnoreAsciiCase c.name n).isSome = true := by
      rw [List.findIdx?_isSome, List.any_eq_true]
      refine ⟨c, List.mem_of_getElem? hCol, ?_⟩
      rw [eqIgnoreAsciiCase, beq_iff_eq] at hNamed ⊢
      exact hNamed.symm
    obtain ⟨ci, hCi⟩ := Option.isSome_iff_exists.1 hThere
    have hScan : k.column.scanColumn t.columns = some ci := by
      rw [Expr.scanColumn, hName]
      exact hCi
    exact evalRowExpr_column hScan
  have hCond := k.evalWhere_eq hRead now
  have hLookup : lookupKey t k.expr = .ok (some key) := by rw [lookupKey_eq hPk hCol, hKey]
  have hSound : (∃ k' : KeyEq, k.expr = k'.expr ∧ k'.sound t p) ↔
      ∀ r ∈ t.rows, (rowPkKey r p = key ↔ k.holds (r[q]?.getD .null) = true) := by
    rw [← hKeyEq, ← k.sound_iff hPos]
    constructor
    · rintro ⟨k', hExpr, hk'⟩
      rwa [KeyEq.expr_inj hExpr]
    · exact fun hk => ⟨k, rfl, hk⟩
  have hScan : (∀ r ∈ t.rows, (rowPkKey r p = key ↔ k.holds (r[q]?.getD .null) = true)) →
      ∀ projection, selectScan now t projection k.expr orderBy limit offset =
        .ok (.rows ((projCols t.columns projection).map Prod.fst) (applyLimit (literalOf limit)
          (((pkRow t key).toList.map (projectText (projCols t.columns projection))).drop
            ((literalOf offset).getD 0)))) := by
    intro hSame projection
    have hFilter : filterRows now t.columns (some k.expr) t.rows = .ok (pkRow t key).toList := by
      rw [pkRow_eq_filter hIndex hUnique]
      refine Prog.filterM_ok fun r hr => ?_
      rw [hCond, Except.ok.injEq, Bool.eq_iff_iff, decide_eq_true_eq]
      exact (hSame r hr).symm
    have hShort : (pkRow t key).toList.length ≤ 1 := by
      cases pkRow t key <;> simp
    rw [selectScan, hFilter]
    simp only [bind, Except.bind, pure, Except.pure]
    rw [sortSource_short _ _ hShort]
  rw [hSound]
  constructor
  · rintro ⟨hSelect, -, hDelete⟩
    have hSame : ∀ r ∈ t.rows, (rowPkKey r p = key ↔ k.holds (r[q]?.getD .null) = true) := by
      intro r hr
      rw [exec_deleteTable_key hPk hCol hKey] at hDelete
      have hMem := ((deleteKey_perm hIndex hUnique key).symm.trans hDelete).mem_iff (a := r)
      simp only [List.mem_filter, hr, true_and, decide_eq_true_eq, hCond, Except.ok.injEq] at hMem
      exact not_iff_not.1 hMem
    refine ⟨hSame, ?_⟩
    rintro ⟨r, hr, hRowKey⟩
    have hFound : (pkRow t key).toList = [r] := by
      rw [pkRow_eq_filter hIndex hUnique, ← hRowKey]
      exact filter_eq_one hUnique hr
    have hEq := hSelect none []
    rw [selectPlain_key hLookup, hScan hSame, hFound] at hEq
    injection hEq with hEq
    injection hEq with _ hRows
    exact (keepsFirst_iff limit offset _).1 hRows.symm
  · rintro ⟨hSame, hKeeps⟩
    refine ⟨fun distinct projection => ?_, fun assignments => ?_, ?_⟩
    · rw [selectPlain_key hLookup, hScan hSame]
      have hFound := pkRow_eq_filter hIndex hUnique key
      cases hRow : pkRow t key with
      | none => rw [Option.toList_none, List.map_nil, applyLimit_nil]
      | some r =>
        have hMem : r ∈ t.rows.filter fun r => rowPkKey r p = key := by
          rw [← hFound, hRow]
          exact List.mem_singleton_self r
        rw [List.mem_filter, decide_eq_true_eq] at hMem
        have hFirst := (keepsFirst_iff limit offset
          (projectText (projCols t.columns projection) r)).2 (hKeeps ⟨r, hMem⟩)
        rw [Option.toList_some, List.map_cons, List.map_nil, hFirst]
    · exact update_agrees hPk hCol hIndex hUnique hKey (fun r hr => by
        rw [hCond, Except.ok.injEq, Bool.eq_iff_iff, decide_eq_true_eq]
        exact (hSame r hr).symm) assignments
    · rw [exec_deleteTable_key hPk hCol hKey]
      have hFilter : (t.rows.filter fun r => rowPkKey r p ≠ key) =
          t.rows.filter fun r => ¬ evalWhere now r t.columns k.expr = .ok true := by
        refine List.filter_congr fun r hr => ?_
        rw [decide_eq_decide, hCond, Except.ok.injEq]
        exact not_congr (hSame r hr)
      rw [← hFilter]
      exact deleteKey_perm hIndex hUnique key

end KeyLookup

-- ---------------------------------------------------------------------------
-- A key in another spelling
-- ---------------------------------------------------------------------------

section Spelling

local instance keyLookupPlatform : Platform := tablePlatform []

/-- A table with the primary key `id INT` and the rows 1 and 2. -/
def twoKeys : Table :=
  ((Table.create "test" "t" [⟨"id", .int, false, true⟩] []).push [.int 1]).push [.int 2]

/-- `id = n`. -/
def idEquals (n : Str) : Expr :=
  .binaryOp (.identifier ⟨"id", none⟩) .eq (.value (.number n false))

theorem indexExact_twoKeys : IndexExact twoKeys 0 := by
  constructor
  · decide
  · intro k i hGet
    have hEntries : twoKeys.pkIndex.entries = [(("1" : Str), 0), (("2" : Str), 1)] := by decide +kernel
    rw [HashMap.get_eq_some_iff, hEntries] at hGet
    rcases List.mem_cons.1 hGet with hEq | hGet
    · cases hEq
      exact ⟨[.int 1], rfl, by decide +kernel⟩
    · cases List.mem_singleton.1 hGet
      exact ⟨[.int 2], rfl, by decide +kernel⟩

theorem keysUnique_twoKeys : KeysUnique twoKeys 0 := by
  unfold KeysUnique
  decide +kernel

theorem keyLookup_iff_two :
    KeyLookupAgrees 0 twoKeys (idEquals "2") none none none ↔
      (∃ k : KeyEq, idEquals "2" = k.expr ∧ k.sound twoKeys 0) ∧
        ((∃ r ∈ twoKeys.rows, rowPkKey r 0 = ("2" : Str)) → keepsFirst none none) :=
  keyLookup_iff 0 twoKeys 0 ⟨"id", .int, false, true⟩ (idEquals "2") "2" none none none rfl rfl
    indexExact_twoKeys keysUnique_twoKeys (by decide +kernel)

/-- `id = 01` deletes nothing, though the condition holds for the row 1. -/
theorem not_keyLookup_eq :
    ¬ ∀ (now : Nat) (t : Table) (p : Nat) (c : Column) (w : Expr) (key : Str)
      (orderBy : Option OrderByKind) (limit offset : Option Expr), t.pkColIdx = some p →
        t.columns[p]? = some c → IndexExact t p → KeysUnique t p → extractPkEq c.name w = some key →
        KeyLookupAgrees now t w orderBy limit offset := by
  intro hAll
  have hAgrees := hAll 0 twoKeys 0 ⟨"id", .int, false, true⟩ (idEquals "01") "01" none none none
    rfl rfl indexExact_twoKeys keysUnique_twoKeys (by decide +kernel)
  have hLeft := hAgrees.delete.length_eq
  revert hLeft
  decide +kernel

end Spelling

end RunAlexDb
