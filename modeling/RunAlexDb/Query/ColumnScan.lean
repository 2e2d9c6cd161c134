import RunAlexDb.Model.Concrete
import RunAlexDb.Store.Invariants

/-!
# ColumnScan — scans of the column stores and the WHERE clause

A scan compares what a store holds for a cell: the integer or text itself, and
0 or the empty text for a cell of any other kind, NULL included.

Main result: `simdScan_iff`, when a scan finds the rows for which the condition
holds.
-/

set_option linter.unusedSectionVars false

namespace RunAlexDb

open Text Platform

-- ---------------------------------------------------------------------------
-- Positions
-- ---------------------------------------------------------------------------

section Positions

variable {α : Type}

theorem mem_scanWhere {p : α → Bool} {l : List α} {i : Nat} :
    i ∈ scanWhere p l ↔ ∃ x, l[i]? = some x ∧ p x = true := by
  simp only [scanWhere, List.mem_map, List.mem_filter, Prod.exists, List.mem_zipIdx_iff_getElem?]
  constructor
  · rintro ⟨x, j, ⟨hGet, hp⟩, rfl⟩
    exact ⟨x, hGet, hp⟩
  · rintro ⟨x, hGet, hp⟩
    exact ⟨x, i, ⟨hGet, hp⟩, rfl⟩

/-- The positions a scan finds are increasing. -/
theorem scanWhere_sorted (p : α → Bool) (l : List α) : (scanWhere p l).Pairwise (· < ·) := by
  have hIdx : (l.zipIdx.map Prod.snd).Pairwise (· < ·) := by
    rw [List.zipIdx_map_snd]
    exact List.pairwise_lt_range' ..
  exact hIdx.sublist (List.filter_sublist.map _)

/-- Two conditions give the same positions when they agree on all elements. -/
theorem scanWhere_eq_iff {p q : α → Bool} {l : List α} :
    scanWhere p l = scanWhere q l ↔ ∀ x ∈ l, p x = q x := by
  constructor
  · intro hEq x hx
    obtain ⟨i, hGet⟩ := List.mem_iff_getElem?.1 hx
    have hIff : i ∈ scanWhere p l ↔ i ∈ scanWhere q l := by rw [hEq]
    rw [mem_scanWhere, mem_scanWhere] at hIff
    simp only [hGet, Option.some.injEq, exists_eq_left'] at hIff
    exact Bool.eq_iff_iff.2 hIff
  · intro hAgree
    have hFilter : (l.zipIdx.filter fun x => p x.1) = l.zipIdx.filter fun x => q x.1 :=
      List.filter_congr fun x hx => hAgree x.1 (List.fst_mem_of_mem_zipIdx hx)
    rw [scanWhere, scanWhere, hFilter]

theorem scanWhere_map {β : Type} (f : α → β) (p : β → Bool) (l : List α) :
    scanWhere p (l.map f) = scanWhere (fun x => p (f x)) l := by
  rw [scanWhere, scanWhere, List.zipIdx_map, List.filter_map, List.map_map]
  rfl

end Positions

section ColumnScan

variable [Platform]

-- ---------------------------------------------------------------------------
-- Comparisons
-- ---------------------------------------------------------------------------

omit [Platform] in
theorem cmpStr_eq_iff (s t : Str) : cmpStr s t = .eq ↔ s = t := by
  induction s generalizing t with
  | nil => cases t <;> simp [cmpStr]
  | cons a s ih =>
    cases t with
    | nil => simp [cmpStr]
    | cons b t =>
      rw [cmpStr, List.cons.injEq]
      split
      · rename_i hLt
        simp only [reduceCtorEq, false_iff, not_and]
        rintro rfl
        exact absurd hLt (lt_irrefl _)
      · split
        · rename_i hGt
          simp only [reduceCtorEq, false_iff, not_and]
          rintro rfl
          exact absurd hGt (lt_irrefl _)
        · rename_i hLt hGt
          have hEq : a = b := Char.toNat_inj.1 (by omega)
          rw [ih, hEq, eq_self_iff_true, true_and]

theorem cmpInt64_eq_iff (a b : Int64) : cmpInt64 a b = .eq ↔ a = b := by
  rw [cmpInt64]
  split
  · rename_i h
    simp only [reduceCtorEq, false_iff]
    rintro rfl
    exact absurd h Int64.lt_irrefl
  · split
    · rename_i h
      simp only [reduceCtorEq, false_iff]
      rintro rfl
      exact absurd h Int64.lt_irrefl
    · rename_i h h'
      exact iff_of_true rfl (Int64.le_antisymm (Int64.not_lt.1 h') (Int64.not_lt.1 h))

theorem valuesEq_int (a b : Int64) : valuesEq (.int a) (.int b) = (a == b) := by
  rw [Bool.eq_iff_iff, valuesEq, valuesCmp, beq_iff_eq, beq_iff_eq, cmpInt64_eq_iff] <;> nofun

theorem valuesEq_text (s t : Str) : valuesEq (.text s) (.text t) = (s == t) := by
  rw [Bool.eq_iff_iff, valuesEq, valuesCmp, beq_iff_eq, beq_iff_eq, cmpStr_eq_iff] <;> nofun

/-- A value compares with a text by its own text. -/
theorem valuesEq_text_right {v : Value} (hNull : v ≠ .null) (s : Str) :
    valuesEq v (.text s) = true ↔ v.toDisplay.getD [] = s := by
  cases v with
  | null => exact absurd rfl hNull
  | _ => simp [valuesEq, valuesCmp, cmpStr_eq_iff, Value.toDisplay]

theorem valuesEq_text_left {v : Value} (hNull : v ≠ .null) (s : Str) :
    valuesEq (.text s) v = true ↔ s = v.toDisplay.getD [] := by
  cases v with
  | null => exact absurd rfl hNull
  | _ => simp [valuesEq, valuesCmp, cmpStr_eq_iff, Value.toDisplay]

theorem cmpInt64_gt_iff (a b : Int64) : cmpInt64 a b = .gt ↔ b < a := by
  rw [cmpInt64]
  split
  · rename_i h
    simp only [reduceCtorEq, false_iff]
    exact fun h' => Int64.lt_irrefl (Int64.lt_trans h h')
  · split <;> simp_all

theorem cmpInt64_lt_iff (a b : Int64) : cmpInt64 a b = .lt ↔ a < b := by
  rw [cmpInt64]
  split
  · simp_all
  · split <;> simp_all

-- ---------------------------------------------------------------------------
-- What a scan compares
-- ---------------------------------------------------------------------------

/-- What a store of the kind of the literal has for a cell, as a value. -/
def standIn (lit : SqlValue) (cell : Option Value) : Value :=
  match lit with
  | .singleQuotedString _ => .text (strImage cell)
  | _ => .int (intImage cell)

/-- Comparisons and literals that a scan serves. -/
def served (op : BinaryOperator) (lit : SqlValue) : Bool :=
  match lit with
  | .number n _ => (op = .eq ∨ op = .gt ∨ op = .lt) && (parseI64 n).isSome
  | .singleQuotedString _ => op = .eq
  | _ => false

theorem served_op {op : BinaryOperator} {lit : SqlValue} (h : served op lit = true) :
    op ≠ .and ∧ op ≠ .or := by
  cases lit with
  | number n long => constructor <;> rintro rfl <;> simp [served] at h
  | singleQuotedString s => constructor <;> rintro rfl <;> simp [served] at h
  | _ => cases h

/-- A condition that a scan serves, with the column it scans. -/
structure Scan where
  left : Expr
  op : BinaryOperator
  lit : SqlValue
  colIdx : Nat
  served : served op lit = true

def Scan.expr (s : Scan) : Expr := .binaryOp s.left s.op (.value s.lit)

/-- What the scan says of a row. -/
def Scan.finds (s : Scan) (row : Row) : Bool :=
  (compareOp s.op (standIn s.lit row[s.colIdx]?) (exprToValue (.value s.lit))).getD true

/-- The column the left side names by its last part. -/
def Expr.scanColumn (cols : List Column) (e : Expr) : Option Nat :=
  e.columnName?.bind (columnPosition cols)

/-- **What a scan finds.** On a table with exact stores, the rows that the
literal compared with the stand-in of their cell gives. -/
theorem trySimdScan_eq {t : Table} (hStores : StoresExact t) {w : Expr} {idx : List Nat}
    (h : trySimdScan t w = some idx) :
    ∃ s : Scan, w = s.expr ∧ s.left.scanColumn t.columns = some s.colIdx ∧
      idx = scanWhere s.finds t.rows := by
  cases w with
  | binaryOp left op right =>
    simp only [trySimdScan, Option.bind_eq_bind, Option.bind_eq_some_iff] at h
    obtain ⟨name, hName, ci, hCol, h⟩ := h
    have hColumn : left.scanColumn t.columns = some ci := by
      rw [Expr.scanColumn, hName, Option.bind_some, hCol]
    split at h
    · -- the integer store
      rename_i store hStore
      split at h
      case h_2 => cases h
      rename_i n long
      obtain ⟨target, hParse, h⟩ := Option.bind_eq_some_iff.1 h
      have hLit : exprToValue (.value (.number n long)) = .int target := by
        rw [exprToValue, numberToValue, hParse]
      have hRows := hStores.int ci store hStore
      subst hRows
      split at h
      all_goals cases h
      · refine ⟨⟨left, .eq, .number n long, ci, by simp [served, hParse]⟩, rfl, hColumn, ?_⟩
        rw [scanEqI64, scanWhere_map]
        refine scanWhere_eq_iff.2 fun r _ => ?_
        rw [Scan.finds, hLit]
        exact (valuesEq_int _ _).symm
      · refine ⟨⟨left, .gt, .number n long, ci, by simp [served, hParse]⟩, rfl, hColumn, ?_⟩
        rw [scanGtI64, scanWhere_map]
        refine scanWhere_eq_iff.2 fun r _ => ?_
        rw [Scan.finds, hLit, Bool.eq_iff_iff]
        simp only [standIn, compareOp, Option.getD_some, beq_iff_eq, valuesCmp, cmpInt64_gt_iff,
          decide_eq_true_eq]
      · refine ⟨⟨left, .lt, .number n long, ci, by simp [served, hParse]⟩, rfl, hColumn, ?_⟩
        rw [scanLtI64, scanWhere_map]
        refine scanWhere_eq_iff.2 fun r _ => ?_
        rw [Scan.finds, hLit, Bool.eq_iff_iff]
        simp only [standIn, compareOp, Option.getD_some, beq_iff_eq, valuesCmp, cmpInt64_lt_iff,
          decide_eq_true_eq]
    · -- the text store
      split at h
      · rename_i store s hStore
        have hRows := hStores.str ci store hStore
        subst hRows
        cases h
        refine ⟨⟨left, .eq, .singleQuotedString s, ci, rfl⟩, rfl, hColumn, ?_⟩
        rw [scanEqStr, scanWhere_map]
        refine scanWhere_eq_iff.2 fun r _ => ?_
        exact (valuesEq_text _ _).symm
      · cases h
  | _ => cases h

-- ---------------------------------------------------------------------------
-- What the condition says
-- ---------------------------------------------------------------------------

/-- The column a name reads: a name with dots that a column has as a whole
before its last part. -/
def Expr.readColumn (cols : List Column) : Expr → Option Nat
  | .identifier id => columnPosition cols id.value
  | .compoundIdentifier parts =>
    parts.getLast?.bind fun last =>
      (columnPosition cols (join "." (parts.map Ident.value))).or (columnPosition cols last.value)
  | _ => none

/-- A scanned column is read by the evaluator, from one position. -/
theorem evalRowExpr_column {cols : List Column} {e : Expr} {ci : Nat}
    (h : e.scanColumn cols = some ci) :
    ∃ p, e.readColumn cols = some p ∧
      ∀ now (row : Row), evalRowExpr now row cols e = .ok (row[p]?.getD .null) := by
  cases e with
  | identifier id =>
    have hPos : columnPosition cols id.value = some ci := h
    refine ⟨ci, hPos, fun now row => ?_⟩
    rw [evalRowExpr, columnValue, hPos]
    rfl
  | compoundIdentifier parts =>
    rw [Expr.scanColumn, Expr.columnName?] at h
    cases hLast : parts.getLast? with
    | none => rw [hLast] at h; cases h
    | some last =>
      rw [hLast] at h
      have hPos : columnPosition cols last.value = some ci := h
      rw [Expr.readColumn, hLast, Option.bind_some]
      cases hWhole : columnPosition cols (join "." (parts.map Ident.value)) with
      | none =>
        refine ⟨ci, hPos, fun now row => ?_⟩
        rw [evalRowExpr, compoundValue, hLast]
        simp only [hWhole, hPos, Option.none_or, Option.bind_some]
        rfl
      | some p =>
        refine ⟨p, rfl, fun now row => ?_⟩
        rw [evalRowExpr, compoundValue, hLast]
        simp only [hWhole, Option.some_or, Option.bind_some]
        rfl
  | _ => cases h

/-- The rows for which a condition holds. -/
def positionsWhere (now : Nat) (t : Table) (w : Expr) : List Nat :=
  scanWhere (fun r => decide (evalWhere now r t.columns w = .ok true)) t.rows

theorem Scan.evalWhere_eq (s : Scan) {cols : List Column} {p : Nat}
    (hRead : ∀ now (row : Row), evalRowExpr now row cols s.left = .ok (row[p]?.getD .null))
    (now : Nat) (row : Row) :
    evalWhere now row cols s.expr =
      .ok ((compareOp s.op (row[p]?.getD .null) (exprToValue (.value s.lit))).getD true) := by
  have hOp := served_op s.served
  rw [Scan.expr, evalWhere, hRead, evalRowExpr]
  · rfl
  · exact hOp.1
  · exact hOp.2

/-- A cell and its stand-in compare alike. With the text store: texts do, NULL
unless the literal is empty, other values when their text and the literal are
both or neither empty and equal. With the integer store: integers do, NULL when
0 is on the same side, other values when they compare as 0. -/
def scansAs (op : BinaryOperator) (lit : SqlValue) (cell : Value) : Prop :=
  match lit, cell with
  | .singleQuotedString _, .text _ => True
  | .singleQuotedString s, .null => s ≠ []
  | .singleQuotedString s, v => (v.toDisplay.getD [] = s ↔ s = [])
  | .number _ _, .int _ => True
  | .number n _, .null =>
    ∀ target, parseI64 n = some target →
      match op with
      | .eq => target ≠ 0
      | .gt => 0 ≤ target
      | _ => 0 < target
  | lit, v => compareOp op v (exprToValue (.value lit)) =
      compareOp op (.int 0) (exprToValue (.value lit))

theorem scansAs_iff {op : BinaryOperator} {lit : SqlValue} (h : served op lit = true) (cell : Value) :
    compareOp op (standIn lit (some cell)) (exprToValue (.value lit)) =
      compareOp op cell (exprToValue (.value lit)) ↔ scansAs op lit cell := by
  cases lit with
  | singleQuotedString s =>
    have hOp : op = .eq := by simpa [served] using h
    subst hOp
    have hEmpty : valuesEq (.text []) (.text s) = decide (s = []) := by
      rw [valuesEq_text, Bool.eq_iff_iff, beq_iff_eq, decide_eq_true_eq]
      exact eq_comm
    have hOther : ∀ v : Value, v ≠ .null → strImage (some v) = [] →
        (compareOp .eq (standIn (.singleQuotedString s) (some v)) (.text s) =
          compareOp .eq v (.text s) ↔ (v.toDisplay.getD [] = s ↔ s = [])) := by
      intro v hNull hImage
      rw [standIn, hImage, compareOp, compareOp, hEmpty, Option.some.injEq, Bool.eq_iff_iff,
        decide_eq_true_eq, valuesEq_text_right hNull]
      exact iff_comm
    cases cell with
    | text x => exact iff_of_true rfl trivial
    | null =>
      show some (valuesEq (.text []) (.text s)) = some false ↔ s ≠ []
      rw [hEmpty, Option.some.injEq, decide_eq_false_iff_not]
    | int i => exact hOther _ nofun rfl
    | float f => exact hOther _ nofun rfl
    | bytes b => exact hOther _ nofun rfl
  | number n long =>
    obtain ⟨hOp, hParse⟩ : (op = .eq ∨ op = .gt ∨ op = .lt) ∧ (parseI64 n).isSome = true := by
      simpa [served] using h
    obtain ⟨target, hTarget⟩ := Option.isSome_iff_exists.1 hParse
    have hLit : exprToValue (.value (.number n long)) = .int target := by
      rw [exprToValue, numberToValue, hTarget]
    rw [hLit]
    cases cell with
    | int i => exact iff_of_true rfl trivial
    | null =>
      simp only [scansAs, hTarget, Option.some.injEq, forall_eq']
      rcases hOp with rfl | rfl | rfl
      · show some (valuesEq (.int 0) (.int target)) = some false ↔ target ≠ 0
        rw [valuesEq_int, Option.some.injEq, beq_eq_false_iff_ne]
        exact ne_comm
      · show some (cmpInt64 0 target == .gt) = some false ↔ 0 ≤ target
        rw [Option.some.injEq, beq_eq_false_iff_ne, ne_eq, cmpInt64_gt_iff, Int64.not_lt]
      · show some (cmpInt64 0 target == .lt) = some true ↔ 0 < target
        rw [Option.some.injEq, beq_iff_eq, cmpInt64_lt_iff]
    | text x => simp only [scansAs, hLit]; exact eq_comm
    | float f => simp only [scansAs, hLit]; exact eq_comm
    | bytes b => simp only [scansAs, hLit]; exact eq_comm
  | _ => cases h

-- ---------------------------------------------------------------------------
-- When the two agree
-- ---------------------------------------------------------------------------

/-- Every row's cell in the scanned column compares as its stand-in. Should a
column have the whole dotted name of the left side, the condition reads that
one, and its cells have to compare as the stand-ins. -/
def scanSound (t : Table) : Expr → Prop
  | .binaryOp left op (.value lit) =>
    ∀ ci p, left.scanColumn t.columns = some ci → left.readColumn t.columns = some p →
      if p = ci then ∀ r ∈ t.rows, scansAs op lit (r[ci]?.getD .null)
      else ∀ r ∈ t.rows, compareOp op (standIn lit r[ci]?) (exprToValue (.value lit)) =
        compareOp op (r[p]?.getD .null) (exprToValue (.value lit))
  | _ => True

theorem standIn_getD (lit : SqlValue) (cell : Option Value) :
    standIn lit cell = standIn lit (some (cell.getD .null)) := by
  cases cell with
  | some v => rfl
  | none => cases lit <;> rfl

/-- Served comparisons are decided, so the default does not matter. -/
theorem getD_compareOp {op : BinaryOperator} {lit : SqlValue} (h : served op lit = true)
    (a b c d : Value) :
    (compareOp op a b).getD true = (compareOp op c d).getD true ↔
      compareOp op a b = compareOp op c d := by
  have hOp : op = .eq ∨ op = .gt ∨ op = .lt := by
    cases lit with
    | number n long => simp [served] at h; exact h.1
    | singleQuotedString s => exact .inl (by simpa [served] using h)
    | _ => cases h
  rcases hOp with rfl | rfl | rfl <;> simp [compareOp]

/-- **Column scans.** On a table with exact column stores, a scan that serves a
condition finds the rows for which the condition holds, in order, exactly when
the cells of the column compare as their stand-ins in the store. -/
theorem simdScan_iff (now : Nat) (t : Table) (w : Expr) (idx : List Nat) (hStores : StoresExact t)
    (hScan : trySimdScan t w = some idx) : idx = positionsWhere now t w ↔ scanSound t w := by
  obtain ⟨s, rfl, hColumn, rfl⟩ := trySimdScan_eq hStores hScan
  obtain ⟨p, hPos, hRead⟩ := evalRowExpr_column hColumn
  have hSound : scanSound t s.expr ↔
      if p = s.colIdx then ∀ r ∈ t.rows, scansAs s.op s.lit (r[s.colIdx]?.getD .null)
      else ∀ r ∈ t.rows, compareOp s.op (standIn s.lit r[s.colIdx]?) (exprToValue (.value s.lit)) =
        compareOp s.op (r[p]?.getD .null) (exprToValue (.value s.lit)) := by
    simp only [Scan.expr, scanSound, hColumn, hPos, Option.some.injEq]
    constructor
    · intro h
      exact h s.colIdx p rfl rfl
    · rintro h _ _ rfl rfl
      exact h
  rw [hSound, positionsWhere, scanWhere_eq_iff]
  have hRow : ∀ r : Row, (s.finds r = decide (evalWhere now r t.columns s.expr = .ok true)) ↔
      compareOp s.op (standIn s.lit r[s.colIdx]?) (exprToValue (.value s.lit)) =
        compareOp s.op (r[p]?.getD .null) (exprToValue (.value s.lit)) := by
    intro r
    rw [s.evalWhere_eq hRead, ← getD_compareOp s.served, Scan.finds, Bool.eq_iff_iff,
      decide_eq_true_eq, Except.ok.injEq, ← Bool.eq_iff_iff]
  simp only [hRow]
  split
  · rename_i hSame
    subst hSame
    refine forall_congr' fun r => forall_congr' fun _ => ?_
    rw [standIn_getD, scansAs_iff s.served]
  · exact Iff.rfl

end ColumnScan

-- ---------------------------------------------------------------------------
-- A NULL that is found as 0
-- ---------------------------------------------------------------------------

section NullCell

local instance columnScanPlatform : Platform := tablePlatform []

/-- A column `a INT` with one cell. -/
def oneCell (v : Value) : Table :=
  (Table.create "test" "t" [⟨"a", .int, true, false⟩] []).push [v]

/-- `a = n`. -/
def cellEquals (n : Str) : Expr :=
  .binaryOp (.identifier ⟨"a", none⟩) .eq (.value (.number n false))

theorem storesExact_oneCell (v : Value) : StoresExact (oneCell v) := by
  constructor
  · intro ci store hStore
    cases ci with
    | zero => exact (Option.some.inj (Option.some.inj hStore)).symm
    | succ ci => cases hStore
  · intro ci store hStore
    cases ci with
    | zero => cases hStore
    | succ ci => cases hStore

theorem simdScan_iff_one :
    [0] = positionsWhere 0 (oneCell (.int 1)) (cellEquals "1") ↔
      scanSound (oneCell (.int 1)) (cellEquals "1") :=
  simdScan_iff 0 (oneCell (.int 1)) (cellEquals "1") [0] (storesExact_oneCell _) (by decide +kernel)

/-- `a = 0` finds the row in which a is NULL. -/
theorem not_simdScan_eq :
    ¬ ∀ (now : Nat) (t : Table) (w : Expr) (idx : List Nat), StoresExact t →
      trySimdScan t w = some idx → idx = positionsWhere now t w := by
  intro hAll
  have hFound : trySimdScan (oneCell .null) (cellEquals "0") = some [0] := by decide +kernel
  have hEq := hAll 0 (oneCell .null) (cellEquals "0") [0] (storesExact_oneCell _) hFound
  revert hEq
  decide +kernel

end NullCell

end RunAlexDb
