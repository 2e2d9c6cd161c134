import Mathlib.Algebra.Order.Ring.WithTop
import RunAlexDb.Lib.Orderings
import RunAlexDb.Query.DistinctRows
import RunAlexDb.Query.Numbers
import RunAlexDb.Store.RowWidths

/-!
# OrderedRows — ORDER BY on a column of numbers

A projection of plain columns is sorted by the printed cells of the column,
before it is made; evaluated items are sorted by the first output that is called
like the key, if there is one; groups stay in the order of their printed keys
and are not cut.

Main result: `ordered_iff`.
-/

set_option linter.unusedSectionVars false

namespace RunAlexDb

open Text Platform

-- ---------------------------------------------------------------------------
-- Numeric order
-- ---------------------------------------------------------------------------

/-- The value of a binary64 that is no NaN, infinities included. -/
def F64.toExtended (f : F64) : Option (WithBot (WithTop ℚ)) :=
  match f.toRat with
  | some q => some ((q : WithTop ℚ) : WithBot (WithTop ℚ))
  | none =>
    if f.bits.toNat % 2 ^ 52 ≠ 0 then none
    else if f.bits.toNat < 2 ^ 63 then some ((⊤ : WithTop ℚ) : WithBot (WithTop ℚ))
    else some ⊥

/-- Where a value stands in numeric order, NULL before all numbers. -/
def Value.place : Value → Option (WithBot (WithBot (WithTop ℚ)))
  | .null => some ⊥
  | .int n => some (((n.toInt : ℚ) : WithTop ℚ) : WithBot (WithTop ℚ))
  | .float f => f.toExtended.map fun x => (x : WithBot (WithBot (WithTop ℚ)))
  | _ => none

/-- Numeric order of values that have a place in it. -/
def cmpPlace (a b : Value) : Ordering := compare (a.place.getD ⊥) (b.place.getD ⊥)

instance : Std.TransCmp cmpPlace := by
  have hEq : cmpPlace = compareOn fun v : Value => v.place.getD ⊥ := rfl
  rw [hEq]
  infer_instance

example : cmpPlace (.int 9) (.int 10) = .lt := by decide +kernel

section OrderedRows

variable [Platform]

/-- By the printed values: integers as numbers, everything else as text. -/
def cmpPrinted (a b : Value) : Ordering :=
  cmpIntOrText (a.toDisplay.getD []) (b.toDisplay.getD [])

-- ---------------------------------------------------------------------------
-- The query
-- ---------------------------------------------------------------------------

/-- `SELECT projection FROM .. [GROUP BY key [HAVING ..]] ORDER BY key [ASC | DESC]`;
`grouping` is the HAVING of a query with GROUP BY. -/
structure OrderQuery where
  projection : List SelectItem
  grouping : Option (Option Expr)
  key : Expr
  direction : Option Bool

namespace OrderQuery

variable (q : OrderQuery)

def groupBy : GroupByExpr := .expressions (if q.grouping.isSome then [q.key] else [])

def orderBy : Option OrderByKind := some (.expressions [.mk q.key q.direction])

def asc : Bool := q.direction.getD true

def query (name : ObjectName) (w : Option Expr) (limit offset : Option Nat) : Query :=
  tableQuery name none q.projection w q.groupBy q.grouping.join q.orderBy (limit.map numeral)
    (offset.map numeral)

/-- The outputs of evaluated items. -/
def outputs (cols : List Column) : List (Str × Expr) :=
  projectionOutputs cols Column.name exprToString q.projection

/-- One line for each row or group: no query of aggregates alone, and no window
functions. -/
structure PerRow (cols : List Column) : Prop where
  rows : isAggregateOnly q.projection q.groupBy = false
  windows : q.grouping = none → winItems (q.outputs cols) = []

-- ---------------------------------------------------------------------------
-- What it selects
-- ---------------------------------------------------------------------------

/-- The line a row or a group gives, with the value it is to be sorted by. -/
abbrev Entry := Value × TextRow

def plainEntry (cols : List Column) (ci : Nat) (row : Row) : Entry :=
  (valueAt ci row, projectText (projCols cols q.projection) row)

/-- The rows of a projection of plain columns, by the index or by the rows
selected. -/
def plainEntries (now : Nat) (t : Table) (ci : Nat) (w : Option Expr) : Rust (List Entry) := do
  match ← lookupOf t w with
  | some key => return (pkRow t key).toList.map (q.plainEntry t.columns ci)
  | none => return (← selectedRows now t w).map (q.plainEntry t.columns ci)

def evaluatedEntry (now : Nat) (cols : List Column) (ci : Nat) (row : Row) : Rust Entry := do
  return (valueAt ci row, ← evalOutputs now cols (q.outputs cols) row)

def evaluatedEntries (now : Nat) (t : Table) (ci : Nat) (w : Option Expr) : Rust (List Entry) := do
  (← filterRows now t.columns w t.rows).mapM (q.evaluatedEntry now t.columns ci)

/-- A group has the value of its first row. -/
def groupEntry (cols : List Column) (ci : Nat) (g : TextRow × List Row) : Entry :=
  (valueAt ci (g.2.headD []), q.projection.map (groupCell cols [ci] g.1 g.2))

/-- HAVING keeps a group. -/
def keeps (cols : List Column) (having : Option Expr) (rows : List Row) : Rust Bool :=
  having.elim (pure true) (evalHaving rows cols (aliasMap q.projection))

def groupEntries (now : Nat) (t : Table) (ci : Nat) (w having : Option Expr) : Rust (List Entry) := do
  let rows ← filterRows now t.columns w t.rows
  let kept ← (groupRows [ci] rows).filterM fun g => q.keeps t.columns having g.2
  return kept.map (q.groupEntry t.columns ci)

/-- What the query selects, unsorted and uncut. -/
def entries (now : Nat) (t : Table) (ci : Nat) (w : Option Expr) : Rust (List Entry) :=
  match q.grouping with
  | some having => q.groupEntries now t ci w having
  | none =>
    if q.projection.all isPlainCol then q.plainEntries now t ci w else q.evaluatedEntries now t ci w

/-- What was selected comes out in numeric order, cut to the slice. -/
def Shown (limit offset : Option Nat) (entries : List Entry) (r : QueryResult) : Prop :=
  ∃ sorted : List Entry, sorted.Perm entries ∧
    sorted.Pairwise (fun e e' => directed q.asc cmpPlace e.1 e'.1 ≠ .gt) ∧
    r.shownRows = cutOut limit (offset.getD 0) (sorted.map Prod.snd)

-- ---------------------------------------------------------------------------
-- When it is given
-- ---------------------------------------------------------------------------

/-- The slice of `n` lines is all of them. -/
def WholeSlice (limit offset : Option Nat) (n : Nat) : Prop :=
  n = 0 ∨ offset.getD 0 = 0 ∧ ∀ k, limit = some k → n ≤ k

/-- An OFFSET too great to be read makes no difference. -/
def ReadSlice (limit offset : Option Nat) (n : Nat) : Prop :=
  offset.getD 0 < 2 ^ 64 ∨ n = 0 ∨ limit = some 0

/-- Groups and a looked-up row are not cut at all. -/
def SliceTaken (t : Table) (w : Option Expr) (limit offset : Option Nat) (n : Nat) : Prop :=
  (q.grouping.isSome ∨ LooksUp t q.projection w → WholeSlice limit offset n) ∧
    (¬ (q.grouping.isSome ∨ LooksUp t q.projection w) → ReadSlice limit offset n)

section Served

variable (now : Nat) (cols : List Column) (ci : Nat) (S : Value → Prop)

/-- What is to come first prints as less, or the two print alike and nothing
else is shown. -/
def PlainServed : Prop :=
  projCols cols q.projection = [] ∨ ∀ a b, S a → S b → directed q.asc cmpPlace a b = .lt →
    directed q.asc cmpPrinted a b = .lt ∨
      a.toDisplay = b.toDisplay ∧ ∀ p ∈ projCols cols q.projection, p.2 = ci

/-- Lines compared by the first output called like the key. -/
def cmpLine (p s : TextRow) : Ordering :=
  match ((q.outputs cols).map Prod.fst).findIdx? fun n => eqIgnoreAsciiCase n (exprToString q.key) with
  | some i => directed q.asc (fun a b => cmpNullable (a[i]?.join) (b[i]?.join)) p s
  | none => .eq

/-- A row that the table can have. -/
structure Possible (row : Row) : Prop where
  width : row.length = cols.length
  value : S (valueAt ci row)

/-- Of two rows with different lines the one to come first has the lesser line. -/
def EvaluatedServed : Prop :=
  ∀ x y, Possible cols ci S x → Possible cols ci S y →
    directed q.asc cmpPlace (valueAt ci x) (valueAt ci y) = .lt →
    ∀ p s, evalOutputs now cols (q.outputs cols) x = .ok p →
      evalOutputs now cols (q.outputs cols) y = .ok s → p = s ∨ q.cmpLine cols p s = .lt

/-- Rows that print alike in the column. -/
structure PossibleGroup (k : TextRow) (rows : List Row) : Prop where
  some_row : rows ≠ []
  key : ∀ row ∈ rows, shownCells [ci] row = k
  possible : ∀ row ∈ rows, Possible cols ci S row

/-- Of two groups with different lines the one to come first has the lesser key. -/
def GroupsServed (having : Option Expr) : Prop :=
  ∀ g h : TextRow × List Row, PossibleGroup cols ci S g.1 g.2 → PossibleGroup cols ci S h.1 h.2 →
    g.1 ≠ h.1 → q.keeps cols having g.2 = .ok true → q.keeps cols having h.2 = .ok true →
    directed q.asc cmpPlace (q.groupEntry cols ci g).1 (q.groupEntry cols ci h).1 = .lt →
    (q.groupEntry cols ci g).2 = (q.groupEntry cols ci h).2 ∨ cmpKey g.1 h.1 = .lt

/-- The order of the column's values is the one the query sorts by. -/
def OrderServed : Prop :=
  match q.grouping with
  | some having => q.GroupsServed cols ci S having
  | none =>
    if q.projection.all isPlainCol then q.PlainServed cols ci S else q.EvaluatedServed now cols ci S

end Served

-- ---------------------------------------------------------------------------
-- Comparisons
-- ---------------------------------------------------------------------------

section Directed

variable {α : Type} {cmp : α → α → Ordering} {asc : Bool}

instance orientedCmp_directed [Std.OrientedCmp cmp] : Std.OrientedCmp (directed asc cmp) where
  eq_swap {a b} := by
    have hSwap : cmp a b = (cmp b a).swap := Std.OrientedCmp.eq_swap
    cases asc with
    | false => exact congrArg Ordering.swap hSwap
    | true => exact hSwap

instance transCmp_directed [Std.TransCmp cmp] : Std.TransCmp (directed asc cmp) where
  isLE_trans {a b c} hab hbc := by
    cases asc with
    | false =>
      have hSwap : ∀ x y, directed false cmp x y = cmp y x := by
        intro x y
        have hSwap : cmp y x = (cmp x y).swap := Std.OrientedCmp.eq_swap
        exact hSwap.symm
      rw [hSwap] at *
      exact Std.TransCmp.isLE_trans hbc hab
    | true =>
      have hab' : (cmp a b).isLE = true := hab
      have hbc' : (cmp b c).isLE = true := hbc
      have hac : (cmp a c).isLE = true := Std.TransCmp.isLE_trans hab' hbc'
      exact hac

instance orientedCmp_cmpInt64 : Std.OrientedCmp cmpInt64 where
  eq_swap {a b} := by
    rw [cmpInt64, cmpInt64]
    by_cases hLt : a < b
    · have hNot : ¬ b < a := fun h => Int64.lt_irrefl (Int64.lt_trans hLt h)
      rw [if_pos hLt, if_neg hNot, if_pos hLt]
      rfl
    · by_cases hGt : b < a
      · rw [if_neg hLt, if_pos hGt, if_pos hGt]
        rfl
      · rw [if_neg hLt, if_neg hGt, if_neg hGt, if_neg hLt]
        rfl

instance orientedCmp_cmpIntOrText : Std.OrientedCmp cmpIntOrText where
  eq_swap {a b} := by
    have hText : cmpStr a b = (cmpStr b a).swap := Std.OrientedCmp.eq_swap
    rw [cmpIntOrText, cmpIntOrText]
    cases parseI64 a with
    | none => cases parseI64 b <;> exact hText
    | some x =>
      cases parseI64 b with
      | none => exact hText
      | some y =>
        have hInt : cmpInt64 x y = (cmpInt64 y x).swap := Std.OrientedCmp.eq_swap
        exact hInt

instance orientedCmp_cmpPrinted : Std.OrientedCmp cmpPrinted where
  eq_swap {a b} := by
    have hTexts : cmpIntOrText (a.toDisplay.getD []) (b.toDisplay.getD []) =
        (cmpIntOrText (b.toDisplay.getD []) (a.toDisplay.getD [])).swap := Std.OrientedCmp.eq_swap
    exact hTexts

instance orientedCmp_cmpNullable : Std.OrientedCmp cmpNullable where
  eq_swap {a b} := by
    rcases a with _ | x <;> rcases b with _ | y
    · rfl
    · rfl
    · rfl
    · have hTexts : cmpIntOrText x y = (cmpIntOrText y x).swap := Std.OrientedCmp.eq_swap
      exact hTexts

/-- The cells of lines at a position. -/
instance orientedCmp_cell (i : Nat) :
    Std.OrientedCmp fun a b : TextRow => cmpNullable (a[i]?.join) (b[i]?.join) :=
  ⟨Std.OrientedCmp.eq_swap⟩

instance orientedCmp_cmpLine (cols : List Column) : Std.OrientedCmp (q.cmpLine cols) where
  eq_swap {p s} := by
    unfold cmpLine
    split
    · exact orientedCmp_directed.eq_swap
    · rfl

end Directed

-- ---------------------------------------------------------------------------
-- Slices
-- ---------------------------------------------------------------------------

section Slice

variable {α : Type} {limit offset : Option Nat} {l l' : List α}

theorem length_cutOut (limit : Option Nat) (offset : Nat) (l : List α) :
    (cutOut limit offset l).length = limit.elim (l.length - offset) (min · (l.length - offset)) := by
  cases limit with
  | none => exact List.length_drop
  | some n => exact List.length_take.trans (congrArg (min n) List.length_drop)

theorem cutOut_of_readSlice (hShort : l.length < 2 ^ 64) (h : ReadSlice limit offset l.length) :
    cutOut (limit.bind readable) ((offset.bind readable).getD 0) l = cutOut limit (offset.getD 0) l := by
  rcases h with hRead | hNone | hZero
  · rw [readable_getD hRead]
    cases limit with
    | none => rfl
    | some n =>
      rw [Option.bind_some, readable]
      split
      · rfl
      · have hFits : (l.drop (offset.getD 0)).length ≤ n := by
          rw [List.length_drop]
          omega
        exact (List.take_of_length_le hFits).symm
  · obtain rfl := List.length_eq_zero_iff.1 hNone
    have hNil : ∀ (n : Option Nat) (k : Nat), cutOut n k ([] : List α) = [] := fun n k =>
      (cutOut_eq_nil_iff n k []).2 (.inr (Nat.zero_le k))
    rw [hNil, hNil]
  · rw [hZero]
    rfl

/-- Short lists show an OFFSET that is not read. -/
theorem readSlice_of_length (hSame : l.length = l'.length) (hShort : l.length < 2 ^ 64)
    (h : (cutOut (limit.bind readable) ((offset.bind readable).getD 0) l).length =
      (cutOut limit (offset.getD 0) l').length) : ReadSlice limit offset l.length := by
  by_contra hNot
  simp only [ReadSlice, not_or, Nat.not_lt] at hNot
  obtain ⟨hOffset, hSome, hLimit⟩ := hNot
  obtain ⟨m, rfl⟩ : ∃ m, offset = some m := by
    cases offset with
    | none => exact absurd hOffset (by decide)
    | some m => exact ⟨m, rfl⟩
  have hm : 2 ^ 64 ≤ m := hOffset
  have hUnread : (some m).bind readable = none := if_neg (by omega)
  rw [hUnread, length_cutOut, length_cutOut, ← hSame] at h
  cases limit with
  | none =>
    simp only [Option.bind_none, Option.elim_none, Option.getD_none, Option.getD_some] at h
    omega
  | some n =>
    have hn : n ≠ 0 := fun hn => hLimit (congrArg some hn)
    rw [Option.bind_some, readable] at h
    split at h
    · simp only [Option.elim_some, Option.getD_none, Option.getD_some] at h
      omega
    · simp only [Option.elim_none, Option.elim_some, Option.getD_none, Option.getD_some] at h
      omega

theorem length_cutOut_eq_iff :
    (cutOut limit (offset.getD 0) l).length = l.length ↔ WholeSlice limit offset l.length := by
  rw [length_cutOut, WholeSlice]
  cases limit with
  | none =>
    simp only [Option.elim_none, reduceCtorEq, false_implies, implies_true, and_true]
    omega
  | some n =>
    simp only [Option.elim_some, Option.some.injEq, forall_eq']
    omega

/-- A slice of all is all. -/
theorem cutOut_of_wholeSlice (h : WholeSlice limit offset l.length) :
    cutOut limit (offset.getD 0) l = l :=
  (cutOut_sublist ..).eq_of_length (length_cutOut_eq_iff.2 h)

end Slice

-- ---------------------------------------------------------------------------
-- Lines that look sorted
-- ---------------------------------------------------------------------------

/-- The lines are those of the entries in numeric order. -/
def Looks (entries : List Entry) (lines : List TextRow) : Prop :=
  ∃ sorted : List Entry, sorted.Perm entries ∧
    sorted.Pairwise (fun e e' => directed q.asc cmpPlace e.1 e'.1 ≠ .gt) ∧
    sorted.map Prod.snd = lines

variable {q} {entries : List Entry} {lines : List TextRow} {limit offset : Option Nat}
  {r : QueryResult}

theorem shown_iff_readSlice (hLooks : q.Looks entries lines) (hShort : entries.length < 2 ^ 64)
    (hShown : r.shownRows = cutOut (limit.bind readable) ((offset.bind readable).getD 0) lines) :
    q.Shown limit offset entries r ↔ ReadSlice limit offset entries.length := by
  obtain ⟨sorted, hPerm, hSorted, rfl⟩ := hLooks
  have hLength : (sorted.map Prod.snd).length = entries.length := by
    rw [List.length_map, hPerm.length_eq]
  constructor
  · rintro ⟨sorted', hPerm', -, hSame⟩
    rw [hShown] at hSame
    rw [← hLength] at hShort ⊢
    refine readSlice_of_length ?_ hShort (congrArg List.length hSame)
    rw [hLength, List.length_map, hPerm'.length_eq]
  · intro hRead
    rw [← hLength] at hShort hRead
    exact ⟨sorted, hPerm, hSorted, hShown.trans (cutOut_of_readSlice hShort hRead)⟩

theorem shown_iff_wholeSlice (hLooks : q.Looks entries lines) (hShown : r.shownRows = lines) :
    q.Shown limit offset entries r ↔ WholeSlice limit offset entries.length := by
  obtain ⟨sorted, hPerm, hSorted, rfl⟩ := hLooks
  have hLength : (sorted.map Prod.snd).length = entries.length := by
    rw [List.length_map, hPerm.length_eq]
  constructor
  · rintro ⟨sorted', hPerm', -, hSame⟩
    have hLength' : (sorted'.map Prod.snd).length = entries.length := by
      rw [List.length_map, hPerm'.length_eq]
    rw [hShown] at hSame
    rw [← hLength', ← length_cutOut_eq_iff, ← hSame, hLength, hLength']
  · intro hWhole
    rw [← hLength] at hWhole
    exact ⟨sorted, hPerm, hSorted, hShown.trans (cutOut_of_wholeSlice hWhole).symm⟩

-- ---------------------------------------------------------------------------
-- Plain columns
-- ---------------------------------------------------------------------------

theorem toDisplay_valueAt (ci : Nat) (row : Row) :
    (valueAt ci row).toDisplay = row[ci]?.bind Value.toDisplay := by
  rw [valueAt]
  cases row[ci]? <;> rfl

section Plain

variable {cols : List Column} {ci : Nat} {S : Value → Prop} (hKey : q.key.scanColumn cols = some ci)

include hKey

theorem sortSource_key (rows : List Row) :
    sortSource cols q.orderBy rows =
      sortBy (fun a b => directed q.asc cmpPrinted (valueAt ci a) (valueAt ci b)) rows := by
  obtain ⟨n, hName, hPos⟩ := Option.bind_eq_some_iff.1 hKey
  have hCalled : exprName q.key [] = n := by
    cases hExpr : q.key with
    | identifier id =>
      rw [hExpr] at hName
      exact Option.some.inj hName
    | compoundIdentifier parts =>
      rw [hExpr] at hName
      have hLast : parts.getLast?.map Ident.value = some n := hName
      rw [exprName, hLast]
      rfl
    | _ =>
      rw [hExpr] at hName
      cases hName
  have hSort : sortSource cols q.orderBy rows =
      sortBy (directed q.asc fun a b : Row => cmpIntOrText ((a[ci]?.bind Value.toDisplay).getD [])
        ((b[ci]?.bind Value.toDisplay).getD [])) rows := by
    show (match columnPosition cols (exprName q.key []) with
      | some idx =>
        sortBy (directed q.asc fun a b : Row => cmpIntOrText ((a[idx]?.bind Value.toDisplay).getD [])
          ((b[idx]?.bind Value.toDisplay).getD [])) rows
      | none => rows) = _
    rw [hCalled, hPos]
  rw [hSort]
  congr 1
  funext a b
  simp only [directed, cmpPrinted, toDisplay_valueAt]

/-- **Plain columns** sorted by the source. -/
theorem looks_plain {rows : List Row} (hRows : ∀ row ∈ rows, S (valueAt ci row))
    (hServed : q.PlainServed cols ci S) :
    q.Looks (rows.map (q.plainEntry cols ci))
      ((sortSource cols q.orderBy rows).map (projectText (projCols cols q.projection))) := by
  have hNum : Std.TransCmp fun a b : Row => directed q.asc cmpPlace (valueAt ci a) (valueAt ci b) :=
    transCmp_key (valueAt ci)
  -- sorted rows are sorted entries
  have hEntries : ∀ {sorted : List Row}, sorted.Perm rows →
      sorted.Pairwise (fun a b => directed q.asc cmpPlace (valueAt ci a) (valueAt ci b) ≠ .gt) →
      sorted.map (projectText (projCols cols q.projection)) =
        (sortSource cols q.orderBy rows).map (projectText (projCols cols q.projection)) →
      q.Looks (rows.map (q.plainEntry cols ci))
        ((sortSource cols q.orderBy rows).map (projectText (projCols cols q.projection))) := by
    intro sorted hPerm hSorted hLines
    refine ⟨sorted.map (q.plainEntry cols ci), hPerm.map _, List.pairwise_map.2 hSorted, ?_⟩
    rw [List.map_map, ← hLines]
    rfl
  rcases hServed with hNone | hOrder
  · -- nothing is shown of any row
    have hSame : (sortSource cols q.orderBy rows).Pairwise fun a b =>
        directed q.asc cmpPlace (valueAt ci b) (valueAt ci a) = .lt →
          projectText (projCols cols q.projection) a = projectText (projCols cols q.projection) b := by
      rw [hNone]
      exact List.pairwise_of_forall fun a b _ => rfl
    obtain ⟨sorted, hPerm, hSorted, hLines⟩ := exists_sorted_of_pairwise hSame
    exact hEntries (hPerm.trans (perm_sortSource cols q.orderBy rows)) hSorted hLines
  · -- a row is told by its printed cell and its line
    let seen (row : Row) : Option Str × TextRow :=
      ((valueAt ci row).toDisplay, projectText (projCols cols q.projection) row)
    let cmpSeen (p s : Option Str × TextRow) : Ordering :=
      directed q.asc (fun a b : Option Str => cmpIntOrText (a.getD []) (b.getD [])) p.1 s.1
    have hCells : Std.OrientedCmp fun a b : Option Str => cmpIntOrText (a.getD []) (b.getD []) :=
      ⟨Std.OrientedCmp.eq_swap⟩
    have hSeen : Std.OrientedCmp cmpSeen := ⟨orientedCmp_directed.eq_swap⟩
    have hTold : ∀ a ∈ rows, ∀ b ∈ rows,
        directed q.asc cmpPlace (valueAt ci a) (valueAt ci b) = .lt →
        seen a = seen b ∨ cmpSeen (seen a) (seen b) = .lt := by
      intro a ha b hb hLt
      rcases hOrder _ _ (hRows a ha) (hRows b hb) hLt with hPrinted | ⟨hAlike, hOnly⟩
      · exact .inr hPrinted
      · refine .inl (Prod.ext hAlike (List.map_congr_left fun p hp => ?_))
        rw [hOnly p hp, ← toDisplay_valueAt, ← toDisplay_valueAt]
        exact hAlike
    obtain ⟨sorted, hPerm, hSorted, hSame⟩ := exists_sorted_map hTold
    refine hEntries hPerm hSorted ?_
    have hMap : (sortSource cols q.orderBy rows).map seen =
        (rows.map seen).insertionSort fun p s => cmpSeen p s ≠ .gt := by
      rw [sortSource_key hKey]
      exact List.map_insertionSort _ _ seen rows fun a _ b _ => Iff.rfl
    have hBoth := congrArg (List.map Prod.snd) (hSame.trans hMap.symm)
    rwa [List.map_map, List.map_map] at hBoth

end Plain

-- ---------------------------------------------------------------------------
-- Evaluated items
-- ---------------------------------------------------------------------------

/-- The lines of entries, sorted by the output called like the key. -/
theorem sortOutputs_key (cols : List Column) (rows : List TextRow) :
    sortOutputs cmpNullable ((q.outputs cols).map Prod.fst) q.orderBy rows =
      rows.insertionSort fun p s => q.cmpLine cols p s ≠ .gt := by
  show (match ((q.outputs cols).map Prod.fst).findIdx? fun n =>
      eqIgnoreAsciiCase n (exprToString q.key) with
    | some i => sortBy (directed q.asc fun a b => cmpNullable (a[i]?.join) (b[i]?.join)) rows
    | none => rows) = _
  cases hFind : ((q.outputs cols).map Prod.fst).findIdx? fun n =>
      eqIgnoreAsciiCase n (exprToString q.key) with
  | some i =>
    have hLine : q.cmpLine cols =
        directed q.asc fun a b : TextRow => cmpNullable (a[i]?.join) (b[i]?.join) :=
      funext₂ fun p s => by rw [cmpLine, hFind]
    rw [hLine]
    rfl
  | none =>
    have hLine : q.cmpLine cols = fun _ _ => .eq := funext₂ fun p s => by rw [cmpLine, hFind]
    rw [hLine]
    -- with nothing to compare by, insertion keeps the order
    have hKeep : ∀ l : List TextRow, l.insertionSort (fun _ _ => Ordering.eq ≠ .gt) = l := by
      intro l
      induction l with
      | nil => rfl
      | cons a l ih =>
        rw [List.insertionSort_cons, ih]
        cases l <;> rfl
    exact (hKeep rows).symm

theorem lines_of_evaluatedEntries {now : Nat} {cols : List Column} {ci : Nat} {rows : List Row}
    (h : rows.mapM (q.evaluatedEntry now cols ci) = .ok entries) :
    rows.mapM (evalOutputs now cols (q.outputs cols)) = .ok (entries.map Prod.snd) := by
  induction rows generalizing entries with
  | nil =>
    obtain rfl := Except.ok.inj h
    rfl
  | cons row rows ih =>
    rw [List.mapM_cons] at h
    obtain ⟨e, hHead, h⟩ := ok_of_bind h
    obtain ⟨rest, hRest, hEq⟩ := ok_of_bind h
    obtain ⟨line, hLine, hEntry⟩ := ok_of_bind hHead
    obtain rfl := Except.ok.inj hEq
    obtain rfl := Except.ok.inj hEntry
    rw [List.mapM_cons, hLine, ih hRest]
    rfl

/-- **Evaluated items** sorted by an output. -/
theorem looks_evaluated {now : Nat} {cols : List Column} {ci : Nat} {S : Value → Prop}
    {rows : List Row} (hRows : ∀ row ∈ rows, Possible cols ci S row)
    (hServed : q.EvaluatedServed now cols ci S)
    (hEntries : rows.mapM (q.evaluatedEntry now cols ci) = .ok entries) :
    q.Looks entries
      (sortOutputs cmpNullable ((q.outputs cols).map Prod.fst) q.orderBy (entries.map Prod.snd)) := by
  have hNum : Std.TransCmp fun e e' : Entry => directed q.asc cmpPlace e.1 e'.1 := transCmp_key Prod.fst
  have hEach : ∀ e ∈ entries, ∃ row, Possible cols ci S row ∧ valueAt ci row = e.1 ∧
      evalOutputs now cols (q.outputs cols) row = .ok e.2 := by
    intro e he
    obtain ⟨row, hRow, hEval⟩ := forall₂_exists (forall₂_of_mapM hEntries).flip he
    obtain ⟨line, hLine, hEq⟩ := ok_of_bind hEval
    obtain rfl := Except.ok.inj hEq
    exact ⟨row, hRows row hRow, rfl, hLine⟩
  have hTold : ∀ e ∈ entries, ∀ e' ∈ entries, directed q.asc cmpPlace e.1 e'.1 = .lt →
      e.2 = e'.2 ∨ q.cmpLine cols e.2 e'.2 = .lt := by
    intro e he e' he' hLt
    obtain ⟨x, hx, hValue, hLine⟩ := hEach e he
    obtain ⟨y, hy, hValue', hLine'⟩ := hEach e' he'
    rw [← hValue, ← hValue'] at hLt
    exact hServed x y hx hy hLt e.2 e'.2 hLine hLine'
  obtain ⟨sorted, hPerm, hSorted, hSame⟩ := exists_sorted_map hTold
  exact ⟨sorted, hPerm, hSorted, hSame.trans (sortOutputs_key cols _).symm⟩

-- ---------------------------------------------------------------------------
-- Groups
-- ---------------------------------------------------------------------------

section Groups

variable {cols : List Column} {ci : Nat} {S : Value → Prop}

theorem possibleGroup_of_mem {rows : List Row} (hRows : ∀ row ∈ rows, Possible cols ci S row)
    {g : TextRow × List Row} (hg : g ∈ groupRows [ci] rows) : PossibleGroup cols ci S g.1 g.2 := by
  have hGrouped := grouped_groupRows [ci] rows
  have hMembers : ∀ row, row ∈ g.2 ↔ row ∈ rows ∧ shownCells [ci] row = g.1 := by
    intro row
    rw [hGrouped.members g hg, List.mem_filter, decide_eq_true_eq]
  refine ⟨?_, fun row hRow => ((hMembers row).1 hRow).2, fun row hRow => hRows row ((hMembers row).1 hRow).1⟩
  obtain ⟨row, hRow, hCells⟩ := (hGrouped.covered g.1).1 (List.mem_map_of_mem hg)
  exact List.ne_nil_of_mem ((hMembers row).2 ⟨hRow, hCells⟩)

/-- **Groups** in the order of their keys. -/
theorem looks_groups {rows : List Row} {having : Option Expr} {kept : List (TextRow × List Row)}
    (hRows : ∀ row ∈ rows, Possible cols ci S row) (hServed : q.GroupsServed cols ci S having)
    (hKept : (groupRows [ci] rows).filterM (fun g => q.keeps cols having g.2) = .ok kept) :
    q.Looks (kept.map (q.groupEntry cols ci)) ((kept.map (q.groupEntry cols ci)).map Prod.snd) := by
  have hNum : Std.TransCmp fun e e' : Entry => directed q.asc cmpPlace e.1 e'.1 := transCmp_key Prod.fst
  obtain rfl := Prog.eq_of_filterM hKept
  have hKeys : (groupRows [ci] rows).Pairwise fun g h => cmpKey g.1 h.1 = .lt :=
    List.pairwise_map.1 (grouped_groupRows [ci] rows).ordered
  have hKeep : ∀ g ∈ (groupRows [ci] rows).filter fun g => decide (q.keeps cols having g.2 = .ok true),
      PossibleGroup cols ci S g.1 g.2 ∧ q.keeps cols having g.2 = .ok true := by
    intro g hg
    obtain ⟨hIn, hTrue⟩ := List.mem_filter.1 hg
    exact ⟨possibleGroup_of_mem hRows hIn, of_decide_eq_true hTrue⟩
  refine exists_sorted_of_pairwise (List.pairwise_map.2 ?_)
  refine (hKeys.sublist List.filter_sublist).imp_of_mem fun {g h} hg hh hLt hBefore => ?_
  obtain ⟨hPossible, hTrue⟩ := hKeep g hg
  obtain ⟨hPossible', hTrue'⟩ := hKeep h hh
  rcases hServed h g hPossible' hPossible (ne_of_cmp_lt hLt).symm hTrue' hTrue hBefore with hSame | hLess
  · exact hSame.symm
  · rw [Std.OrientedCmp.gt_of_lt hLt] at hLess
    cases hLess

end Groups

-- ---------------------------------------------------------------------------
-- The ways through the query
-- ---------------------------------------------------------------------------

section Ways

variable {now : Nat} {t : Table} {ci : Nat} {S : Value → Prop} {w : Option Expr}
  (hKey : q.key.scanColumn t.columns = some ci)
  (hRows : ∀ row ∈ t.rows, Possible t.columns ci S row)

/-- A row at most is sorted. -/
theorem looks_one (hOne : entries.length ≤ 1) : q.Looks entries (entries.map Prod.snd) := by
  refine ⟨entries, List.Perm.refl _, ?_, rfl⟩
  rcases entries with _ | ⟨e, _ | ⟨e', rest⟩⟩
  · exact List.Pairwise.nil
  · exact List.pairwise_singleton ..
  · simp at hOne

/-- A looked-up row is shown, whatever the slice. -/
theorem shown_lookedUp {key : Str} (hLookup : lookupOf t w = .ok (some key))
    (hEntries : q.plainEntries now t ci w = .ok entries)
    (hRun : selectPlain now t none q.projection w q.orderBy (limit.map numeral) (offset.map numeral) =
      .ok r) :
    q.Shown limit offset entries r ↔ WholeSlice limit offset entries.length := by
  rw [plainEntries, hLookup] at hEntries
  obtain rfl := Except.ok.inj hEntries
  have hLines : plainRows now t q.projection w q.orderBy =
      .ok (((pkRow t key).toList.map (q.plainEntry t.columns ci)).map Prod.snd) := by
    rw [plainRows, hLookup, List.map_map]
    rfl
  obtain ⟨r', hResult, hShown⟩ := lookedUp_rows hLookup hLines none (limit.map numeral)
    (offset.map numeral)
  obtain rfl := Except.ok.inj (hRun.symm.trans hResult)
  refine shown_iff_wholeSlice (looks_one ?_) hShown
  rw [List.length_map]
  cases pkRow t key with
  | none => exact Nat.zero_le 1
  | some row => exact Nat.le_refl 1

include hKey hRows in
/-- Plain columns of the rows selected. -/
theorem shown_scanned (hLookup : lookupOf t w = .ok none) (hServed : q.PlainServed t.columns ci S)
    (hEntries : q.plainEntries now t ci w = .ok entries) (hShort : entries.length < 2 ^ 64)
    (hRun : selectPlain now t none q.projection w q.orderBy (limit.map numeral) (offset.map numeral) =
      .ok r) :
    q.Shown limit offset entries r ↔ ReadSlice limit offset entries.length := by
  rw [plainEntries, hLookup] at hEntries
  obtain ⟨key, hNone, hEntries⟩ := ok_of_bind hEntries
  obtain rfl := Except.ok.inj hNone
  obtain ⟨rows, hSelected, hEq⟩ := ok_of_bind hEntries
  obtain rfl := Except.ok.inj hEq
  have hLines : plainRows now t q.projection w q.orderBy = .ok ((sortSource t.columns q.orderBy rows).map
      (projectText (projCols t.columns q.projection))) := by
    rw [plainRows, hLookup]
    show (selectedRows now t w).bind _ = _
    rw [hSelected]
    rfl
  obtain ⟨r', hResult, hShown⟩ := scanned_rows hLookup hLines none (limit.map numeral)
    (offset.map numeral)
  obtain rfl := Except.ok.inj (hRun.symm.trans hResult)
  refine shown_iff_readSlice (looks_plain hKey (fun row hRow => ?_) hServed) hShort ?_
  · exact (hRows row (selectedRows_subset hSelected row hRow)).value
  · rw [hShown, literalOf_numeral, literalOf_numeral]
    rfl

include hRows in
/-- Evaluated items. -/
theorem shown_evaluated (hWindows : winItems (q.outputs t.columns) = [])
    (hServed : q.EvaluatedServed now t.columns ci S)
    (hEntries : q.evaluatedEntries now t ci w = .ok entries) (hShort : entries.length < 2 ^ 64)
    (hRun : selectExprs now t q.projection w q.orderBy (limit.map numeral) (offset.map numeral) = .ok r) :
    q.Shown limit offset entries r ↔ ReadSlice limit offset entries.length := by
  obtain ⟨rows, hKept, hEntries⟩ := ok_of_bind hEntries
  have hLines : evaluatedRows now t q.projection w q.orderBy =
      .ok (sortOutputs cmpNullable ((q.outputs t.columns).map Prod.fst) q.orderBy
        (entries.map Prod.snd)) := by
    rw [evaluatedRows, hKept]
    show (rows.mapM (evalOutputs now t.columns (q.outputs t.columns))).bind (fun lines =>
      .ok (sortOutputs cmpNullable ((q.outputs t.columns).map Prod.fst) q.orderBy
        ((winItems (q.outputs t.columns)).foldl
          (applyWindow ((q.outputs t.columns).map Prod.fst)) lines))) = _
    rw [lines_of_evaluatedEntries hEntries, hWindows]
    rfl
  obtain ⟨r', hResult, hShown⟩ := evaluated_rows hLines (limit.map numeral) (offset.map numeral)
  obtain rfl := Except.ok.inj (hRun.symm.trans hResult)
  refine shown_iff_readSlice (looks_evaluated (fun row hRow => ?_) hServed hEntries) hShort ?_
  · exact hRows row ((filterRows_sublist hKept).subset hRow)
  · rw [hShown, numberOf_numeral, numberOf_numeral]

include hRows in
/-- Groups are not cut. -/
theorem shown_groups {having : Option Expr} (hServed : q.GroupsServed t.columns ci S having)
    (hEntries : q.groupEntries now t ci w having = .ok entries)
    (hRun : ((filterRows now t.columns w t.rows).bind fun rows =>
      selectGroups t.columns [ci] q.projection having rows) = .ok r) :
    q.Shown limit offset entries r ↔ WholeSlice limit offset entries.length := by
  obtain ⟨rows, hKept, hEntries⟩ := ok_of_bind hEntries
  obtain ⟨kept, hHaving, hEq⟩ := ok_of_bind hEntries
  obtain rfl := Except.ok.inj hEq
  rw [hKept] at hRun
  have hGroups : selectGroups t.columns [ci] q.projection having rows = .ok r := hRun
  have hResult : selectGroups t.columns [ci] q.projection having rows =
      .ok (.rows (q.projection.map itemLabel)
        (kept.map fun g => q.projection.map (groupCell t.columns [ci] g.1 g.2))) := by
    show ((groupRows [ci] rows).filterM fun g => q.keeps t.columns having g.2).bind _ = _
    rw [hHaving]
    rfl
  obtain rfl := Except.ok.inj (hGroups.symm.trans hResult)
  refine shown_iff_wholeSlice (looks_groups (fun row hRow => ?_) hServed hHaving) ?_
  · exact hRows row ((filterRows_sublist hKept).subset hRow)
  · rw [List.map_map]
    rfl

end Ways

-- ---------------------------------------------------------------------------
-- The query answered
-- ---------------------------------------------------------------------------

theorem groupByCols_key {cols : List Column} {ci : Nat} (hKey : q.key.scanColumn cols = some ci)
    (hGrouping : q.grouping.isSome = true) : groupByCols cols q.groupBy = [ci] := by
  have hFound : (plainName q.key).bind (columnPosition cols) = some ci := by
    rw [← hKey, Expr.scanColumn]
    cases hExpr : q.key with
    | compoundIdentifier parts =>
      rw [hExpr] at hKey
      cases hLast : parts.getLast? with
      | none =>
        rw [Expr.scanColumn, Expr.columnName?, hLast] at hKey
        cases hKey
      | some last =>
        rw [plainName, Expr.columnName?, hLast]
        rfl
    | _ => rfl
  rw [groupBy, if_pos hGrouping]
  exact List.filterMap_cons_some hFound

/-- **The query answered.** Where the order is the one the query sorts by, what it
shows is right exactly when the slice is. -/
theorem shown_iff_sliceTaken {env : QueryEnv} {dbName db table : Str} {name : ObjectName} {t : Table}
    {ci : Nat} {S : Value → Prop} {w w' : Option Expr}
    (hKey : q.key.scanColumn t.columns = some ci) (hPerRow : q.PerRow t.columns)
    (hServed : q.OrderServed env.now t.columns ci S)
    (hTarget : resolveName dbName (ObjectName.toString name) = (db, table))
    (hTable : findTable env.databases db table [] [] = .ok t)
    (hRows : ∀ row ∈ t.rows, Possible t.columns ci S row)
    (hResolve : resolveSelection env db w = .ok w')
    (hEntries : q.entries env.now t ci w' = .ok entries) (hShort : entries.length < 2 ^ 64)
    (hRun : select env dbName (q.query name w limit offset) = .ok r) :
    q.Shown limit offset entries r ↔ q.SliceTaken t w' limit offset entries.length := by
  rw [query, select_tableQuery hTarget hTable, hResolve] at hRun
  have hAnswer : selectTable env.now t none q.projection w' q.groupBy q.grouping.join q.orderBy
      (limit.map numeral) (offset.map numeral) = .ok r := hRun
  rw [OrderServed] at hServed
  rw [OrderQuery.entries] at hEntries
  rw [SliceTaken]
  cases hGrouping : q.grouping with
  | some having =>
    have hBy := groupByCols_key hKey (by rw [hGrouping]; rfl)
    rw [hGrouping] at hServed hEntries hAnswer
    rw [selectTable_groups _ _ _ _ _ _ hPerRow.rows (by rw [hBy]; nofun), hBy] at hAnswer
    rw [shown_groups hRows hServed hEntries hAnswer]
    simp
  | none =>
    rw [hGrouping] at hServed hEntries
    have hBy : groupByCols t.columns q.groupBy = [] := by
      rw [groupBy, hGrouping]
      rfl
    by_cases hPlain : q.projection.all isPlainCol = true
    · simp only [hPlain, if_true] at hServed hEntries
      rw [selectTable_plain _ _ _ _ _ _ hPerRow.rows hBy hPlain] at hAnswer
      have hEntries' := hEntries
      rw [plainEntries] at hEntries'
      obtain ⟨found, hLookup, -⟩ := ok_of_bind hEntries'
      cases found with
      | some key =>
        have hLooksUp : LooksUp t q.projection w' := ⟨hPlain, key, hLookup⟩
        rw [shown_lookedUp hLookup hEntries hAnswer]
        simp [hLooksUp]
      | none =>
        have hNoLookup : ¬ LooksUp t q.projection w' := by
          rintro ⟨-, key, hFound⟩
          rw [hLookup] at hFound
          cases hFound
        rw [shown_scanned hKey hRows hLookup hServed hEntries hShort hAnswer]
        simp [hNoLookup]
    · simp only [hPlain] at hServed hEntries
      rw [selectTable_exprs _ _ _ _ _ _ hPerRow.rows hBy (by simpa using hPlain)] at hAnswer
      have hNoLookup : ¬ LooksUp t q.projection w' := fun h => hPlain h.1
      rw [shown_evaluated hRows (hPerRow.windows hGrouping) hServed hEntries hShort hAnswer]
      simp [hNoLookup]

-- ---------------------------------------------------------------------------
-- Tables that show the order
-- ---------------------------------------------------------------------------

/-- A row of a table of `width` columns. -/
def rowWith (width ci : Nat) (v other : Value) : Row := (List.replicate width other).set ci v

theorem valueAt_rowWith {width ci : Nat} (h : ci < width) (v other : Value) :
    valueAt ci (rowWith width ci v other) = v := by
  rw [valueAt, rowWith, List.getElem?_set_self (by rwa [List.length_replicate])]
  rfl

theorem possible_rowWith {cols : List Column} {ci : Nat} {S : Value → Prop} (h : ci < cols.length)
    {v : Value} (hv : S v) (other : Value) : Possible cols ci S (rowWith cols.length ci v other) := by
  refine ⟨?_, ?_⟩
  · rw [rowWith, List.length_set, List.length_replicate]
  · rwa [valueAt_rowWith h]

theorem columnPosition_lt {cols : List Column} {n : Str} {i : Nat}
    (h : columnPosition cols n = some i) : i < cols.length :=
  (List.findIdx?_eq_some_iff_getElem.1 h).1

/-- Only columns are projected. -/
theorem projCols_lt {cols : List Column} {projection : List SelectItem} {p : Str × Nat}
    (hp : p ∈ projCols cols projection) : p.2 < cols.length := by
  rw [projCols] at hp
  split at hp
  · obtain ⟨⟨c, i⟩, hc, rfl⟩ := List.mem_map.1 hp
    exact (List.mem_zipIdx' hc).1
  · obtain ⟨item, -, hItem⟩ := List.mem_filterMap.1 hp
    unfold projCol at hItem
    split at hItem
    · obtain ⟨i, hPos, rfl⟩ := Option.map_eq_some_iff.1 hItem
      exact columnPosition_lt hPos
    · obtain ⟨i, hPos, rfl⟩ := Option.map_eq_some_iff.1 hItem
      exact columnPosition_lt hPos
    · obtain ⟨i, hPos, rfl⟩ := Option.map_eq_some_iff.1 hItem
      exact columnPosition_lt hPos
    · cases hItem

/-- Two rows whose other columns hold 1 and 2 show it, unless they print alike
and nothing else is shown. -/
theorem projectText_rowWith_ne {cols : List Column} {ci : Nat} {a b : Value} (hci : ci < cols.length)
    {proj : List (Str × Nat)} (hBound : ∀ p ∈ proj, p.2 < cols.length) (hSome : proj ≠ [])
    (hTold : ¬ (a.toDisplay = b.toDisplay ∧ ∀ p ∈ proj, p.2 = ci)) :
    projectText proj (rowWith cols.length ci a (.int 1)) ≠
      projectText proj (rowWith cols.length ci b (.int 2)) := by
  intro hSame
  have hCell : ∀ p ∈ proj, (rowWith cols.length ci a (.int 1))[p.2]?.bind Value.toDisplay =
      (rowWith cols.length ci b (.int 2))[p.2]?.bind Value.toDisplay :=
    List.map_inj_left.1 hSame
  have hOnly : ∀ p ∈ proj, p.2 = ci := by
    intro p hp
    by_contra hNe
    have hOther : ∀ v other : Value, (rowWith cols.length ci v other)[p.2]? = some other := by
      intro v other
      rw [rowWith, List.getElem?_set_ne (Ne.symm hNe), List.getElem?_replicate, if_pos (hBound p hp)]
    have hBad := hCell p hp
    rw [hOther, hOther] at hBad
    have hTexts : i64ToString 1 = i64ToString 2 := Option.some.inj hBad
    revert hTexts
    decide +kernel
  obtain ⟨p, hp⟩ := List.exists_mem_of_ne_nil _ hSome
  have hAlike := hCell p hp
  rw [hOnly p hp, ← toDisplay_valueAt, ← toDisplay_valueAt, valueAt_rowWith hci, valueAt_rowWith hci]
    at hAlike
  exact hTold ⟨hAlike, hOnly⟩

/-- Two groups stand in the order of their keys. -/
theorem groupRows_two {ci : Nat} {g h : TextRow × List Row} (hg : g.2 ≠ []) (hh : h.2 ≠ [])
    (hgKey : ∀ row ∈ g.2, shownCells [ci] row = g.1) (hhKey : ∀ row ∈ h.2, shownCells [ci] row = h.1)
    (hLt : cmpKey h.1 g.1 = .lt) : groupRows [ci] (g.2 ++ h.2) = [h, g] := by
  have hGrouped := grouped_groupRows [ci] (g.2 ++ h.2)
  have hNe : h.1 ≠ g.1 := ne_of_cmp_lt hLt
  have hKeys : (groupRows [ci] (g.2 ++ h.2)).map Prod.fst = [h.1, g.1] := by
    have hMem : ∀ k, k ∈ (groupRows [ci] (g.2 ++ h.2)).map Prod.fst ↔ k ∈ [h.1, g.1] := by
      intro k
      rw [hGrouped.covered, List.mem_pair]
      constructor
      · rintro ⟨row, hRow, rfl⟩
        rcases List.mem_append.1 hRow with hIn | hIn
        · exact .inr (hgKey row hIn)
        · exact .inl (hhKey row hIn)
      · rintro (rfl | rfl)
        · obtain ⟨row, hRow⟩ := List.exists_mem_of_ne_nil _ hh
          exact ⟨row, List.mem_append_right _ hRow, hhKey row hRow⟩
        · obtain ⟨row, hRow⟩ := List.exists_mem_of_ne_nil _ hg
          exact ⟨row, List.mem_append_left _ hRow, hgKey row hRow⟩
    have hNodup : ((groupRows [ci] (g.2 ++ h.2)).map Prod.fst).Nodup :=
      hGrouped.ordered.imp fun hLess => ne_of_cmp_lt hLess
    have hPerm := (List.perm_ext_iff_of_nodup hNodup (by simpa using hNe)).2 hMem
    have hPair : [h.1, g.1].Pairwise fun a b => cmpKey a b = .lt := by simpa using hLt
    refine hPerm.eq_of_pairwise (fun a b _ _ hab hba => ?_) hGrouped.ordered hPair
    rw [Std.OrientedCmp.gt_of_lt hab] at hba
    cases hba
  -- each group has the rows with its key
  have hAll : groupRows [ci] (g.2 ++ h.2) = ((groupRows [ci] (g.2 ++ h.2)).map Prod.fst).map
      fun k => (k, (g.2 ++ h.2).filter fun row => shownCells [ci] row = k) := by
    rw [List.map_map]
    refine ((List.map_congr_left fun p hp => ?_).trans (List.map_id _)).symm
    exact Prod.ext rfl (hGrouped.members p hp).symm
  have hFilter : ((g.2 ++ h.2).filter fun row => shownCells [ci] row = h.1) = h.2 := by
    rw [List.filter_append, List.filter_eq_nil_iff.2 (fun row hRow => by simp [hgKey row hRow, hNe.symm]),
      List.filter_eq_self.2 (fun row hRow => by simp [hhKey row hRow]), List.nil_append]
  have hFilter' : ((g.2 ++ h.2).filter fun row => shownCells [ci] row = g.1) = g.2 := by
    rw [List.filter_append, List.filter_eq_self.2 (fun row hRow => by simp [hgKey row hRow]),
      List.filter_eq_nil_iff.2 (fun row hRow => by simp [hhKey row hRow, hNe]), List.append_nil]
  rw [hAll, hKeys, List.map_cons, List.map_singleton, hFilter, hFilter']

/-- A database `test` with the table `t`. -/
def onlyTable (now : Nat) (cols : List Column) (rows : List Row) : QueryEnv where
  databases := HashMap.ofList [("test", ⟨"test",
    HashMap.ofList [("t", Table.create "test" "t" cols rows)]⟩)]
  lastInsertId := 0
  now := now

theorem resolveName_t : resolveName "test" (ObjectName.toString nameT) = (("test" : Str), ("t" : Str)) := rfl

variable (q) in
/-- The property and its condition, for every table with these columns, and every
condition and slice. -/
def ShownEverywhere (now : Nat) (cols : List Column) (ci : Nat) (S : Value → Prop) : Prop :=
  ∀ (env : QueryEnv) (dbName db table : Str) (name : ObjectName) (t : Table) (w w' : Option Expr)
    (limit offset : Option Nat) (entries : List Entry) (r : QueryResult),
    resolveName dbName (ObjectName.toString name) = (db, table) →
    findTable env.databases db table [] [] = .ok t → env.now = now → t.columns = cols →
    (∀ row ∈ t.rows, Possible cols ci S row) → resolveSelection env db w = .ok w' →
    q.entries now t ci w' = .ok entries → entries.length < 2 ^ 64 →
    select env dbName (q.query name w limit offset) = .ok r →
    (q.Shown limit offset entries r ↔ q.SliceTaken t w' limit offset entries.length)

section Converse

variable {now : Nat} {cols : List Column} {ci : Nat} {S : Value → Prop}
  (hKey : q.key.scanColumn cols = some ci) (hPerRow : q.PerRow cols)
  (hAll : q.ShownEverywhere now cols ci S)

include hAll

/-- Without a slice, the two entries of a table come out in order. -/
theorem shown_two {rows : List Row} {e e' : Entry} (hRows : ∀ row ∈ rows, Possible cols ci S row)
    (hEntries : q.entries now (Table.create "test" "t" cols rows) ci none = .ok [e', e])
    (hRun : selectTable now (Table.create "test" "t" cols rows) none q.projection none q.groupBy
      q.grouping.join q.orderBy none none = .ok r)
    (hLt : directed q.asc cmpPlace e.1 e'.1 = .lt) : r.shownRows = [e.2, e'.2] := by
  have hSelect : select (onlyTable now cols rows) "test" (q.query nameT none none none) = .ok r := by
    rw [query, select_tableQuery resolveName_t rfl]
    exact hRun
  have hSlice : q.SliceTaken (Table.create "test" "t" cols rows) none none none [e', e].length :=
    ⟨fun _ => .inr ⟨rfl, nofun⟩, fun _ => .inl (by decide)⟩
  obtain ⟨sorted, hPerm, hSorted, hShown⟩ := (hAll (onlyTable now cols rows) "test" "test" "t" nameT _
    none none none none _ r resolveName_t rfl rfl rfl hRows rfl hEntries (by simp) hSelect).2 hSlice
  have hNum : Std.TransCmp fun e e' : Entry => directed q.asc cmpPlace e.1 e'.1 := transCmp_key Prod.fst
  have hTwo : sorted = [e, e'] := @eq_pair_of_sorted _ _ hNum.toOrientedCmp _ _ hLt _ hPerm hSorted
  rw [hTwo] at hShown
  exact hShown

include hPerRow

theorem evaluatedServed_of_all (hGrouping : q.grouping = none)
    (hPlain : q.projection.all isPlainCol = false) : q.EvaluatedServed now cols ci S := by
  intro x y hx hy hLt p s hp hs
  by_contra hNot
  obtain ⟨hDiffer, hNot⟩ := not_or.1 hNot
  have hRows : ∀ row ∈ [y, x], Possible cols ci S row := by
    intro row hRow
    rcases List.mem_pair.1 hRow with rfl | rfl
    · exact hy
    · exact hx
  have hEntries : q.entries now (Table.create "test" "t" cols [y, x]) ci none =
      .ok [(valueAt ci y, s), (valueAt ci x, p)] := by
    rw [OrderQuery.entries, hGrouping]
    simp only [hPlain]
    show ([y, x] : List Row).mapM (q.evaluatedEntry now cols ci) = _
    have hEntry : q.evaluatedEntry now cols ci x = .ok (valueAt ci x, p) := by
      rw [evaluatedEntry, hp]
      rfl
    have hEntry' : q.evaluatedEntry now cols ci y = .ok (valueAt ci y, s) := by
      rw [evaluatedEntry, hs]
      rfl
    rw [List.mapM_cons, hEntry', List.mapM_cons, hEntry]
    rfl
  have hBy : groupByCols cols q.groupBy = [] := by
    rw [groupBy, hGrouping]
    rfl
  have hMap : ([y, x] : List Row).mapM (evalOutputs now cols (q.outputs cols)) = .ok [s, p] := by
    rw [List.mapM_cons, hs, List.mapM_cons, hp]
    rfl
  have hLines : evaluatedRows now (Table.create "test" "t" cols [y, x]) q.projection none q.orderBy =
      .ok (sortOutputs cmpNullable ((q.outputs cols).map Prod.fst) q.orderBy [s, p]) := by
    show (([y, x] : List Row).mapM (evalOutputs now cols (q.outputs cols))).bind (fun lines =>
      .ok (sortOutputs cmpNullable ((q.outputs cols).map Prod.fst) q.orderBy
        ((winItems (q.outputs cols)).foldl (applyWindow ((q.outputs cols).map Prod.fst)) lines))) = _
    rw [hMap, hPerRow.windows hGrouping]
    rfl
  obtain ⟨r, hRun, hShown⟩ := evaluated_rows hLines none none
  have hAnswer : selectTable now (Table.create "test" "t" cols [y, x]) none q.projection none q.groupBy
      q.grouping.join q.orderBy none none = .ok r := by
    rw [selectTable_exprs _ _ _ _ _ _ hPerRow.rows hBy hPlain]
    exact hRun
  have hRight := shown_two hAll hRows hEntries hAnswer hLt
  have hSorted : [s, p].insertionSort (fun p s => q.cmpLine cols p s ≠ .gt) = [p, s] := by
    rw [← sortOutputs_key, ← hRight, hShown]
    rfl
  refine hNot (cmp_lt_of_swapped (f := id) hDiffer ?_)
  rw [List.map_id]
  exact hSorted

include hKey in
theorem plainServed_of_all (hGrouping : q.grouping = none)
    (hPlain : q.projection.all isPlainCol = true) : q.PlainServed cols ci S := by
  by_contra hNot
  rw [PlainServed] at hNot
  push Not at hNot
  obtain ⟨hSome, a, b, ha, hb, hLt, hPrinted, hTold⟩ := hNot
  have hci : ci < cols.length := by
    obtain ⟨n, -, hPos⟩ := Option.bind_eq_some_iff.1 hKey
    exact columnPosition_lt hPos
  have hDiffer := projectText_rowWith_ne (a := a) (b := b) hci (fun p hp => projCols_lt hp) hSome
    (fun ⟨hAlike, hOnly⟩ => (hTold hAlike).elim fun p hp => hp.2 (hOnly p hp.1))
  generalize hx : rowWith cols.length ci a (.int 1) = x at hDiffer
  generalize hy : rowWith cols.length ci b (.int 2) = y at hDiffer
  have hValue : valueAt ci x = a := by rw [← hx, valueAt_rowWith hci]
  have hValue' : valueAt ci y = b := by rw [← hy, valueAt_rowWith hci]
  have hRows : ∀ row ∈ [y, x], Possible cols ci S row := by
    intro row hRow
    rcases List.mem_pair.1 hRow with rfl | rfl
    · rw [← hy]
      exact possible_rowWith hci hb _
    · rw [← hx]
      exact possible_rowWith hci ha _
  have hEntries : q.entries now (Table.create "test" "t" cols [y, x]) ci none =
      .ok [q.plainEntry cols ci y, q.plainEntry cols ci x] := by
    rw [OrderQuery.entries, hGrouping]
    simp only [hPlain]
    rfl
  have hBy : groupByCols cols q.groupBy = [] := by
    rw [groupBy, hGrouping]
    rfl
  obtain ⟨r, hRun, hShown⟩ := scanned_rows (t := Table.create "test" "t" cols [y, x]) (w := none) rfl
    (show plainRows now _ q.projection none q.orderBy = .ok ((sortSource cols q.orderBy [y, x]).map
      (projectText (projCols cols q.projection))) from rfl) none none none
  have hAnswer : selectTable now (Table.create "test" "t" cols [y, x]) none q.projection none q.groupBy
      q.grouping.join q.orderBy none none = .ok r := by
    rw [selectTable_plain _ _ _ _ _ _ hPerRow.rows hBy hPlain]
    exact hRun
  have hBefore : directed q.asc cmpPlace (q.plainEntry cols ci x).1 (q.plainEntry cols ci y).1 = .lt := by
    show directed q.asc cmpPlace (valueAt ci x) (valueAt ci y) = .lt
    rw [hValue, hValue']
    exact hLt
  have hRight := shown_two hAll hRows hEntries hAnswer hBefore
  have hRowCmp : Std.OrientedCmp fun a b : Row =>
      directed q.asc cmpPrinted (valueAt ci a) (valueAt ci b) := ⟨orientedCmp_directed.eq_swap⟩
  have hSorted : ([y, x].insertionSort fun a b =>
      directed q.asc cmpPrinted (valueAt ci a) (valueAt ci b) ≠ .gt).map
        (projectText (projCols cols q.projection)) =
      [projectText (projCols cols q.projection) x, projectText (projCols cols q.projection) y] := by
    have hSource : (sortSource cols q.orderBy [y, x]).map (projectText (projCols cols q.projection)) =
        [projectText (projCols cols q.projection) x, projectText (projCols cols q.projection) y] :=
      hShown.symm.trans hRight
    rwa [sortSource_key hKey] at hSource
  have hLess := cmp_lt_of_swapped hDiffer hSorted
  rw [hValue, hValue'] at hLess
  exact hPrinted hLess

include hKey in
theorem groupsServed_of_all {having : Option Expr} (hGrouping : q.grouping = some having) :
    q.GroupsServed cols ci S having := by
  intro g h hg hh hDiffer hKeep hKeep' hLt
  by_contra hNot
  obtain ⟨hLines, hNot⟩ := not_or.1 hNot
  have hKeys : cmpKey h.1 g.1 = .lt := by
    cases hCmp : cmpKey g.1 h.1 with
    | lt => exact absurd hCmp hNot
    | eq => exact absurd (Std.LawfulEqCmp.eq_of_compare hCmp) hDiffer
    | gt => exact Std.OrientedCmp.lt_of_gt hCmp
  have hGroups := groupRows_two hg.some_row hh.some_row hg.key hh.key hKeys
  have hKept : (groupRows [ci] (g.2 ++ h.2)).filterM (fun g => q.keeps cols having g.2) = .ok [h, g] := by
    rw [hGroups, Prog.filterM_ok (b := fun _ => true) fun p hp => ?_, List.filter_true]
    rcases List.mem_pair.1 hp with rfl | rfl
    · exact hKeep'
    · exact hKeep
  have hRows : ∀ row ∈ g.2 ++ h.2, Possible cols ci S row := by
    intro row hRow
    rcases List.mem_append.1 hRow with hIn | hIn
    · exact hg.possible row hIn
    · exact hh.possible row hIn
  have hEntries : q.entries now (Table.create "test" "t" cols (g.2 ++ h.2)) ci none =
      .ok [q.groupEntry cols ci h, q.groupEntry cols ci g] := by
    rw [OrderQuery.entries, hGrouping]
    show ((groupRows [ci] (g.2 ++ h.2)).filterM fun g => q.keeps cols having g.2).bind _ = _
    rw [hKept]
    rfl
  have hBy := groupByCols_key hKey (by rw [hGrouping]; rfl)
  have hAnswer : selectTable now (Table.create "test" "t" cols (g.2 ++ h.2)) none q.projection none
      q.groupBy q.grouping.join q.orderBy none none =
      .ok (.rows (q.projection.map itemLabel)
        ([h, g].map fun g => q.projection.map (groupCell cols [ci] g.1 g.2))) := by
    have hBy' : groupByCols (Table.create "test" "t" cols (g.2 ++ h.2)).columns q.groupBy = [ci] := hBy
    rw [selectTable_groups _ _ _ _ _ _ hPerRow.rows (by rw [hBy']; nofun), hBy', hGrouping]
    show ((groupRows [ci] (g.2 ++ h.2)).filterM fun g => q.keeps cols having g.2).bind _ = _
    rw [hKept]
    rfl
  have hRight := shown_two hAll hRows hEntries hAnswer hLt
  exact hLines (List.cons.inj hRight).1.symm

include hKey in
theorem orderServed_of_all : q.OrderServed now cols ci S := by
  rw [OrderServed]
  cases hGrouping : q.grouping with
  | some having => exact groupsServed_of_all hKey hPerRow hAll hGrouping
  | none =>
    cases hPlain : q.projection.all isPlainCol with
    | true => exact plainServed_of_all hKey hPerRow hAll hGrouping hPlain
    | false => exact evaluatedServed_of_all hPerRow hAll hGrouping hPlain

end Converse

/-- **ORDER BY.** For tables whose column has values from `S`, the query shows what
it selects in numeric order of the column, exactly when it takes the slice asked
for: this holds of all of them exactly when its own order puts first what numeric
order does. -/
theorem ordered_iff (q : OrderQuery) {cols : List Column} {ci : Nat}
    (hKey : q.key.scanColumn cols = some ci) (hPerRow : q.PerRow cols) (now : Nat) (S : Value → Prop) :
    q.ShownEverywhere now cols ci S ↔ q.OrderServed now cols ci S := by
  constructor
  · exact orderServed_of_all hKey hPerRow
  · rintro hServed env dbName db table name t w w' limit offset entries r hTarget hTable rfl rfl hRows
      hResolve hEntries hShort hRun
    exact shown_iff_sliceTaken hKey hPerRow hServed hTarget hTable hRows hResolve hEntries hShort hRun

end OrderQuery

-- ---------------------------------------------------------------------------
-- Integers
-- ---------------------------------------------------------------------------

/-- Integers and NULL. -/
def IntOrNull (v : Value) : Prop := v = .null ∨ ∃ n, v = .int n

theorem cmpPlace_int (a b : Int64) : cmpPlace (.int a) (.int b) = cmpInt64 a b := by
  have hLt : ∀ {a b : Int64}, a < b → cmpPlace (.int a) (.int b) = .lt := by
    intro a b h
    have hInt : (a.toInt : ℚ) < b.toInt := Rat.intCast_lt_intCast.2 (Int64.lt_iff_toInt_lt.1 h)
    exact compare_lt_iff_lt.2 (WithBot.coe_lt_coe.2 (WithBot.coe_lt_coe.2 (WithTop.coe_lt_coe.2 hInt)))
  rw [cmpInt64]
  by_cases hAB : a < b
  · rw [if_pos hAB, hLt hAB]
  · by_cases hBA : b < a
    · rw [if_neg hAB, if_pos hBA, Std.OrientedCmp.gt_of_lt (hLt hBA)]
    · have hEq : a = b := Int64.le_antisymm (Int64.not_lt.1 hBA) (Int64.not_lt.1 hAB)
      rw [if_neg hAB, if_neg hBA, hEq]
      exact Std.ReflCmp.compare_self

theorem cmpPrinted_int (a b : Int64) : cmpPrinted (.int a) (.int b) = cmpInt64 a b := by
  show cmpIntOrText (i64ToString a) (i64ToString b) = _
  rw [cmpIntOrText, parseI64_i64ToString, parseI64_i64ToString]

theorem cmpPrinted_null_int (n : Int64) : cmpPrinted .null (.int n) = .lt := by
  show cmpIntOrText [] (i64ToString n) = _
  have hEmpty : parseI64 [] = none := by decide +kernel
  rw [cmpIntOrText, hEmpty]
  cases hText : i64ToString n with
  | nil =>
    have hParse := parseI64_i64ToString n
    rw [hText, hEmpty] at hParse
    cases hParse
  | cons c s => rfl

/-- Integers and NULL are printed in their order. -/
theorem cmpPrinted_eq_cmpPlace {a b : Value} (ha : IntOrNull a) (hb : IntOrNull b) :
    cmpPrinted a b = cmpPlace a b := by
  have hNull : ∀ n : Int64, cmpPlace .null (.int n) = .lt := fun n =>
    compare_lt_iff_lt.2 (WithBot.bot_lt_coe _)
  rcases ha with rfl | ⟨n, rfl⟩ <;> rcases hb with rfl | ⟨m, rfl⟩
  · exact Std.ReflCmp.compare_self.trans Std.ReflCmp.compare_self.symm
  · rw [cmpPrinted_null_int, hNull]
  · rw [Std.OrientedCmp.gt_of_lt (cmpPrinted_null_int n), Std.OrientedCmp.gt_of_lt (hNull n)]
  · rw [cmpPrinted_int, cmpPlace_int]

/-- Plain columns are sorted right by a column of integers and NULL. -/
theorem plainServed_of_ints (q : OrderQuery) (cols : List Column) (ci : Nat) :
    q.PlainServed cols ci IntOrNull := by
  refine .inr fun a b ha hb hLt => .inl ?_
  rw [directed, cmpPrinted_eq_cmpPlace ha hb]
  exact hLt

end OrderedRows

-- ---------------------------------------------------------------------------
-- Two rows
-- ---------------------------------------------------------------------------

section TwoRows

local instance orderPlatform : Platform := tablePlatform []

/-- t(a), with 9 and 10. -/
def nineTen : List Row := [[.int 9], [.int 10]]

/-- `SELECT a FROM t [GROUP BY a] ORDER BY a`. -/
def byA (grouping : Option (Option Expr)) (direction : Option Bool) : OrderQuery :=
  ⟨[.unnamedExpr (.identifier ⟨"a", none⟩)], grouping, .identifier ⟨"a", none⟩, direction⟩

theorem perRow_byA (grouping : Option (Option Expr)) (direction : Option Bool) :
    (byA grouping direction).PerRow (tableA nineTen).columns := by
  refine ⟨?_, fun _ => rfl⟩
  cases grouping <;> rfl

theorem possible_nineTen : ∀ row ∈ (tableA nineTen).rows,
    OrderQuery.Possible (tableA nineTen).columns 0 IntOrNull row := by
  intro row hRow
  rcases List.mem_pair.1 hRow with rfl | rfl
  · exact ⟨rfl, .inr ⟨9, rfl⟩⟩
  · exact ⟨rfl, .inr ⟨10, rfl⟩⟩

/-- `ORDER BY a DESC LIMIT 1` shows 10. -/
theorem ordered_iff_desc : ∃ r, select ((oneTable nineTen).env 0) "test"
      ((byA none (some false)).query nameT none (some 1) none) = .ok r ∧
    (byA none (some false)).Shown (some 1) none [(.int 9, [some "9"]), (.int 10, [some "10"])] r := by
  have hRun : select ((oneTable nineTen).env 0) "test"
      ((byA none (some false)).query nameT none (some 1) none) = .ok (.rows ["a"] [[some "10"]]) := by
    decide +kernel
  refine ⟨_, hRun, ?_⟩
  refine ((OrderQuery.ordered_iff (byA none (some false)) rfl (perRow_byA _ _) 0 IntOrNull).2
    (plainServed_of_ints _ _ 0) ((oneTable nineTen).env 0) "test" "test" "t" nameT (tableA nineTen) none
    none (some 1) none _ _ resolveName_nameT rfl rfl rfl possible_nineTen rfl (by decide +kernel)
    (by decide) hRun).2 ⟨?_, fun _ => .inl (by decide)⟩
  rintro (hGrouped | ⟨-, key, hLookup⟩)
  · cases hGrouped
  · cases hLookup

/-- With GROUP BY a, 10 comes first. -/
theorem not_ordered : ¬ ∀ (q : OrderQuery) (env : QueryEnv) (dbName db table : Str) (name : ObjectName)
    (t : Table) (ci : Nat) (w w' : Option Expr) (limit offset : Option Nat)
    (entries : List OrderQuery.Entry) (r : QueryResult),
    q.key.scanColumn t.columns = some ci → q.PerRow t.columns →
    resolveName dbName (ObjectName.toString name) = (db, table) →
    findTable env.databases db table [] [] = .ok t → t.FullWidth →
    (∀ row ∈ t.rows, (valueAt ci row).place.isSome) → resolveSelection env db w = .ok w' →
    q.entries env.now t ci w' = .ok entries → entries.length < 2 ^ 64 →
    select env dbName (q.query name w limit offset) = .ok r → q.Shown limit offset entries r := by
  intro hAll
  have hRun : select ((oneTable nineTen).env 0) "test"
      ((byA (some none) none).query nameT none none none) =
        .ok (.rows ["a"] [[some "10"], [some "9"]]) := by
    decide +kernel
  have hWidth : (tableA nineTen).FullWidth := fun row hRow => (possible_nineTen row hRow).width
  have hPlaces : ∀ row ∈ (tableA nineTen).rows, (valueAt 0 row).place.isSome = true := by
    decide +kernel
  have hEntries : (byA (some none) none).entries 0 (tableA nineTen) 0 none =
      .ok [(.int 10, [some "10"]), (.int 9, [some "9"])] := by
    decide +kernel
  obtain ⟨sorted, hPerm, hSorted, hShown⟩ := hAll (byA (some none) none) ((oneTable nineTen).env 0) "test"
    "test" "t" nameT (tableA nineTen) 0 none none none none _ _ rfl (perRow_byA _ _) resolveName_nameT
    rfl hWidth hPlaces rfl hEntries (by decide) hRun
  have hNum : Std.OrientedCmp fun e e' : OrderQuery.Entry => directed true cmpPlace e.1 e'.1 :=
    ⟨OrderQuery.orientedCmp_directed.eq_swap⟩
  let nine : OrderQuery.Entry := (.int 9, [some "9"])
  let ten : OrderQuery.Entry := (.int 10, [some "10"])
  have hRight : sorted = [nine, ten] :=
    @eq_pair_of_sorted _ _ hNum _ _ (by decide +kernel) _ hPerm hSorted
  rw [hRight] at hShown
  revert hShown
  decide

end TwoRows

end RunAlexDb
