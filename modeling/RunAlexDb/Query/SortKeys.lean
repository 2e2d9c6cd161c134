import RunAlexDb.Lib.KeyedSorts
import RunAlexDb.Query.ValueOrders

/-!
# SortKeys — ORDER BY over the source columns

Both loops sort stably by one key after the other, the last key first, and leave out
keys that are no columns. Where each key's comparison is a total preorder on the cells
of the rows, the rows come out in the lexicographic order of the keys, with ties in the
order they had.

Main result: `sortSource_sortedStably`.
-/

namespace RunAlexDb

open Text Platform TotalPreorders KeyedSorts

section SortKeys

variable [Platform]

/-- Place and direction of a key that is a column. -/
def sortKey (cols : List Column) (oe : OrderByExpr) : Option (Nat × Bool) :=
  (columnPosition cols (exprName oe.expr [])).map fun idx => (idx, oe.asc)

/-- What a row shows in a column, NULL and a missing cell as the empty text. -/
def sortCell (idx : Nat) (row : Row) : Str := (row[idx]?.bind Value.toDisplay).getD []

/-- The comparison of two rows by a key. -/
def compareKey (k : Nat × Bool) : Row → Row → Ordering :=
  directed k.2 fun a b => cmpIntOrText (sortCell k.1 a) (sortCell k.1 b)

/-- The loop of `select_joined`, which collects the keys before it sorts. -/
def sortJoined (cols : List Column) (exprs : List OrderByExpr) (rows : List Row) : List Row :=
  (exprs.reverse.filterMap (sortKey cols)).foldl (fun rows k => sortBy (compareKey k) rows) rows

/-- The keys that are columns, in the order of the clause. -/
def sortKeys (cols : List Column) (exprs : List OrderByExpr) : List (Nat × Bool) :=
  exprs.filterMap (sortKey cols)

theorem sortJoined_eq (cols : List Column) (exprs : List OrderByExpr) (rows : List Row) :
    sortJoined cols exprs rows = sortAll ((sortKeys cols exprs).map compareKey) rows := by
  unfold sortJoined sortAll sortKeys
  rw [List.filterMap_reverse, List.foldl_reverse, List.foldr_map]
  rfl

/-- The loop of `select` does the same key by key. -/
theorem sortSource_eq (cols : List Column) (exprs : List OrderByExpr) (rows : List Row) :
    sortSource cols (some (.expressions exprs)) rows =
      sortAll ((sortKeys cols exprs).map compareKey) rows := by
  unfold sortSource sortAll sortKeys
  dsimp only
  rw [List.foldl_reverse]
  induction exprs with
  | nil => rfl
  | cons oe exprs ih =>
    rw [List.foldr_cons, ih, List.filterMap_cons]
    unfold sortKey
    cases columnPosition cols (exprName oe.expr []) with
    | none => rfl
    | some idx => rfl

/-- Reversing for DESC keeps the order of the cells. -/
theorem totalPreorderOn_compareKey {k : Nat × Bool} {rows : List Row}
    (h : TotalPreorderOn cmpIntOrText {s | ∃ row ∈ rows, sortCell k.1 row = s}) :
    TotalPreorderOn (compareKey k) {row | row ∈ rows} := by
  have hCells := h.compareBy (T := {row | row ∈ rows}) fun row hRow => ⟨row, hRow, rfl⟩
  unfold compareKey directed
  cases k.2 with
  | true => exact hCells
  | false => exact hCells.reverse

/-- **ORDER BY.** Where each key's comparison is a total preorder on the cells of the
rows, both loops sort the rows stably by the keys that are columns. -/
theorem sortSource_sortedStably (cols : List Column) (exprs : List OrderByExpr) (rows : List Row)
    (h : ∀ k ∈ sortKeys cols exprs,
      TotalPreorderOn cmpIntOrText {s | ∃ row ∈ rows, sortCell k.1 row = s}) :
    SortedStably (compareAll ((sortKeys cols exprs).map compareKey)) rows
        (sortSource cols (some (.expressions exprs)) rows) ∧
      sortJoined cols exprs rows = sortSource cols (some (.expressions exprs)) rows := by
  rw [sortSource_eq, sortJoined_eq]
  refine ⟨sortedStably_sortAll fun cmp hcmp => ?_, rfl⟩
  obtain ⟨k, hk, rfl⟩ := List.mem_map.1 hcmp
  exact totalPreorderOn_compareKey (h k hk)

/-- Cells that are all numbers, or none of them, are in order. -/
theorem totalPreorderOn_sortCells {idx : Nat} {rows : List Row}
    (h : (∀ row ∈ rows, (parseI64 (sortCell idx row)).isSome) ∨
      ∀ row ∈ rows, (parseI64 (sortCell idx row)).isNone) :
    TotalPreorderOn cmpIntOrText {s | ∃ row ∈ rows, sortCell idx row = s} := by
  refine cmpIntOrText_iff.2 ?_
  rintro _ ⟨row, hRow, rfl⟩ b hb x y hx hy hLe _ ⟨row', hRow', rfl⟩ hNone
  rcases h with hSome | hWords
  · have hNumber := hSome row' hRow'
    rw [hNone] at hNumber
    exact absurd hNumber Bool.false_ne_true
  · have hWord := hWords row hRow
    rw [hx] at hWord
    exact absurd hWord Bool.false_ne_true

end SortKeys

local instance keyPlatform : Platform := tablePlatform []

def columnsAB : List Column := [⟨"a", .int, true, false⟩, ⟨"b", .text, true, false⟩]

/-- `ORDER BY b DESC, c, a`, where `c` is no column. -/
def byBA : List OrderByExpr :=
  [.mk (.identifier ⟨"b", none⟩) (some false), .mk (.identifier ⟨"c", none⟩) none,
    .mk (.identifier ⟨"a", none⟩) none]

def rowsAB : List Row := [[.int 10, .text "x"], [.int 9, .text "x"], [.int 10, .text "y"]]

theorem sortSource_sortedStably_rowsAB :
    SortedStably (compareAll ((sortKeys columnsAB byBA).map compareKey)) rowsAB
        (sortSource columnsAB (some (.expressions byBA)) rowsAB) ∧
      sortJoined columnsAB byBA rowsAB = sortSource columnsAB (some (.expressions byBA)) rowsAB := by
  refine sortSource_sortedStably columnsAB byBA rowsAB fun k hk => totalPreorderOn_sortCells ?_
  have hKeys : sortKeys columnsAB byBA = [(1, false), (0, true)] := by decide
  rw [hKeys] at hk
  rcases List.mem_pair.1 hk with rfl | rfl
  · exact .inr (by decide)
  · exact .inl (by decide)

example : sortSource columnsAB (some (.expressions byBA)) rowsAB =
    [[.int 10, .text "y"], [.int 9, .text "x"], [.int 10, .text "x"]] := by decide

end RunAlexDb
