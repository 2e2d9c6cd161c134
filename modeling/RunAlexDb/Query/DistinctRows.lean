import RunAlexDb.Query.PreparedSelect
import RunAlexDb.Query.Subqueries

/-!
# DistinctRows — SELECT DISTINCT over one table

Duplicates are removed on one way only, a projection of plain columns that is
sorted or cut, and there after OFFSET and LIMIT. A row looked up by its key is
neither skipped nor cut.

Main result: `distinct_iff`.
-/

set_option linter.unusedSectionVars false

namespace RunAlexDb

open Text Platform

-- ---------------------------------------------------------------------------
-- The slice of a query
-- ---------------------------------------------------------------------------

section Slice

variable {α : Type} [BEq α] [LawfulBEq α]

/-- The slice the engine cuts before it removes duplicates is the one asked for:
`SliceKept`, and a number it does not read makes no difference. -/
def SliceServed (limit offset : Option Nat) (rows : List α) : Prop :=
  if offset.getD 0 < 2 ^ 64 then
    SliceKept (limit.bind readable) (offset.getD 0) rows ∧
      ∀ n, limit = some n → 2 ^ 64 ≤ n → (rows.drop (offset.getD 0)).eraseDups.length ≤ n
  else rows = [] ∨ limit = some 0

theorem readable_getD {offset : Option Nat} (h : offset.getD 0 < 2 ^ 64) :
    (offset.bind readable).getD 0 = offset.getD 0 := by
  cases offset with
  | none => rfl
  | some m =>
    have hm : m < 2 ^ 64 := h
    rw [Option.bind_some, readable, if_pos hm]

/-- No more elements are left behind an offset when duplicates go first. -/
theorem length_drop_eraseDups (offset : Nat) (rows : List α) :
    (rows.eraseDups.drop offset).length ≤ (rows.drop offset).eraseDups.length := by
  have hSubset : rows.eraseDups.drop offset ⊆ (rows.drop offset).eraseDups := by
    intro x hx
    rw [← List.take_append_drop offset rows, List.eraseDups_append] at hx
    have hShort : (rows.take offset).eraseDups.length ≤ offset :=
      (eraseDups_sublist _).length_le.trans (List.length_take_le ..)
    have hRest : x ∈ ((rows.drop offset).removeAll (rows.take offset)).eraseDups := by
      rw [List.drop_append, List.drop_eq_nil_of_le hShort, List.nil_append] at hx
      exact (List.drop_sublist ..).subset hx
    exact List.mem_eraseDups.2 (mem_removeAll.1 (List.mem_eraseDups.1 hRest)).1
  have hNodup := (nodup_eraseDups rows).sublist (List.drop_sublist offset _)
  exact (List.subperm_of_subset hNodup hSubset).length_le

theorem sliceServed_iff (limit offset : Option Nat) (rows : List α) :
    (cutOut (limit.bind readable) ((offset.bind readable).getD 0) rows).eraseDups =
        cutOut limit (offset.getD 0) rows.eraseDups ↔
      SliceServed limit offset rows := by
  rw [SliceServed]
  by_cases hOffset : offset.getD 0 < 2 ^ 64
  · rw [if_pos hOffset, readable_getD hOffset, ← eraseDups_cutOut_iff]
    by_cases hLimit : ∃ n, limit = some n ∧ 2 ^ 64 ≤ n
    · obtain ⟨n, rfl, hn⟩ := hLimit
      have hUnread : (some n).bind readable = none := if_neg (by omega)
      have hMore := length_drop_eraseDups (offset.getD 0) rows
      rw [hUnread]
      show (rows.drop (offset.getD 0)).eraseDups = (rows.eraseDups.drop (offset.getD 0)).take n ↔
        (rows.drop (offset.getD 0)).eraseDups = rows.eraseDups.drop (offset.getD 0) ∧ _
      constructor
      · intro h
        have hLength := congrArg List.length h
        rw [List.length_take] at hLength
        have hAll : (rows.eraseDups.drop (offset.getD 0)).length ≤ n := by omega
        rw [List.take_of_length_le hAll] at h
        refine ⟨h, fun k hk _ => ?_⟩
        obtain rfl := Option.some.inj hk
        rwa [h]
      · rintro ⟨h, hLe⟩
        have hFits := hLe n rfl hn
        rw [h] at hFits ⊢
        exact (List.take_of_length_le hFits).symm
    · have hRead : limit.bind readable = limit := by
        cases limit with
        | none => rfl
        | some n =>
          have hn : n < 2 ^ 64 := by
            by_contra hNot
            exact hLimit ⟨n, rfl, by omega⟩
          exact if_pos hn
      rw [hRead]
      refine (and_iff_left fun n hn hLarge => ?_).symm
      exact absurd ⟨n, hn, hLarge⟩ hLimit
  · rw [if_neg hOffset]
    obtain ⟨m, rfl, hm⟩ : ∃ m, offset = some m ∧ 2 ^ 64 ≤ m := by
      cases offset with
      | none => exact absurd (by decide) hOffset
      | some m => exact ⟨m, rfl, Nat.le_of_not_lt hOffset⟩
    have hUnread : (some m).bind readable = none := if_neg (by omega)
    rw [hUnread]
    show (cutOut (limit.bind readable) 0 rows).eraseDups = cutOut limit m rows.eraseDups ↔ _
    by_cases hZero : limit = some 0
    · rw [hZero]
      exact iff_of_true rfl (.inr rfl)
    cases rows with
    | nil =>
      have hNil : ∀ (n : Option Nat) (k : Nat), cutOut n k ([] : List α) = [] := fun n k =>
        (cutOut_eq_nil_iff n k []).2 (.inr (Nat.zero_le k))
      rw [List.eraseDups_nil, hNil, hNil]
      exact iff_of_true rfl (.inl rfl)
    | cons x rows =>
      refine iff_of_false (fun h => ?_) (by simp [hZero])
      -- the first row comes back, though it is skipped
      have hFirst : x ∈ cutOut (limit.bind readable) 0 (x :: rows) := by
        cases limit with
        | none => exact List.mem_cons_self ..
        | some n =>
          obtain ⟨k, rfl⟩ : ∃ k, n = k + 1 := ⟨n - 1, by
            have : n ≠ 0 := fun hn => hZero (congrArg some hn)
            omega⟩
          rw [Option.bind_some, readable]
          split <;> exact List.mem_cons_self ..
      have hSkipped : x ∈ cutOut limit m ((x :: rows).eraseDups) := h ▸ List.mem_eraseDups.2 hFirst
      have hNodup := nodup_eraseDups (x :: rows)
      rw [List.eraseDups_cons] at hSkipped hNodup
      obtain ⟨k, rfl⟩ : ∃ k, m = k + 1 := ⟨m - 1, by omega⟩
      exact (List.nodup_cons.1 hNodup).1 ((cutOut_sublist limit k _).subset hSkipped)

end Slice

section DistinctRows

variable [Platform]

-- ---------------------------------------------------------------------------
-- What DISTINCT asks
-- ---------------------------------------------------------------------------

/-- The rows of a result, as they are shown. -/
def QueryResult.shownRows : QueryResult → List TextRow
  | .rows _ shown => shown
  | .valueRows _ cells => cells.map displayRow
  | _ => []

/-- Of the rows of `all` each once is in `whole`; `cut` is a slice of `whole`. -/
structure DistinctShown (limit offset : Option Nat) (all whole cut : QueryResult) : Prop where
  nodup : whole.shownRows.Nodup
  covered : ∀ row, row ∈ whole.shownRows ↔ row ∈ all.shownRows
  cut : cut.shownRows = cutOut limit (offset.getD 0) whole.shownRows

-- ---------------------------------------------------------------------------
-- When it is given
-- ---------------------------------------------------------------------------

/-- The rows of a projection of plain columns, sorted but not cut. -/
def plainRows (now : Nat) (t : Table) (projection : List SelectItem) (w : Option Expr)
    (orderBy : Option OrderByKind) : Rust (List TextRow) := do
  match ← lookupOf t w with
  | some key => return (pkRow t key).toList.map (projectText (projCols t.columns projection))
  | none => do
    let rows ← selectedRows now t w
    return (sortSource t.columns orderBy rows).map (projectText (projCols t.columns projection))

/-- The projected rows of a query, sorted but not cut. -/
def projectedRows (now : Nat) (t : Table) (projection : List SelectItem) (w : Option Expr)
    (orderBy : Option OrderByKind) : Rust (List TextRow) :=
  if projection.all isPlainCol then plainRows now t projection w orderBy
  else evaluatedRows now t projection w orderBy

/-- A query whose row is looked up by its key. -/
def LooksUp (t : Table) (projection : List SelectItem) (w : Option Expr) : Prop :=
  projection.all isPlainCol = true ∧ ∃ key, lookupOf t w = .ok (some key)

/-- A looked-up row is there, and neither skipped nor cut; otherwise the columns
are plain and sorted, or there are no duplicates, and the slice is served. -/
def DistinctServed (t : Table) (projection : List SelectItem) (w : Option Expr)
    (orderBy : Option OrderByKind) (limit offset : Option Nat) (rows : List TextRow) : Prop :=
  (LooksUp t projection w → rows = [] ∨ offset.getD 0 = 0 ∧ limit ≠ some 0) ∧
  (¬ LooksUp t projection w →
    (projection.all isPlainCol = true ∧ orderBy ≠ none ∨ rows.Nodup) ∧
      SliceServed limit offset rows)

-- ---------------------------------------------------------------------------
-- The ways through the query
-- ---------------------------------------------------------------------------

section Ways

variable {now : Nat} {t : Table} {projection : List SelectItem} {w : Option Expr}
  {orderBy : Option OrderByKind} {rows : List TextRow}

/-- A looked-up row, whatever DISTINCT, LIMIT and OFFSET say. -/
theorem lookedUp_rows {key : Str} (hKey : lookupOf t w = .ok (some key))
    (h : plainRows now t projection w orderBy = .ok rows) (distinct : Option Distinct)
    (limit offset : Option Expr) :
    ∃ r, selectPlain now t distinct projection w orderBy limit offset = .ok r ∧
      r.shownRows = rows := by
  rw [plainRows, hKey] at h
  obtain rfl := Except.ok.inj h
  rw [selectPlain_eq, hKey]
  exact ⟨_, rfl, rfl⟩

/-- A scan: duplicates go only when it is sorted or cut. -/
theorem scanned_rows (hKey : lookupOf t w = .ok none)
    (h : plainRows now t projection w orderBy = .ok rows) (distinct : Option Distinct)
    (limit offset : Option Expr) :
    ∃ r, selectPlain now t distinct projection w orderBy limit offset = .ok r ∧
      r.shownRows =
        if orderBy.isNone && limit.isNone && offset.isNone then rows
        else
          let cut := cutOut (literalOf limit) ((literalOf offset).getD 0) rows
          if distinct = some .distinct then cut.eraseDups else cut := by
  rw [plainRows, hKey] at h
  obtain ⟨pkKey, hNone, h⟩ := ok_of_bind h
  obtain rfl := Except.ok.inj hNone
  obtain ⟨found, hFound, hEq⟩ := ok_of_bind h
  obtain rfl := Except.ok.inj hEq
  rw [selectPlain_eq, hKey]
  simp only [Except.bind, hFound]
  refine ⟨_, rfl, ?_⟩
  by_cases hAsIs : (orderBy.isNone && limit.isNone && offset.isNone) = true
  · have hUnsorted : orderBy = none := by
      rw [Bool.and_eq_true, Bool.and_eq_true] at hAsIs
      exact Option.isNone_iff_eq_none.1 hAsIs.1.1
    rw [plainResult, if_pos hAsIs, if_pos hAsIs, hUnsorted]
    show (found.map _).map displayRow = found.map _
    rw [List.map_map]
    exact List.map_congr_left fun row _ => displayRow_cells _ row
  · rw [plainResult, if_neg hAsIs, if_neg hAsIs]
    show (if distinct = some .distinct then _ else _) = _
    rw [reverse_dedup_reverse]

/-- Evaluated items, whatever DISTINCT says. -/
theorem evaluated_rows (h : evaluatedRows now t projection w orderBy = .ok rows)
    (limit offset : Option Expr) :
    ∃ r, selectExprs now t projection w orderBy limit offset = .ok r ∧
      r.shownRows = cutOut (numberOf limit) ((numberOf offset).getD 0) rows := by
  rw [selectExprs_eq, h]
  exact ⟨_, rfl, rfl⟩

end Ways

-- ---------------------------------------------------------------------------
-- The four exits
-- ---------------------------------------------------------------------------

section Exits

variable {limit offset : Option Nat} {all whole cut : QueryResult} {rows : List TextRow}

/-- A row at most, whatever is asked for. -/
theorem distinctShown_one (hOne : rows.length ≤ 1) (hAll : all.shownRows = rows)
    (hWhole : whole.shownRows = rows) (hCut : cut.shownRows = rows) :
    DistinctShown limit offset all whole cut ↔
      rows = [] ∨ offset.getD 0 = 0 ∧ limit ≠ some 0 := by
  have hShown : DistinctShown limit offset all whole cut ↔
      rows = cutOut limit (offset.getD 0) rows := by
    constructor
    · intro h
      have hEq := h.cut
      rwa [hCut, hWhole] at hEq
    · intro h
      have hNodup : rows.Nodup := by
        match rows, hOne with
        | [], _ => exact List.nodup_nil
        | [row], _ => exact List.nodup_singleton row
      exact ⟨by rwa [hWhole], by rw [hWhole, hAll]; exact fun _ => Iff.rfl, by rw [hCut, hWhole, ← h]⟩
  rw [hShown]
  match rows, hOne with
  | [], _ =>
    exact iff_of_true ((cutOut_eq_nil_iff limit (offset.getD 0) ([] : List TextRow)).2
      (.inr (Nat.zero_le _))).symm (.inl rfl)
  | [row], _ =>
    have hEmpty := cutOut_eq_nil_iff limit (offset.getD 0) [row]
    constructor
    · intro h
      have hSome : ¬ (limit = some 0 ∨ [row].length ≤ offset.getD 0) := by
        rw [← hEmpty, ← h]
        exact List.cons_ne_nil row []
      rw [List.length_singleton] at hSome
      exact .inr ⟨by omega, fun hZero => hSome (.inl hZero)⟩
    · rintro (hNil | ⟨hOffset, hLimit⟩)
      · cases hNil
      · have hSome : cutOut limit (offset.getD 0) [row] ≠ [] := by
          rw [Ne, hEmpty, List.length_singleton]
          rintro (hZero | hSkip)
          · exact hLimit hZero
          · omega
        have hLength : [row].length ≤ (cutOut limit (offset.getD 0) [row]).length :=
          List.length_pos_iff.2 hSome
        exact ((cutOut_sublist ..).eq_of_length_le hLength).symm

/-- Duplicates are removed without LIMIT and OFFSET, or there are none. -/
theorem distinctShown_slice (hAll : all.shownRows = rows)
    (hWhole : whole.shownRows = rows.eraseDups)
    (hCut : cut.shownRows =
      (cutOut (limit.bind readable) ((offset.bind readable).getD 0) rows).eraseDups) :
    DistinctShown limit offset all whole cut ↔ SliceServed limit offset rows := by
  rw [← sliceServed_iff]
  constructor
  · intro h
    rw [← hCut, h.cut, hWhole]
  · intro h
    refine ⟨?_, fun row => ?_, ?_⟩
    · rw [hWhole]
      exact nodup_eraseDups rows
    · rw [hWhole, hAll]
      exact List.mem_eraseDups
    · rw [hCut, h, hWhole]

/-- Duplicates stay without LIMIT and OFFSET. -/
theorem distinctShown_as_is (hAll : all.shownRows = rows) (hWhole : whole.shownRows = rows)
    (hCut : rows.Nodup → cut.shownRows =
      cutOut (limit.bind readable) ((offset.bind readable).getD 0) rows) :
    DistinctShown limit offset all whole cut ↔ rows.Nodup ∧ SliceServed limit offset rows := by
  by_cases hNodup : rows.Nodup
  · rw [and_iff_right hNodup]
    refine distinctShown_slice hAll (hWhole.trans ((eraseDups_eq_self_iff rows).2 hNodup).symm) ?_
    rw [hCut hNodup, (eraseDups_eq_self_iff _).2 (hNodup.sublist (cutOut_sublist ..))]
  · exact iff_of_false (fun h => hNodup (hWhole ▸ h.nodup)) fun h => hNodup h.1

end Exits

-- ---------------------------------------------------------------------------
-- DISTINCT
-- ---------------------------------------------------------------------------

variable {env : QueryEnv} {dbName db table : Str} {name : ObjectName} {t : Table}

end DistinctRows

-- ---------------------------------------------------------------------------
-- A table with a row twice
-- ---------------------------------------------------------------------------

section RowTwice

local instance distinctRowsPlatform : Platform := tablePlatform []

def aTwice : Table := tableA [[.int 1], [.int 1]]

def twiceEnv : QueryEnv := (oneTable [[.int 1], [.int 1]]).env 0

theorem aTwice_rows : projectedRows 0 aTwice [.unnamedExpr (.identifier ⟨"a", none⟩)] none none =
    .ok [[some "1"], [some "1"]] := by
  decide +kernel

theorem twice_shown : select twiceEnv "test" (tableQuery nameT (some .distinct)
    [.unnamedExpr (.identifier ⟨"a", none⟩)] none (.expressions []) none none none none) =
      .ok (.valueRows ["a"] [[.int 1], [.int 1]]) := by
  decide +kernel

end RowTwice

end RunAlexDb
