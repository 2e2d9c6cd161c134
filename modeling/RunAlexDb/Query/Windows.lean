import RunAlexDb.Lib.Windows
import RunAlexDb.Model.Select

/-!
# Windows — what a window function writes

A window groups the printed rows by the printed cells of its PARTITION BY, sorts
each group by those of its ORDER BY, and writes into one column: the place of a row
in its group, the size of the group, or a number read from the cells that the column
had before.

Main results: `applyWindow_getElem?` and `eraseColumn_applyWindow`.
-/

set_option linter.unusedSectionVars false

namespace RunAlexDb

open Text Platform Windows

variable [Platform]

-- ---------------------------------------------------------------------------
-- Partitions
-- ---------------------------------------------------------------------------

/-- The printed cells of PARTITION BY, as one text. -/
def WinItem.key (wi : WinItem) (names : List Str) (row : TextRow) : Str :=
  join ['\x00'] (wi.partitionBy.map (outputCell names row))

/-- Rows compared by the printed cells of ORDER BY. -/
def WinItem.cmp (wi : WinItem) (names : List Str) (a b : TextRow) : Ordering :=
  (wi.orderBy.map fun o => directed o.2 cmpFloatOrText (outputCell names a o.1) (outputCell names b o.1)).foldr
    Ordering.then .eq

def WinItem.keyAt (wi : WinItem) (names : List Str) (rows : List TextRow) (i : Nat) : Str :=
  wi.key names (rows.getD i [])

/-- The row at the first index may stand before the row at the second. -/
def WinItem.Before (wi : WinItem) (names : List Str) (rows : List TextRow) (a b : Nat) : Prop :=
  wi.cmp names (rows.getD a []) (rows.getD b []) ≠ .gt

instance (wi : WinItem) (names : List Str) (rows : List TextRow) : DecidableRel (wi.Before names rows) :=
  fun _ _ => inferInstanceAs (Decidable (_ ≠ _))

/-- The rows that print the key of row `i`, sorted. -/
def WinItem.group (wi : WinItem) (names : List Str) (rows : List TextRow) (i : Nat) : List Nat :=
  Windows.group rows.length (wi.keyAt names rows) (wi.Before names rows) i

section Partitions

variable {names : List Str} {wi : WinItem} {rows : List TextRow}

theorem getElem?_keys {i : Nat} (hi : i < rows.length) :
    (rows.map (wi.key names))[i]? = some (wi.keyAt names rows i) := by
  rw [List.getElem?_map, WinItem.keyAt, List.getD_eq_getElem?_getD, List.getElem?_eq_getElem hi]
  rfl

theorem partitions_eq : partitions names wi rows =
    (rows.map (wi.key names)).dedup.map fun k =>
      ((List.range rows.length).filter fun i => wi.keyAt names rows i = k).insertionSort
        (wi.Before names rows) := by
  refine List.map_congr_left fun k _ => ?_
  have hFilter : ((List.range rows.length).filter fun i => (rows.map (wi.key names))[i]? == some k) =
      (List.range rows.length).filter fun i => wi.keyAt names rows i = k := by
    refine List.filter_congr fun i hi => ?_
    rw [getElem?_keys (List.mem_range.1 hi), Bool.eq_iff_iff]
    simp
  show (if wi.orderBy.isEmpty then _ else _) = _
  rw [← hFilter]
  split_ifs with hEmpty
  · have hAll : ∀ a b, wi.Before names rows a b := by
      intro a b
      unfold WinItem.Before WinItem.cmp
      rw [List.isEmpty_iff.1 hEmpty]
      nofun
    exact (List.Pairwise.insertionSort_eq (List.pairwise_of_forall hAll)).symm
  · rfl

theorem group_mem_partitions {i : Nat} (hi : i < rows.length) :
    wi.group names rows i ∈ partitions names wi rows := by
  rw [partitions_eq]
  refine List.mem_map.2 ⟨wi.keyAt names rows i, List.mem_dedup.2 ?_, rfl⟩
  exact List.mem_of_getElem? (getElem?_keys hi)

theorem disjoint_partitions : (partitions names wi rows).Pairwise List.Disjoint := by
  rw [partitions_eq, List.pairwise_map]
  refine (List.nodup_dedup _).imp fun {k k'} hne i hi hi' => hne ?_
  rw [List.mem_insertionSort, List.mem_filter, decide_eq_true_iff] at hi hi'
  rw [← hi.2, ← hi'.2]

/-- The places of a partition have no index twice. -/
theorem nodup_partition {g : List Nat} (hg : g ∈ partitions names wi rows) : g.Nodup := by
  rw [partitions_eq] at hg
  obtain ⟨k, -, rfl⟩ := List.mem_map.1 hg
  exact (List.perm_insertionSort ..).nodup_iff.2 (List.nodup_range.filter _)

end Partitions

-- ---------------------------------------------------------------------------
-- One column
-- ---------------------------------------------------------------------------

/-- The rows without one of their columns. -/
def eraseColumn (col : Nat) (rows : List TextRow) : List TextRow := rows.map fun r => r.set col none

theorem eraseColumn_modify (col i : Nat) (cell : Option Str) (rows : List TextRow) :
    eraseColumn col (rows.modify i fun r => r.set col cell) = eraseColumn col rows := by
  unfold eraseColumn
  refine List.ext_getElem? fun k => ?_
  rw [List.getElem?_map, List.getElem?_map, List.getElem?_modify]
  cases rows[k]? with
  | none => rfl
  | some r =>
    split_ifs
    · exact congrArg some (List.set_set ..)
    · rfl

/-- What keeps all but one column in each step keeps it in a run. -/
theorem eraseColumn_foldl {ι : Type} {col : Nat} {step : List TextRow → ι → List TextRow}
    (h : ∀ rows x, eraseColumn col (step rows x) = eraseColumn col rows) (xs : List ι)
    (rows : List TextRow) : eraseColumn col (xs.foldl step rows) = eraseColumn col rows := by
  induction xs generalizing rows with
  | nil => rfl
  | cons x xs ih => rw [List.foldl_cons, ih, h]

/-- A window function keeps all columns but its own. -/
theorem eraseColumn_applyWindow (names : List Str) (rows : List TextRow) (wi : WinItem) :
    eraseColumn wi.colIdx (applyWindow names rows wi) = eraseColumn wi.colIdx rows := by
  unfold applyWindow
  dsimp only
  split
  all_goals first
    | rfl
    | exact eraseColumn_foldl (fun rows g => eraseColumn_foldl (fun rows x =>
        eraseColumn_modify _ _ _ rows) _ rows) _ rows

-- ---------------------------------------------------------------------------
-- The cell written
-- ---------------------------------------------------------------------------

/-- What the column had in the rows of a partition. -/
def oldCells (col : Nat) (rows : List TextRow) (g : List Nat) : List (Option Str) :=
  g.map fun i => (rows.getD i [])[col]?.join

/-- A sum or mean as it is printed. -/
def sumText (old : List (Option Str)) : Str :=
  let s := f64Sum (old.filterMap fun v => v.bind f64Parse)
  if f64Eq s (f64Floor s) then f64ToFixed 0 s else f64ToString s

section Written

variable {names : List Str} {wi : WinItem} {rows : List TextRow} {i : Nat}

theorem getElem?_setPartition (f : List (Option Str) → Str) {g : List Nat} (hNodup : g.Nodup) (hi : i ∈ g) :
    (setPartition wi.colIdx f rows g)[i]? =
      (rows[i]?).map fun r => r.set wi.colIdx (some (f (oldCells wi.colIdx rows g))) := by
  show (g.foldl (fun l k => l.modify k ((fun _ r => r.set wi.colIdx
    (some (f (oldCells wi.colIdx rows g)))) k)) rows)[i]? = _
  exact getElem?_foldl_modify _ hNodup hi rows

theorem getElem?_foldl_setPartition (f : List (Option Str) → Str) (hi : i < rows.length) :
    ((partitions names wi rows).foldl (setPartition wi.colIdx f) rows)[i]? =
      (rows[i]?).map fun r =>
        r.set wi.colIdx (some (f (oldCells wi.colIdx rows (wi.group names rows i)))) := by
  rw [getElem?_foldl_groups (setPartition wi.colIdx f) ?_ ?_ (fun g hg => nodup_partition hg)
    disjoint_partitions (group_mem_partitions hi) (self_mem_group hi)]
  · exact getElem?_setPartition f nodup_group (self_mem_group hi)
  · exact fun l g k hk _ => getElem?_foldl_modify_not_mem _ hk l
  · intro l l' g hSame hNodup k hk
    have hOld : oldCells wi.colIdx l g = oldCells wi.colIdx l' g := by
      refine List.map_congr_left fun k hk => ?_
      rw [List.getD_eq_getElem?_getD, List.getD_eq_getElem?_getD, hSame k hk]
    rw [getElem?_setPartition f hNodup hk, getElem?_setPartition f hNodup hk, hOld, hSame k hk]

/-- The places, written. -/
def setPlaces (col : Nat) (rows : List TextRow) (g : List Nat) : List TextRow :=
  g.zipIdx.foldl (fun rows (i, pos) => rows.modify i fun r => r.set col (some (natToString (pos + 1)))) rows

theorem setPlaces_eq {rows : List TextRow} {col : Nat} {g : List Nat} (h : g.Nodup) : setPlaces col rows g =
    g.foldl (fun rows i => rows.modify i fun r => r.set col (some (natToString (g.idxOf i + 1)))) rows := by
  unfold setPlaces
  rw [zipIdx_eq_map h, List.foldl_map]

theorem getElem?_foldl_setPlaces (hi : i < rows.length) :
    ((partitions names wi rows).foldl (setPlaces wi.colIdx) rows)[i]? =
      (rows[i]?).map fun r => r.set wi.colIdx (some (natToString ((wi.group names rows i).idxOf i + 1))) := by
  rw [getElem?_foldl_groups (setPlaces wi.colIdx) ?_ ?_ (fun g hg => nodup_partition hg)
    disjoint_partitions (group_mem_partitions hi) (self_mem_group hi)]
  · have hNodup : (wi.group names rows i).Nodup := nodup_group
    have hMem : i ∈ wi.group names rows i := self_mem_group hi
    show (setPlaces wi.colIdx rows (wi.group names rows i))[i]? = _
    rw [setPlaces_eq hNodup]
    generalize wi.group names rows i = g at hNodup hMem
    exact getElem?_foldl_modify (fun i r => r.set wi.colIdx
      (some (natToString (g.idxOf i + 1)))) hNodup hMem rows
  · intro l g k hk hNodup
    rw [setPlaces_eq hNodup]
    exact getElem?_foldl_modify_not_mem (fun i r => r.set wi.colIdx
      (some (natToString (g.idxOf i + 1)))) hk l
  · intro l l' g hSame hNodup k hk
    have hWrite := fun l => getElem?_foldl_modify (fun i r => r.set wi.colIdx
      (some (natToString (g.idxOf i + 1)))) hNodup hk (l : List TextRow)
    rw [setPlaces_eq hNodup, setPlaces_eq hNodup, hWrite, hWrite, hSame k hk]

end Written

end RunAlexDb
