import Mathlib.Data.List.Dedup
import Mathlib.Data.List.Sort
import RunAlexDb.Lib.Orderings

/-!
# Windows — places in sorted groups

The indices below `n` fall into groups by a key, and each group is sorted by a
relation that need not be an order. Where an index stands in its group is its
place. What is written at the places of one group leaves the other groups alone.

Main results: `map_place_perm`, `place_lt`, `place_eq_one`, `getElem?_foldl_groups`.
-/

namespace Windows

variable {κ : Type} [DecidableEq κ]

/-- The indices below `n` with the key of `i`. -/
def peers (n : Nat) (key : Nat → κ) (i : Nat) : List Nat :=
  (List.range n).filter fun k => key k = key i

/-- They, sorted. -/
def group (n : Nat) (key : Nat → κ) (r : Nat → Nat → Prop) [DecidableRel r] (i : Nat) : List Nat :=
  (peers n key i).insertionSort r

/-- Where an index stands in its group, from 1 on. -/
def place (n : Nat) (key : Nat → κ) (r : Nat → Nat → Prop) [DecidableRel r] (i : Nat) : Nat :=
  (group n key r i).idxOf i + 1

-- ---------------------------------------------------------------------------
-- Groups
-- ---------------------------------------------------------------------------

section Places

variable {n : Nat} {key : Nat → κ} {r : Nat → Nat → Prop} [DecidableRel r] {i k : Nat}

theorem mem_peers : k ∈ peers n key i ↔ k < n ∧ key k = key i := by
  rw [peers, List.mem_filter, List.mem_range, decide_eq_true_iff]

theorem mem_group : k ∈ group n key r i ↔ k < n ∧ key k = key i := by
  rw [group, List.mem_insertionSort, mem_peers]

theorem self_mem_group (hi : i < n) : i ∈ group n key r i := mem_group.2 ⟨hi, rfl⟩

theorem pairwise_peers : (peers n key i).Pairwise (· < ·) := List.pairwise_lt_range.filter _

theorem group_perm : (group n key r i).Perm (peers n key i) := List.perm_insertionSort ..

theorem nodup_group : (group n key r i).Nodup := group_perm.nodup_iff.2 (List.nodup_range.filter _)

theorem group_congr (h : key i = key k) : group n key r i = group n key r k := by
  unfold group peers
  rw [h]

-- ---------------------------------------------------------------------------
-- Places
-- ---------------------------------------------------------------------------

theorem map_idxOf {l : List Nat} (h : l.Nodup) : l.map (fun k => l.idxOf k) = List.range l.length := by
  refine List.ext_getElem (by simp) fun k hk _ => ?_
  rw [List.getElem_map, List.getElem_range]
  exact h.idxOf_getElem ..

/-- In a group each place is taken once. -/
theorem map_place_perm : ((peers n key i).map (place n key r)).Perm
    (List.range' 1 (peers n key i).length) := by
  have hPlaces : (group n key r i).map (place n key r) =
      (List.range (group n key r i).length).map (· + 1) := by
    rw [← map_idxOf nodup_group, List.map_map]
    refine List.map_congr_left fun k hk => ?_
    rw [place, group_congr (mem_group.1 hk).2]
    rfl
  refine ((group_perm (r := r)).symm.map _).trans ?_
  rw [hPlaces, group_perm.length_eq, List.range'_eq_map_range]
  simp only [Nat.add_comm 1, List.Perm.refl]

/-- What has to come first has the lesser place. -/
theorem place_lt {M : Nat → Nat → Prop} (hSorted : (group n key r i).Pairwise M) (hi : i < n) (hk : k < n)
    (hKey : key i = key k) (hne : i ≠ k) (hNot : ¬M k i) : place n key r i < place n key r k := by
  have hiMem : i ∈ group n key r i := self_mem_group hi
  have hkMem : k ∈ group n key r i := mem_group.2 ⟨hk, hKey.symm⟩
  unfold place
  rw [group_congr hKey.symm, Nat.add_lt_add_iff_right]
  have hiLt := List.idxOf_lt_length_of_mem hiMem
  have hkLt := List.idxOf_lt_length_of_mem hkMem
  by_contra hLe
  rcases Nat.lt_or_eq_of_le (Nat.not_lt.1 hLe) with hLt | hEq
  · have hBefore := List.pairwise_iff_getElem.1 hSorted _ _ hkLt hiLt hLt
    rw [List.getElem_idxOf, List.getElem_idxOf] at hBefore
    exact hNot hBefore
  · exact hne ((List.idxOf_inj hiMem).1 hEq.symm)

/-- A group in which the relation puts in the order of `M` what is before and after. -/
theorem pairwise_group {M : Nat → Nat → Prop}
    (hTrans : ∀ a b c, M a b → M b c → M a c)
    (h : ∀ a b, a < b → b < n → key a = key i → key b = key i → (r a b → M a b) ∧ (¬r a b → M b a)) :
    (group n key r i).Pairwise M := by
  refine pairwise_insertionSort_of_pairwise (fun a _ b _ c _ => hTrans a b c)
    (pairwise_peers.imp_of_mem ?_)
  intro a b ha hb hLt
  exact h a b hLt (mem_peers.1 hb).1 (mem_peers.1 ha).2 (mem_peers.1 hb).2

/-- What stands before all others of its key has place 1. -/
theorem place_eq_one (hi : i < n)
    (hFirst : ∀ k, k < n → key k = key i → (k < i → ¬r k i) ∧ (i < k → r i k)) :
    place n key r i = 1 := by
  have hPeers : (peers n key i).Pairwise fun a b => (b = i → ¬r a b) ∧ (a = i → r a b) := by
    refine pairwise_peers.imp_of_mem fun {a b} ha hb hLt => ⟨?_, ?_⟩
    · rintro rfl
      exact (hFirst a (mem_peers.1 ha).1 (mem_peers.1 ha).2).1 hLt
    · rintro rfl
      exact (hFirst b (mem_peers.1 hb).1 (mem_peers.1 hb).2).2 hLt
  obtain ⟨t, ht⟩ := exists_cons_insertionSort (mem_peers.2 ⟨hi, rfl⟩) hPeers
  unfold place group
  rw [ht, List.idxOf_cons_self]

/-- An index alone in its group. -/
theorem place_single (h : peers n key i = [i]) : place n key r i = 1 := by
  unfold place group
  rw [h, List.insertionSort_cons, List.insertionSort_nil, List.orderedInsert_nil, List.idxOf_cons_self]

/-- Two indices in a group. -/
theorem place_pair (h : peers n key i = [i, k]) (hne : i ≠ k) (hKey : key i = key k) :
    (r i k → place n key r i = 1 ∧ place n key r k = 2) ∧
      (¬r i k → place n key r i = 2 ∧ place n key r k = 1) := by
  unfold place
  rw [← group_congr hKey]
  unfold group
  rw [h]
  constructor
  · intro hr
    have hSorted : [i, k].insertionSort r = [i, k] := if_pos hr
    rw [hSorted, List.idxOf_cons_self, List.idxOf_cons_ne _ hne, List.idxOf_cons_self]
    exact ⟨rfl, rfl⟩
  · intro hr
    have hSorted : [i, k].insertionSort r = [k, i] := if_neg hr
    rw [hSorted, List.idxOf_cons_self, List.idxOf_cons_ne _ (Ne.symm hne), List.idxOf_cons_self]
    exact ⟨rfl, rfl⟩

end Places

-- ---------------------------------------------------------------------------
-- Writing at the places
-- ---------------------------------------------------------------------------

section Writes

variable {α : Type}

theorem getElem?_foldl_modify_not_mem (w : Nat → α → α) {g : List Nat} {i : Nat} (h : i ∉ g) (l : List α) :
    (g.foldl (fun l k => l.modify k (w k)) l)[i]? = l[i]? := by
  induction g generalizing l with
  | nil => rfl
  | cons k g ih =>
    rw [List.mem_cons, not_or] at h
    rw [List.foldl_cons, ih h.2, List.getElem?_modify_ne _ _ (Ne.symm h.1)]

/-- One write at each index. -/
theorem getElem?_foldl_modify (w : Nat → α → α) {g : List Nat} (hNodup : g.Nodup) {i : Nat} (h : i ∈ g)
    (l : List α) : (g.foldl (fun l k => l.modify k (w k)) l)[i]? = (l[i]?).map (w i) := by
  induction g generalizing l with
  | nil => exact absurd h List.not_mem_nil
  | cons k g ih =>
    rw [List.nodup_cons] at hNodup
    rw [List.foldl_cons]
    rcases List.mem_cons.1 h with rfl | h
    · rw [getElem?_foldl_modify_not_mem w hNodup.1, List.getElem?_modify_eq]
      rfl
    · have hne : k ≠ i := fun hSame => hNodup.1 (hSame ▸ h)
      rw [ih hNodup.2 h, List.getElem?_modify_ne _ _ hne]

theorem zipIdx_eq_map {g : List Nat} (h : g.Nodup) : g.zipIdx = g.map fun i => (i, g.idxOf i) := by
  refine List.ext_getElem (by simp) fun k hk _ => ?_
  rw [List.getElem_zipIdx, List.getElem_map, h.idxOf_getElem, Nat.zero_add]

/-- Groups written one after the other, each by what stands at its own indices. -/
theorem getElem?_foldl_groups (step : List α → List Nat → List α) {gs : List (List Nat)}
    (hOut : ∀ l g i, i ∉ g → g.Nodup → (step l g)[i]? = l[i]?)
    (hIn : ∀ l l' g, (∀ k ∈ g, l[k]? = l'[k]?) → g.Nodup → ∀ i ∈ g, (step l g)[i]? = (step l' g)[i]?)
    (hNodup : ∀ g ∈ gs, g.Nodup) (hDisjoint : gs.Pairwise List.Disjoint) {g : List Nat} (hg : g ∈ gs)
    {i : Nat} (hi : i ∈ g) (l : List α) : (gs.foldl step l)[i]? = (step l g)[i]? := by
  have hRest : ∀ (gs : List (List Nat)) (l : List α), (∀ g ∈ gs, i ∉ g ∧ g.Nodup) →
      (gs.foldl step l)[i]? = l[i]? := by
    intro gs
    induction gs with
    | nil => exact fun _ _ => rfl
    | cons g gs ih =>
      intro l hNot
      obtain ⟨hMem, hNodup⟩ := hNot g (List.mem_cons_self ..)
      rw [List.foldl_cons, ih _ fun g' hg' => hNot g' (List.mem_cons_of_mem _ hg')]
      exact hOut l g i hMem hNodup
  induction gs generalizing l with
  | nil => exact absurd hg List.not_mem_nil
  | cons g' gs ih =>
    obtain ⟨hHead, hTail⟩ := List.pairwise_cons.1 hDisjoint
    have hNodup' : ∀ g ∈ gs, g.Nodup := fun g hg => hNodup g (List.mem_cons_of_mem _ hg)
    rw [List.foldl_cons]
    rcases List.mem_cons.1 hg with rfl | hg
    · exact hRest gs _ fun g' hg' => ⟨fun hMem => hHead g' hg' hi hMem, hNodup' g' hg'⟩
    · rw [ih hNodup' hTail hg]
      refine hIn _ _ g (fun k hk => ?_) (hNodup' g hg) i hi
      exact hOut l g' k (fun hMem => hHead g hg hMem hk) (hNodup g' (List.mem_cons_self ..))

end Writes

end Windows
