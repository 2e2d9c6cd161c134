import Mathlib.Data.List.Nodup
import Mathlib.Logic.Function.Basic

/-!
# KeyedLists — lists whose elements have a key

Putting an element into such a list drops those with its key and appends it. Where
keys are unique, dropping one is the removal of one element, and the list stands
for a map from keys to elements.

Main results: `eraseIdx_eq_drop`, `atKey_put` and `atKey_perm`.
-/

namespace KeyedLists

variable {α κ : Type} [DecidableEq κ]

/-- The elements with another key. -/
def dropKey (key : α → κ) (k : κ) (l : List α) : List α := l.filter fun x => key x ≠ k

/-- Those with its key dropped, `x` goes last. -/
def put (key : α → κ) (l : List α) (x : α) : List α := dropKey key (key x) l ++ [x]

theorem mem_dropKey {key : α → κ} {k : κ} {l : List α} {x : α} :
    x ∈ dropKey key k l ↔ x ∈ l ∧ key x ≠ k := by
  rw [dropKey, List.mem_filter, decide_eq_true_eq]

theorem dropKey_cons_of_eq {key : α → κ} {k : κ} {x : α} (h : key x = k) (l : List α) :
    dropKey key k (x :: l) = dropKey key k l := List.filter_cons_of_neg (by simpa using h)

theorem dropKey_cons_of_ne {key : α → κ} {k : κ} {x : α} (h : key x ≠ k) (l : List α) :
    dropKey key k (x :: l) = x :: dropKey key k l := List.filter_cons_of_pos (decide_eq_true h)

/-- A key that is not there. -/
theorem dropKey_eq_self {key : α → κ} {k : κ} {l : List α} (h : ∀ x ∈ l, key x ≠ k) :
    dropKey key k l = l := List.filter_eq_self.2 fun x hx => decide_eq_true (h x hx)

/-- With unique keys one element has the key. -/
theorem eraseIdx_eq_drop {key : α → κ} {l : List α} (hUnique : (l.map key).Nodup) {i : Nat} {x : α}
    (hx : l[i]? = some x) : l.eraseIdx i = dropKey key (key x) l := by
  induction l generalizing i with
  | nil => cases hx
  | cons y l ih =>
    obtain ⟨hNew, hRest⟩ := List.nodup_cons.1 hUnique
    rcases i with _ | i
    · obtain rfl := Option.some.inj hx
      have hOthers : ∀ z ∈ l, key z ≠ key y := fun z hz hEq =>
        hNew (by rw [← hEq]; exact List.mem_map_of_mem hz)
      rw [List.eraseIdx_cons_zero, dropKey_cons_of_eq rfl, dropKey_eq_self hOthers]
    · have hIn : l[i]? = some x := hx
      have hOther : key y ≠ key x := fun hEq =>
        hNew (by rw [hEq]; exact List.mem_map_of_mem (List.mem_of_getElem? hIn))
      rw [List.eraseIdx_cons_succ, dropKey_cons_of_ne hOther, ih hRest hIn]

-- ---------------------------------------------------------------------------
-- The map of a list
-- ---------------------------------------------------------------------------

/-- The first element with the key. -/
def atKey (key : α → κ) (l : List α) (k : κ) : Option α := l.find? fun x => key x = k

theorem atKey_eq_head (key : α → κ) (l : List α) (k : κ) :
    atKey key l k = (l.filter fun x => key x = k).head? := (List.head?_filter ..).symm

theorem atKey_eq_none {key : α → κ} {l : List α} {k : κ} (h : ∀ x ∈ l, key x ≠ k) : atKey key l k = none :=
  List.find?_eq_none.2 fun x hx => by rw [decide_eq_true_eq]; exact h x hx

theorem key_of_atKey {key : α → κ} {l : List α} {k : κ} {x : α} (h : atKey key l k = some x) :
    x ∈ l ∧ key x = k := by
  have hKey := List.find?_some (p := fun x => decide (key x = k)) h
  exact ⟨List.mem_of_find?_eq_some h, of_decide_eq_true hKey⟩

/-- With unique keys each element is the one at its key. -/
theorem atKey_of_mem {key : α → κ} {l : List α} (hUnique : (l.map key).Nodup) {x : α} (hx : x ∈ l) :
    atKey key l (key x) = some x := by
  rcases hAt : atKey key l (key x) with _ | y
  · exact absurd (decide_eq_true rfl) (List.find?_eq_none.1 hAt x hx)
  · obtain ⟨hy, hKey⟩ := key_of_atKey hAt
    rw [List.inj_on_of_nodup_map hUnique hy hx hKey]

theorem atKey_dropKey (key : α → κ) (l : List α) (k : κ) :
    atKey key (dropKey key k l) = Function.update (atKey key l) k none := by
  funext k'
  by_cases hSame : k' = k
  · subst hSame
    rw [Function.update_self]
    exact atKey_eq_none fun x hx => (mem_dropKey.1 hx).2
  · rw [Function.update_of_ne hSame]
    unfold atKey dropKey
    rw [List.find?_filter]
    congr 1
    funext x
    by_cases hKey : key x = k'
    · simp [hKey, hSame]
    · simp [hKey]

/-- **Putting.** -/
theorem atKey_put (key : α → κ) (l : List α) (x : α) :
    atKey key (put key l x) = Function.update (atKey key l) (key x) (some x) := by
  funext k
  have hAppend : atKey key (put key l x) k =
      (atKey key (dropKey key (key x) l) k).or (atKey key [x] k) := List.find?_append
  rw [hAppend, atKey_dropKey]
  by_cases hSame : k = key x
  · subst hSame
    rw [Function.update_self, Function.update_self]
    simp [atKey]
  · rw [Function.update_of_ne hSame, Function.update_of_ne hSame]
    simp [atKey, Ne.symm hSame]

/-- The order of the elements does not matter. -/
theorem atKey_perm {key : α → κ} {l l' : List α} (hUnique : (l.map key).Nodup) (h : l.Perm l') :
    atKey key l = atKey key l' := by
  have hUnique' : (l'.map key).Nodup := (h.map key).nodup_iff.1 hUnique
  funext k
  rcases hAt : atKey key l k with _ | x
  · refine (atKey_eq_none fun x hx hKey => ?_).symm
    exact List.find?_eq_none.1 hAt x (h.mem_iff.2 hx) (decide_eq_true hKey)
  · obtain ⟨hx, rfl⟩ := key_of_atKey hAt
    exact (atKey_of_mem hUnique' (h.mem_iff.1 hx)).symm

/-- Another element in the place of one with its key. -/
theorem atKey_set {key : α → κ} {l : List α} (hUnique : (l.map key).Nodup) {i : Nat} {x y : α}
    (hx : l[i]? = some x) (hKey : key y = key x) :
    atKey key (l.set i y) = Function.update (atKey key l) (key x) (some y) := by
  have hKeys : (l.set i y).map key = l.map key := by
    rw [List.map_set, hKey]
    obtain ⟨hIn, rfl⟩ := List.getElem?_eq_some_iff.1 hx
    rw [← List.map_set, List.set_getElem_self]
  have hUnique' : ((l.set i y).map key).Nodup := by rwa [hKeys]
  have hIn := (List.getElem?_eq_some_iff.1 hx).1
  funext k
  by_cases hSame : k = key x
  · subst hSame
    rw [Function.update_self, ← hKey]
    exact atKey_of_mem hUnique' (List.mem_set hIn y)
  · rw [Function.update_of_ne hSame]
    rcases hAt : atKey key l k with _ | z
    · refine atKey_eq_none fun z hz hKey' => ?_
      rcases List.mem_or_eq_of_mem_set hz with hOld | rfl
      · exact List.find?_eq_none.1 hAt z hOld (decide_eq_true hKey')
      · exact hSame (hKey'.symm.trans hKey)
    · obtain ⟨hz, rfl⟩ := key_of_atKey hAt
      obtain ⟨j, hj⟩ := List.mem_iff_getElem?.1 hz
      have hOther : i ≠ j := by
        rintro rfl
        exact hSame (by rw [Option.some.inj (hj.symm.trans hx)])
      refine atKey_of_mem hUnique' (List.mem_of_getElem? (i := j) ?_)
      rw [List.getElem?_set_ne hOther, hj]

end KeyedLists
