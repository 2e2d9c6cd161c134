import Mathlib.Data.List.InsertIdx
import Mathlib.Data.List.ModifyLast

/-!
# Origins — lists that are edited, with the position each element came from

A tracked list has beside each element its position in the list it was made of, or
nothing for an element that was added. Appending, erasing and modifying keep what
depends on the origins: what a row becomes when its cells follow, the origin of the
first element of a kind, and a relation to the original.

Main results: how `project`, `firstOrigin` and `Descends` follow the edits.
-/

namespace Origins

variable {α β : Type}

abbrev Tracked (α : Type) := List (α × Option Nat)

/-- Every element at its own position. -/
def tag (l : List α) : Tracked α := l.zipIdx.map fun p => (p.1, some p.2)

/-- The cells of a row where the elements are now; `fresh` for the new ones. -/
def project (fresh : β) (l : Tracked α) (row : List β) : List β :=
  l.map fun e => e.2.elim fresh fun i => row.getD i fresh

/-- The origin of the first element of the kind. -/
def firstOrigin (p : α → Bool) (l : Tracked α) : Option (Option Nat) :=
  (l.find? fun e => p e.1).map Prod.snd

/-- What has an origin is related to the element there. -/
def Descends (R : α → α → Prop) (l₀ : List α) (l : Tracked α) : Prop :=
  ∀ x i, (x, some i) ∈ l → ∃ x₀, l₀[i]? = some x₀ ∧ R x₀ x

/-- The elements without their origins. -/
def elements (l : Tracked α) : List α := l.map Prod.fst

-- ---------------------------------------------------------------------------
-- The original
-- ---------------------------------------------------------------------------

theorem getElem?_tag (l : List α) (i : Nat) : (tag l)[i]? = l[i]?.map fun x => (x, some i) := by
  rw [tag, List.getElem?_map, List.getElem?_zipIdx, Option.map_map, Nat.zero_add]
  rfl

@[simp] theorem elements_tag (l : List α) : elements (tag l) = l := by
  unfold elements
  refine List.ext_getElem? fun i => ?_
  rw [List.getElem?_map, getElem?_tag, Option.map_map]
  exact Option.map_id'

theorem project_tag (fresh : β) {l : List α} {row : List β} (h : row.length = l.length) :
    project fresh (tag l) row = row := by
  refine List.ext_getElem? fun i => ?_
  rw [project, List.getElem?_map, getElem?_tag, Option.map_map]
  by_cases hIn : i < l.length
  · have hRow : i < row.length := by omega
    rw [List.getElem?_eq_getElem hIn, List.getElem?_eq_getElem hRow, Option.map_some]
    show some (row.getD i fresh) = _
    rw [List.getD_eq_getElem?_getD, List.getElem?_eq_getElem hRow, Option.getD_some]
  · have hRow : ¬i < row.length := by omega
    rw [List.getElem?_eq_none (Nat.le_of_not_lt hIn), List.getElem?_eq_none (Nat.le_of_not_lt hRow)]
    rfl

theorem descends_tag {R : α → α → Prop} (hRefl : ∀ x, R x x) (l : List α) : Descends R l (tag l) := by
  intro x i hIn
  obtain ⟨j, hj⟩ := List.getElem?_of_mem hIn
  rw [getElem?_tag] at hj
  obtain ⟨y, hy, hPair⟩ := Option.map_eq_some_iff.1 hj
  obtain ⟨rfl, hPos⟩ := Prod.mk.inj hPair
  obtain rfl := Option.some.inj hPos
  exact ⟨y, hy, hRefl y⟩

/-- The position of the first element of a kind has its origin. -/
theorem origin_findIdx? (p : α → Bool) (l : Tracked α) :
    ((elements l).findIdx? p).map (fun j => (l[j]?).bind Prod.snd) = firstOrigin p l := by
  unfold elements firstOrigin
  rw [List.findIdx?_map]
  induction l with
  | nil => rfl
  | cons e l ih =>
    rw [List.findIdx?_cons, List.find?_cons]
    by_cases hKind : p e.1 = true
    · simp [hKind]
    · rw [Bool.not_eq_true] at hKind
      have hKind' : (p ∘ Prod.fst) e = false := hKind
      rw [hKind', hKind]
      simp only [Bool.false_eq_true, if_false]
      rw [← ih, Option.map_map]
      rfl

theorem firstOrigin_tag (p : α → Bool) (l : List α) :
    firstOrigin p (tag l) = (l.findIdx? p).map some := by
  rw [← origin_findIdx?, elements_tag]
  rcases hFind : l.findIdx? p with _ | j
  · rfl
  · have hLt := (List.findIdx?_eq_some_iff_getElem.1 hFind).1
    rw [Option.map_some, getElem?_tag, List.getElem?_eq_getElem hLt]
    rfl

-- ---------------------------------------------------------------------------
-- A new last element
-- ---------------------------------------------------------------------------

theorem elements_append (l : Tracked α) (x : α) : elements (l ++ [(x, none)]) = elements l ++ [x] :=
  List.map_append ..

theorem project_append (fresh : β) (l : Tracked α) (x : α) (row : List β) :
    project fresh (l ++ [(x, none)]) row = project fresh l row ++ [fresh] := List.map_append ..

theorem firstOrigin_append {p : α → Bool} (l : Tracked α) {x : α} (h : p x = false) :
    firstOrigin p (l ++ [(x, none)]) = firstOrigin p l := by
  have hNone : List.find? (fun e : α × Option Nat => p e.1) [(x, none)] = none := by simp [h]
  rw [firstOrigin, List.find?_append, hNone, Option.or_none]
  rfl

theorem Descends.append {R : α → α → Prop} {l₀ : List α} {l : Tracked α} (h : Descends R l₀ l) (x : α) :
    Descends R l₀ (l ++ [(x, none)]) := by
  intro y i hIn
  rcases List.mem_append.1 hIn with hOld | hNew
  · exact h y i hOld
  · cases List.mem_singleton.1 hNew

-- ---------------------------------------------------------------------------
-- An element less
-- ---------------------------------------------------------------------------

theorem elements_eraseIdx (l : Tracked α) (i : Nat) : elements (l.eraseIdx i) = (elements l).eraseIdx i :=
  (List.eraseIdx_map ..).symm

theorem project_eraseIdx (fresh : β) (l : Tracked α) (i : Nat) (row : List β) :
    project fresh (l.eraseIdx i) row = (project fresh l row).eraseIdx i := (List.eraseIdx_map ..).symm

theorem firstOrigin_eraseIdx {p : α → Bool} {l : Tracked α} {i : Nat}
    (h : ∀ e, l[i]? = some e → p e.1 = false) : firstOrigin p (l.eraseIdx i) = firstOrigin p l := by
  unfold firstOrigin
  induction l generalizing i with
  | nil => rfl
  | cons e l ih =>
    rcases i with _ | i
    · rw [List.eraseIdx_cons_zero, List.find?_cons_of_neg]
      rw [h e rfl]
      exact Bool.false_ne_true
    · rw [List.eraseIdx_cons_succ, List.find?_cons, List.find?_cons]
      split
      · rfl
      · exact ih h

theorem Descends.eraseIdx {R : α → α → Prop} {l₀ : List α} {l : Tracked α} (h : Descends R l₀ l)
    (i : Nat) : Descends R l₀ (l.eraseIdx i) :=
  fun x j hIn => h x j (List.mem_of_mem_eraseIdx hIn)

-- ---------------------------------------------------------------------------
-- An element changed in place
-- ---------------------------------------------------------------------------

/-- The element at `i` changed, its origin kept. -/
def change (l : Tracked α) (i : Nat) (f : α → α) : Tracked α := l.modify i fun e => (f e.1, e.2)

/-- What does not look at the change. -/
theorem map_change {γ : Type} {g : α × Option Nat → γ} {f : α → α}
    (h : ∀ e : α × Option Nat, g (f e.1, e.2) = g e) (l : Tracked α) (i : Nat) :
    (change l i f).map g = l.map g := by
  refine List.ext_getElem? fun j => ?_
  rw [change, List.getElem?_map, List.getElem?_modify, List.getElem?_map]
  rcases l[j]? with _ | e
  · rfl
  · show some (g (if i = j then (f e.1, e.2) else e)) = some (g e)
    split
    · rw [h e]
    · rfl

theorem elements_change (l : Tracked α) (i : Nat) (f : α → α) :
    elements (change l i f) = (elements l).modify i f := by
  refine List.ext_getElem? fun j => ?_
  rw [elements, change, List.getElem?_map, List.getElem?_modify, List.getElem?_modify, elements,
    List.getElem?_map]
  rcases l[j]? with _ | e
  · rfl
  · show some (if i = j then (f e.1, e.2) else e).1 = some (if i = j then f e.1 else e.1)
    split <;> rfl

theorem project_change (fresh : β) (l : Tracked α) (i : Nat) (f : α → α) (row : List β) :
    project fresh (change l i f) row = project fresh l row := map_change (fun _ => rfl) l i

theorem firstOrigin_change {p : α → Bool} {f : α → α} (h : ∀ x, p (f x) = p x) (l : Tracked α)
    (i : Nat) : firstOrigin p (change l i f) = firstOrigin p l := by
  unfold firstOrigin
  induction l generalizing i with
  | nil => rcases i with _ | i <;> rfl
  | cons e l ih =>
    rcases i with _ | i
    · rw [change, List.modify_zero_cons, List.find?_cons, List.find?_cons, h]
      split <;> rfl
    · rw [change, List.modify_succ_cons, List.find?_cons, List.find?_cons]
      split
      · rfl
      · exact ih i

theorem Descends.change {R : α → α → Prop} {l₀ : List α} {l : Tracked α} (h : Descends R l₀ l)
    {f : α → α} (hStep : ∀ x₀ x, R x₀ x → R x₀ (f x)) (i : Nat) : Descends R l₀ (change l i f) := by
  intro x j hIn
  obtain ⟨k, hk⟩ := List.getElem?_of_mem hIn
  rw [Origins.change, List.getElem?_modify] at hk
  obtain ⟨e, he, hChanged⟩ := Option.map_eq_some_iff.1 hk
  have hMem := List.mem_of_getElem? he
  split at hChanged
  · obtain ⟨rfl, hOrigin⟩ := Prod.mk.inj hChanged
    obtain ⟨x₀, hx₀, hR⟩ := h e.1 j (by rw [← hOrigin]; exact hMem)
    exact ⟨x₀, hx₀, hStep x₀ e.1 hR⟩
  · exact h x j (by rw [← hChanged]; exact hMem)

end Origins
