import Mathlib.Data.List.Basic

/-!
# Cursors — checked reads of a buffer

A read of a byte or of a slice gives nothing out of range, and neither does any
code that makes such a read. Readers that move a cursor run one after the other,
and what holds of each of them holds of the run.

Main results: `readAll_eq`, `readAll_replicate` and `cursors_runAll`.
-/

namespace Cursors

variable {α β : Type}

/-- The bytes from `i` up to `j`. -/
def slice (b : List α) (i j : Nat) : Option (List α) :=
  if i ≤ j ∧ j ≤ b.length then some ((b.drop i).take (j - i)) else none

theorem slice_eq {b : List α} {i n : Nat} (h : i + n ≤ b.length) :
    slice b i (i + n) = some ((b.drop i).take n) := by
  unfold slice
  rw [if_pos ⟨Nat.le_add_right i n, h⟩, Nat.add_sub_cancel_left]

theorem getElem?_eq_getD {b : List α} {i : Nat} (h : i < b.length) (x : α) :
    b[i]? = some (b.getD i x) := by
  rw [List.getD_eq_getElem?_getD, List.getElem?_eq_getElem h, Option.getD_some]

/-- A slice, byte by byte. -/
theorem take_drop_succ {b : List α} {i : Nat} (h : i < b.length) (n : Nat) (x : α) :
    (b.drop i).take (n + 1) = b.getD i x :: (b.drop (i + 1)).take n := by
  rw [List.drop_eq_getElem_cons h, List.take_succ_cons, List.getD_eq_getElem?_getD,
    List.getElem?_eq_getElem h, Option.getD_some]

/-- The readers one after the other: what each gives, with the cursor behind it. -/
def readAll : List (Nat → Option (β × Nat)) → Nat → Option (List (β × Nat))
  | [], _ => some []
  | reader :: readers, pos => do
    let x ← reader pos
    let rest ← readAll readers x.2
    return x :: rest

/-- What readers give that never fail. -/
def runAll : List (Nat → β × Nat) → Nat → List (β × Nat)
  | [], _ => []
  | reader :: readers, pos => reader pos :: runAll readers (reader pos).2

/-- Readers that never fail do not fail one after the other. -/
theorem readAll_eq {ι : Type} {checked : ι → Nat → Option (β × Nat)} {reader : ι → Nat → β × Nat}
    {is : List ι} (h : ∀ i ∈ is, ∀ pos, checked i pos = some (reader i pos)) (pos : Nat) :
    readAll (is.map checked) pos = some (runAll (is.map reader) pos) := by
  induction is generalizing pos with
  | nil => rfl
  | cons i is ih =>
    have hRest := ih (fun j hj => h j (List.mem_cons_of_mem i hj)) (reader i pos).2
    rw [List.map_cons, List.map_cons, readAll, h i (List.mem_cons_self ..) pos]
    show (readAll (is.map checked) (reader i pos).2 >>= fun rest => some (reader i pos :: rest)) = _
    rw [hRest]
    rfl

/-- A reader of fixed width, time after time. -/
theorem readAll_replicate {reader : Nat → Option (β × Nat)} {value : Nat → β} {width limit : Nat}
    (h : ∀ pos, pos + width ≤ limit → reader pos = some (value pos, pos + width)) (n : Nat) {pos : Nat}
    (hInside : pos + n * width ≤ limit) :
    readAll (List.replicate n reader) pos =
      some ((List.range n).map fun i => (value (pos + width * i), pos + width * (i + 1))) := by
  induction n generalizing pos with
  | zero => rfl
  | succ n ih =>
    rw [Nat.succ_mul] at hInside
    have hFirst := h pos (by omega)
    have hLess : pos + width + n * width ≤ limit := by omega
    have hRest := ih hLess
    have hShift : ∀ i, pos + width + width * i = pos + width * (i + 1) := by
      intro i
      rw [Nat.mul_add]
      omega
    simp only [hShift] at hRest
    rw [List.replicate_succ, readAll, hFirst]
    show (readAll (List.replicate n reader) (pos + width) >>= fun rest => some (_ :: rest)) = _
    rw [hRest, List.range_succ_eq_map, List.map_cons, List.map_map, Nat.mul_zero, Nat.zero_add,
      Nat.mul_one]
    rfl

theorem length_runAll (readers : List (Nat → β × Nat)) (pos : Nat) :
    (runAll readers pos).length = readers.length := by
  induction readers generalizing pos with
  | nil => rfl
  | cons reader readers ih => rw [runAll, List.length_cons, ih, List.length_cons]

/-- Readers that move the cursor forward, and not over the limit, do so one after the other. -/
theorem cursors_runAll {readers : List (Nat → β × Nat)} {limit : Nat}
    (h : ∀ reader ∈ readers, ∀ pos ≤ limit, pos ≤ (reader pos).2 ∧ (reader pos).2 ≤ limit) {pos : Nat}
    (hPos : pos ≤ limit) :
    (pos :: (runAll readers pos).map Prod.snd).Pairwise (· ≤ ·) ∧
      ∀ q ∈ (runAll readers pos).map Prod.snd, q ≤ limit := by
  induction readers generalizing pos with
  | nil => exact ⟨List.pairwise_singleton .., fun q hq => absurd hq List.not_mem_nil⟩
  | cons reader readers ih =>
    obtain ⟨hForward, hLimit⟩ := h reader (List.mem_cons_self ..) pos hPos
    obtain ⟨hOrder, hInside⟩ := ih (fun r hr => h r (List.mem_cons_of_mem reader hr)) hLimit
    rw [runAll, List.map_cons]
    refine ⟨List.pairwise_cons.2 ⟨?_, hOrder⟩, ?_⟩
    · intro q hq
      rcases List.mem_cons.1 hq with rfl | hq
      · exact hForward
      · exact Nat.le_trans hForward ((List.pairwise_cons.1 hOrder).1 q hq)
    · intro q hq
      rcases List.mem_cons.1 hq with rfl | hq
      · exact hLimit
      · exact hInside q hq

/-- Cursors that go on from the last of the ones before. -/
theorem pairwise_append_last {xs ys : List Nat} {last : Nat} (hFirst : (xs ++ [last]).Pairwise (· ≤ ·))
    (hRest : (last :: ys).Pairwise (· ≤ ·)) : (xs ++ [last] ++ ys).Pairwise (· ≤ ·) := by
  obtain ⟨hLast, hYs⟩ := List.pairwise_cons.1 hRest
  obtain ⟨-, -, hBefore⟩ := List.pairwise_append.1 hFirst
  refine List.pairwise_append.2 ⟨hFirst, hYs, fun x hx y hy => ?_⟩
  rcases List.mem_append.1 hx with hx | hx
  · exact Nat.le_trans (hBefore x hx last (List.mem_singleton.2 rfl)) (hLast y hy)
  · rw [List.mem_singleton.1 hx]
    exact hLast y hy

end Cursors
