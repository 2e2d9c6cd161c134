/-!
# Calls — a computation and the calls it comes to

A computation that may fail comes to some calls on the way. `Rests run x l` says
that `x` returns exactly when each call in `l` does, so that whatever makes it fail
is one of these calls. What stands behind a part that fails is not come to.

Main results: `Rests.bind` and `Rests.single`.
-/

namespace Calls

variable {ε α β ι ρ : Type}

/-- The computation does not fail. -/
def Returns (x : Except ε α) : Prop := ∃ a, x = .ok a

/-- The calls behind a part of a computation, none when the part fails. -/
def behind (x : Except ε α) (f : α → List ι) : List ι :=
  match x with
  | .ok a => f a
  | .error _ => []

def Rests (run : ι → Except ε ρ) (x : Except ε α) (l : List ι) : Prop :=
  Returns x ↔ ∀ i ∈ l, Returns (run i)

@[simp] theorem returns_ok (a : α) : Returns (.ok a : Except ε α) := ⟨a, rfl⟩

@[simp] theorem not_returns_error (e : ε) : ¬Returns (.error e : Except ε α) := fun ⟨_, h⟩ => nomatch h

namespace Rests

variable {run : ι → Except ε ρ} {x : Except ε α} {l : List ι}

theorem pure (a : α) : Rests run (.ok a) [] :=
  iff_of_true (returns_ok a) fun _ hIn => nomatch hIn

theorem single (i : ι) : Rests run (run i) [i] := by
  unfold Rests
  rw [List.forall_mem_singleton]

theorem bind (h : Rests run x l) {f : α → Except ε β} {k : α → List ι}
    (hf : ∀ a, x = .ok a → Rests run (f a) (k a)) : Rests run (x >>= f) (l ++ behind x k) := by
  unfold Rests at h ⊢
  rw [List.forall_mem_append, ← h]
  cases x with
  | error e => exact iff_of_false (not_returns_error e) fun hBoth => not_returns_error e hBoth.1
  | ok a => exact (hf a rfl).trans (and_iff_right (returns_ok a)).symm

theorem bind_pure (h : Rests run x l) (f : α → β) : Rests run (x >>= fun a => .ok (f a)) l := by
  unfold Rests at h ⊢
  rw [← h]
  cases x with
  | error e => exact iff_of_false (not_returns_error e) (not_returns_error e)
  | ok a => exact iff_of_true (returns_ok _) (returns_ok a)

theorem map (h : Rests run x l) (f : α → β) : Rests run (x.map f) l := by
  unfold Rests at h ⊢
  rw [← h]
  cases x with
  | error e => exact iff_of_false (not_returns_error e) (not_returns_error e)
  | ok a => exact iff_of_true (returns_ok _) (returns_ok a)

end Rests

end Calls
