import Mathlib.Data.List.Perm.Subperm

/-!
# Chains — following a partial function to its end

From an element on, a partial function is followed while it is defined. A chain
that goes on depends on the key of each element only; with finitely many keys a
chain that ends does so after at most as many steps as there are keys, since a
key that comes back brings its whole chain back.

Main results: `EndsIn.unique`, `EndsIn.le_length` and `ends_iff_follow`.
-/

namespace Chains

variable {α κ : Type} {f : α → Option α}

/-- Following `f` from the first element takes so many steps to its end. -/
inductive EndsIn (f : α → Option α) : Nat → α → α → Prop
  | here {a : α} (hEnd : f a = none) : EndsIn f 0 a a
  | step {n : Nat} {a b c : α} (hStep : f a = some b) (hRest : EndsIn f n b c) : EndsIn f (n + 1) a c

/-- The end of the chain, if it comes within so many steps. -/
def follow (f : α → Option α) : Nat → α → Option α
  | 0, a => if (f a).isNone then some a else none
  | n + 1, a =>
    match f a with
    | none => some a
    | some b => follow f n b

theorem EndsIn.unique {m n : Nat} {a b c : α} (h : EndsIn f m a b) (h' : EndsIn f n a c) :
    m = n ∧ b = c := by
  induction h generalizing n c with
  | here hEnd =>
    cases h' with
    | here _ => exact ⟨rfl, rfl⟩
    | step hStep _ =>
      rw [hEnd] at hStep
      cases hStep
  | step hStep _ ih =>
    cases h' with
    | here hEnd =>
      rw [hEnd] at hStep
      cases hStep
    | step hStep' hRest' =>
      rw [hStep] at hStep'
      obtain rfl := Option.some.inj hStep'
      obtain ⟨rfl, rfl⟩ := ih hRest'
      exact ⟨rfl, rfl⟩

/-- Elements that go on alike are as far from the end. -/
theorem EndsIn.unique_of_step {m n : Nat} {a a' b c : α} (h : EndsIn f m a b) (h' : EndsIn f n a' c)
    (hSame : f a = f a') (hOn : (f a).isSome) : m = n := by
  obtain ⟨d, hd⟩ := Option.isSome_iff_exists.1 hOn
  cases h with
  | here hEnd =>
    rw [hEnd] at hd
    cases hd
  | step hStep hRest =>
    cases h' with
    | here hEnd =>
      rw [hSame, hEnd] at hd
      cases hd
    | step hStep' hRest' =>
      rw [hSame, hStep'] at hStep
      obtain rfl := Option.some.inj hStep
      rw [(hRest.unique hRest').1]

theorem follow_eq_some {n : Nat} {a b : α} : follow f n a = some b ↔ ∃ k ≤ n, EndsIn f k a b := by
  induction n generalizing a with
  | zero =>
    unfold follow
    cases hNext : f a with
    | none =>
      constructor
      · rintro ⟨⟩
        exact ⟨0, Nat.le_refl 0, .here hNext⟩
      · rintro ⟨k, -, hEnds⟩
        obtain ⟨-, rfl⟩ := (EndsIn.here hNext).unique hEnds
        rfl
    | some c =>
      refine iff_of_false nofun ?_
      rintro ⟨k, hLe, hEnds⟩
      obtain rfl := Nat.le_zero.1 hLe
      cases hEnds with
      | here hEnd =>
        rw [hEnd] at hNext
        cases hNext
  | succ n ih =>
    unfold follow
    cases hNext : f a with
    | none =>
      constructor
      · rintro ⟨⟩
        exact ⟨0, Nat.zero_le _, .here hNext⟩
      · rintro ⟨k, -, hEnds⟩
        obtain ⟨-, rfl⟩ := (EndsIn.here hNext).unique hEnds
        rfl
    | some c =>
      refine ih.trans ⟨fun ⟨k, hLe, hEnds⟩ => ⟨k + 1, Nat.succ_le_succ hLe, .step hNext hEnds⟩, ?_⟩
      rintro ⟨k, hLe, hEnds⟩
      cases hEnds with
      | here hEnd =>
        rw [hEnd] at hNext
        cases hNext
      | step hStep hRest =>
        rw [hNext] at hStep
        obtain rfl := Option.some.inj hStep
        exact ⟨_, Nat.le_of_succ_le_succ hLe, hRest⟩

section Keys

variable {key : α → κ} {keys : List κ}
  (hKeys : ∀ a, (f a).isSome → key a ∈ keys)
  (hSame : ∀ a b, (f a).isSome → (f b).isSome → key a = key b → f a = f b)

include hKeys hSame

/-- The keys on a chain that ends are all different. -/
theorem EndsIn.keys_nodup {n : Nat} {a c : α} (h : EndsIn f n a c) :
    ∃ l : List κ, l.length = n ∧ l.Nodup ∧ l ⊆ keys ∧
      ∀ k ∈ l, ∃ j x, j ≤ n ∧ EndsIn f j x c ∧ (f x).isSome ∧ key x = k := by
  induction h with
  | here _ => exact ⟨[], rfl, List.nodup_nil, List.nil_subset _, fun _ hk => absurd hk List.not_mem_nil⟩
  | @step n a b c hStep hRest ih =>
    obtain ⟨l, hLength, hNodup, hSub, hEach⟩ := ih
    have hOn : (f a).isSome := by
      rw [hStep]
      rfl
    have hNew : key a ∉ l := by
      intro hIn
      obtain ⟨j, x, hLe, hEnds, hx, hKey⟩ := hEach _ hIn
      have hFar := (EndsIn.step hStep hRest).unique_of_step hEnds (hSame a x hOn hx hKey.symm) hOn
      omega
    refine ⟨key a :: l, by rw [List.length_cons, hLength], List.nodup_cons.2 ⟨hNew, hNodup⟩,
      List.cons_subset.2 ⟨hKeys a hOn, hSub⟩, fun k hk => ?_⟩
    rcases List.mem_cons.1 hk with rfl | hk
    · exact ⟨n + 1, a, Nat.le_refl _, .step hStep hRest, hOn, rfl⟩
    · obtain ⟨j, x, hLe, hEnds⟩ := hEach k hk
      exact ⟨j, x, by omega, hEnds⟩

/-- A chain that ends has at most one step for each key. -/
theorem EndsIn.le_length {n : Nat} {a c : α} (h : EndsIn f n a c) : n ≤ keys.length := by
  obtain ⟨l, hLength, hNodup, hSub, -⟩ := h.keys_nodup hKeys hSame
  rw [← hLength]
  exact (hNodup.subperm hSub).length_le

/-- As many steps as there are keys decide whether a chain ends. -/
theorem ends_iff_follow {a b : α} : (∃ n, EndsIn f n a b) ↔ follow f keys.length a = some b := by
  rw [follow_eq_some]
  constructor
  · rintro ⟨n, hEnds⟩
    exact ⟨n, hEnds.le_length hKeys hSame, hEnds⟩
  · rintro ⟨n, -, hEnds⟩
    exact ⟨n, hEnds⟩

end Keys

end Chains
