import Mathlib.Logic.Function.Basic

/-!
# Exclusion — a record that names its holder

Parties claim a right and write their name into a record when they hold it. A
party that is `leaving` has taken its name back and has yet to notice. Where
nobody claims while the record names a holder or another claims, and nobody takes
over from a party that is leaving, no two parties hold the right.

Main results: `exclusive_step` and `Exclusive.unique`.
-/

namespace Exclusion

variable {ι : Type}

inductive Role
  | out | claiming | holding | leaving
deriving DecidableEq, Repr

/-- A party that has the right, or believes so. -/
def Role.possesses (r : Role) : Prop := r = .holding ∨ r = .leaving

theorem not_possesses_claiming : ¬Role.claiming.possesses := by
  rintro (h | h) <;> cases h

theorem not_possesses_out : ¬Role.out.possesses := by
  rintro (h | h) <;> cases h

/-- Everybody's role, and the name in the record. -/
structure State (ι : Type) where
  role : ι → Role
  record : Option ι

/-- At most one party claims, and none while another holds; the record names the
holder; at most one party has the right. -/
structure Exclusive (s : State ι) : Prop where
  oneClaims : ∀ i j, s.role i = .claiming → s.role j = .claiming → i = j
  noHolder : ∀ i j, s.role i = .claiming → s.role j ≠ .holding
  recorded : ∀ i, s.role i = .holding → s.record = some i
  onePossesses : ∀ i j, (s.role i).possesses → (s.role j).possesses → i = j

/-- **At most one.** No two parties have the right. -/
theorem Exclusive.unique {s : State ι} (h : Exclusive s) {i j : ι} (hi : (s.role i).possesses)
    (hj : (s.role j).possesses) : i = j := h.onePossesses i j hi hj

variable [DecidableEq ι]

/-- Party `i` changes its role, and the record. -/
def State.move (s : State ι) (i : ι) (r : Role) (record : Option ι) : State ι :=
  ⟨Function.update s.role i r, record⟩

@[simp] theorem role_move_self (s : State ι) (i : ι) (r : Role) (record : Option ι) :
    (s.move i r record).role i = r := Function.update_self ..

theorem role_move_of_ne (s : State ι) {i j : ι} (r : Role) (record : Option ι) (h : j ≠ i) :
    (s.move i r record).role j = s.role j := Function.update_of_ne h ..

@[simp] theorem record_move (s : State ι) (i : ι) (r : Role) (record : Option ι) :
    (s.move i r record).record = record := rfl

/-- What a party may do. -/
inductive Step (s : State ι) : State ι → Prop
  /-- The record names no holder and nobody claims. -/
  | claim (i : ι) (hFree : ∀ j, s.record = some j → s.role j ≠ .holding)
      (hAlone : ∀ j, j ≠ i → s.role j ≠ .claiming) : Step s (s.move i .claiming s.record)
  /-- A claimer wipes the record. -/
  | wipe (i : ι) (hClaims : s.role i = .claiming) : Step s (s.move i .claiming none)
  /-- A claimer puts its name down. -/
  | take (i : ι) (hClaims : s.role i = .claiming) (hGone : ∀ j, j ≠ i → s.role j ≠ .leaving) :
      Step s (s.move i .holding (some i))
  /-- A holder takes its name back, or fails to. -/
  | release (i : ι) (record : Option ι) (hHolds : s.role i = .holding) :
      Step s (s.move i .leaving record)
  /-- A party gives up, or is through. -/
  | leave (i : ι) : Step s (s.move i .out s.record)

/-- Only party `i` has changed: the two that claim or have the right are old ones,
or `i` is among them. -/
theorem eq_of_move {s : State ι} {i : ι} {r : Role} {record : Option ι} {P : Role → Prop}
    (hOld : ∀ j k, P (s.role j) → P (s.role k) → j = k)
    (hNew : P r → ∀ j, j ≠ i → ¬P (s.role j)) {j k : ι}
    (hj : P ((s.move i r record).role j)) (hk : P ((s.move i r record).role k)) : j = k := by
  by_cases hji : j = i
  · by_cases hki : k = i
    · rw [hji, hki]
    · rw [role_move_of_ne s r record hki] at hk
      rw [hji, role_move_self] at hj
      exact absurd hk (hNew hj k hki)
  · rw [role_move_of_ne s r record hji] at hj
    by_cases hki : k = i
    · rw [hki, role_move_self] at hk
      exact absurd hj (hNew hk j hji)
    · rw [role_move_of_ne s r record hki] at hk
      exact hOld j k hj hk

theorem eq_of_move_old {s : State ι} {i : ι} {r : Role} {record : Option ι} {P : Role → Prop}
    (hOld : ∀ j k, P (s.role j) → P (s.role k) → j = k) (hNew : ¬P r) {j k : ι}
    (hj : P ((s.move i r record).role j)) (hk : P ((s.move i r record).role k)) : j = k :=
  eq_of_move hOld (fun h => absurd h hNew) hj hk

/-- **One step.** -/
theorem exclusive_step {s t : State ι} (h : Exclusive s) (hStep : Step s t) : Exclusive t := by
  obtain ⟨hClaims, hHolder, hRecorded, hPossesses⟩ := h
  have hRole : ∀ (i j : ι) (r : Role) (record : Option ι) (r' : Role),
      (s.move i r record).role j = r' → (j = i ∧ r = r') ∨ (j ≠ i ∧ s.role j = r') := by
    intro i j r record r' hj
    by_cases hji : j = i
    · rw [hji, role_move_self] at hj
      exact .inl ⟨hji, hj⟩
    · rw [role_move_of_ne s r record hji] at hj
      exact .inr ⟨hji, hj⟩
  rcases hStep with ⟨i, hFree, hAlone⟩ | ⟨i, hi⟩ | ⟨i, hi, hGone⟩ | ⟨i, record, hi⟩ | i
  · -- a claim: whoever holds is named in the record
    have hNone : ∀ j, s.role j ≠ .holding := fun j hj => hFree j (hRecorded j hj) hj
    constructor
    · exact fun j k => eq_of_move (P := (· = Role.claiming)) hClaims fun _ => hAlone
    · intro j k _ hk
      rcases hRole i k _ _ _ hk with ⟨_, hEq⟩ | ⟨_, hOld⟩
      · cases hEq
      · exact hNone k hOld
    · intro j hj
      rcases hRole i j _ _ _ hj with ⟨_, hEq⟩ | ⟨_, hOld⟩
      · cases hEq
      · exact absurd hOld (hNone j)
    · exact fun j k => eq_of_move_old hPossesses not_possesses_claiming
  · -- a wiped record: nobody holds
    have hNone : ∀ j, s.role j ≠ .holding := fun j => hHolder i j hi
    constructor
    · exact fun j k => eq_of_move (P := (· = Role.claiming)) hClaims
        fun _ j hji hj => hji (hClaims j i hj hi)
    · intro j k _ hk
      rcases hRole i k _ _ _ hk with ⟨_, hEq⟩ | ⟨_, hOld⟩
      · cases hEq
      · exact hNone k hOld
    · intro j hj
      rcases hRole i j _ _ _ hj with ⟨_, hEq⟩ | ⟨_, hOld⟩
      · cases hEq
      · exact absurd hOld (hNone j)
    · exact fun j k => eq_of_move_old hPossesses not_possesses_claiming
  · -- the claimer takes the right: nobody holds, nobody is leaving
    have hOthers : ∀ j, j ≠ i → ¬(s.role j).possesses := by
      intro j hji hj
      rcases hj with hHolding | hLeaving
      · exact hHolder i j hi hHolding
      · exact hGone j hji hLeaving
    constructor
    · exact fun j k => eq_of_move_old (P := (· = Role.claiming)) hClaims Role.noConfusion
    · intro j k hj
      rcases hRole i j _ _ _ hj with ⟨_, hEq⟩ | ⟨hji, hOld⟩
      · cases hEq
      · exact absurd (hClaims j i hOld hi) hji
    · intro j hj
      rcases hRole i j _ _ _ hj with ⟨rfl, _⟩ | ⟨hji, hOld⟩
      · rfl
      · exact absurd hOld (hHolder i j hi)
    · exact fun j k => eq_of_move hPossesses fun _ => hOthers
  · -- the holder leaves
    have hi' : (s.role i).possesses := .inl hi
    have hOthers : ∀ j, j ≠ i → ¬(s.role j).possesses := fun j hji hj => hji (hPossesses j i hj hi')
    have hNone : ∀ j, j ≠ i → s.role j ≠ .holding := fun j hji hj => hOthers j hji (.inl hj)
    constructor
    · exact fun j k => eq_of_move_old (P := (· = Role.claiming)) hClaims Role.noConfusion
    · intro j k hj
      rcases hRole i j _ _ _ hj with ⟨_, hEq⟩ | ⟨_, hOld⟩
      · cases hEq
      · exact absurd hi (hHolder j i hOld)
    · intro j hj
      rcases hRole i j _ _ _ hj with ⟨_, hEq⟩ | ⟨hji, hOld⟩
      · cases hEq
      · exact absurd hOld (hNone j hji)
    · exact fun j k => eq_of_move hPossesses fun _ => hOthers
  · -- one party less
    constructor
    · exact fun j k => eq_of_move_old (P := (· = Role.claiming)) hClaims Role.noConfusion
    · intro j k hj hk
      rcases hRole i j _ _ _ hj with ⟨_, hEq⟩ | ⟨_, hOldJ⟩
      · cases hEq
      rcases hRole i k _ _ _ hk with ⟨_, hEq⟩ | ⟨_, hOldK⟩
      · cases hEq
      · exact hHolder j k hOldJ hOldK
    · intro j hj
      rcases hRole i j _ _ _ hj with ⟨_, hEq⟩ | ⟨_, hOld⟩
      · cases hEq
      · exact hRecorded j hOld
    · exact fun j k => eq_of_move_old hPossesses not_possesses_out

end Exclusion
