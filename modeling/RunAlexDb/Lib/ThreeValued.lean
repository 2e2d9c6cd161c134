import Mathlib.Tactic.Tauto

/-!
# ThreeValued — Kleene truth and two-valued answers

A formula has a truth value by Kleene's tables, `none` for unknown, and an answer
by the two-valued ones. Atoms whose answer is not their truth value mislead the
formula; `misled` follows them through the connectives, where a known truth value
on one side may make up for the other.

Main result: `eval_iff_kleene`, when the answer is true exactly for what is true.
-/

inductive Formula (α : Type)
  | atom (a : α)
  | bot
  | not (p : Formula α)
  | and (p q : Formula α)
  | or (p q : Formula α)

namespace Formula

variable {α : Type}

-- ---------------------------------------------------------------------------
-- Truth and answer
-- ---------------------------------------------------------------------------

def knot : Option Bool → Option Bool := Option.map Bool.not

def kand : Option Bool → Option Bool → Option Bool
  | some false, _ => some false
  | _, some false => some false
  | some true, some true => some true
  | _, _ => none

def kor : Option Bool → Option Bool → Option Bool
  | some true, _ => some true
  | _, some true => some true
  | some false, some false => some false
  | _, _ => none

theorem knot_eq_some (k : Option Bool) (b : Bool) : knot k = some b ↔ k = some (!b) := by
  cases k with
  | none => simp [knot]
  | some c => cases c <;> cases b <;> simp [knot]

theorem kand_eq_true (k l : Option Bool) : kand k l = some true ↔ k = some true ∧ l = some true := by
  rcases k with _ | _ | _ <;> rcases l with _ | _ | _ <;> simp [kand]

theorem kand_eq_false (k l : Option Bool) :
    kand k l = some false ↔ k = some false ∨ l = some false := by
  rcases k with _ | _ | _ <;> rcases l with _ | _ | _ <;> simp [kand]

theorem kor_eq_true (k l : Option Bool) : kor k l = some true ↔ k = some true ∨ l = some true := by
  rcases k with _ | _ | _ <;> rcases l with _ | _ | _ <;> simp [kor]

theorem kor_eq_false (k l : Option Bool) :
    kor k l = some false ↔ k = some false ∧ l = some false := by
  rcases k with _ | _ | _ <;> rcases l with _ | _ | _ <;> simp [kor]

/-- The truth value, unknown atoms being `none`. -/
def kleene (truth : α → Option Bool) : Formula α → Option Bool
  | atom a => truth a
  | bot => some false
  | not p => knot (kleene truth p)
  | and p q => kand (kleene truth p) (kleene truth q)
  | or p q => kor (kleene truth p) (kleene truth q)

/-- The answer. -/
def eval (answer : α → Bool) : Formula α → Bool
  | atom a => answer a
  | bot => false
  | not p => !eval answer p
  | and p q => eval answer p && eval answer q
  | or p q => eval answer p || eval answer q

-- ---------------------------------------------------------------------------
-- Misled answers
-- ---------------------------------------------------------------------------

/-- One side is misled to `b`, the other says `b` as well: misled too, or because
that is its truth value. -/
def bothMisled (mp mq : Bool → Prop) (kp kq : Option Bool) (b : Bool) : Prop :=
  mp b ∧ (mq b ∨ kq = some b ∧ ¬ mq !b) ∨ (mp b ∨ kp = some b ∧ ¬ mp !b) ∧ mq b

/-- One side is misled to `b`, and `b` is the truth value of neither. -/
def eitherMisled (mp mq : Bool → Prop) (kp kq : Option Bool) (b : Bool) : Prop :=
  kp ≠ some b ∧ kq ≠ some b ∧ (mp b ∨ mq b)

/-- The formula is answered with `b`, which is not its truth value. -/
def misled (truth : α → Option Bool) (wrong : Bool → α → Prop) : Formula α → Bool → Prop
  | atom a, b => wrong b a
  | bot, _ => False
  | not p, b => misled truth wrong p !b
  | and p q, true =>
    bothMisled (misled truth wrong p) (misled truth wrong q) (kleene truth p) (kleene truth q) true
  | and p q, false =>
    eitherMisled (misled truth wrong p) (misled truth wrong q) (kleene truth p) (kleene truth q) false
  | or p q, true =>
    eitherMisled (misled truth wrong p) (misled truth wrong q) (kleene truth p) (kleene truth q) true
  | or p q, false =>
    bothMisled (misled truth wrong p) (misled truth wrong q) (kleene truth p) (kleene truth q) false

section Sides

variable {mp mq : Bool → Prop} {kp kq : Option Bool} {ap aq : Bool}
  (hp : ∀ b, mp b ↔ ap = b ∧ kp ≠ some b) (hq : ∀ b, mq b ↔ aq = b ∧ kq ≠ some b)

include hp hq

theorem bothMisled_iff (b : Bool) :
    bothMisled mp mq kp kq b ↔ (ap = b ∧ aq = b) ∧ ¬ (kp = some b ∧ kq = some b) := by
  have hOther : ∀ c : Bool, c = b ∨ c = !b := fun c => by cases c <;> cases b <;> simp
  have hNe : ∀ k : Option Bool, k = some b → k ≠ some !b := fun k hk hk' => by
    cases b <;> simp_all
  rw [bothMisled, hp, hq, hp, hq]
  have hA := hOther ap
  have hB := hOther aq
  have hKp := hNe kp
  have hKq := hNe kq
  have hDistinct : b ≠ !b := by cases b <;> simp
  constructor
  · rintro (⟨⟨ha, hk⟩, ⟨hb, -⟩ | ⟨hk', hNot⟩⟩ | ⟨⟨ha, -⟩ | ⟨hk', hNot⟩, hb, hk⟩)
    · exact ⟨⟨ha, hb⟩, fun h => hk h.1⟩
    · exact ⟨⟨ha, hB.resolve_right fun h => hNot ⟨h, hKq hk'⟩⟩, fun h => hk h.1⟩
    · exact ⟨⟨ha, hb⟩, fun h => hk h.2⟩
    · exact ⟨⟨hA.resolve_right fun h => hNot ⟨h, hKp hk'⟩, hb⟩, fun h => hk h.2⟩
  · rintro ⟨⟨ha, hb⟩, hNot⟩
    by_cases hk : kp = some b
    · have hk' : kq ≠ some b := fun h => hNot ⟨hk, h⟩
      exact .inr ⟨.inr ⟨hk, fun h => hDistinct (ha.symm.trans h.1)⟩, hb, hk'⟩
    · refine .inl ⟨⟨ha, hk⟩, ?_⟩
      by_cases hk' : kq = some b
      · exact .inr ⟨hk', fun h => hDistinct (hb.symm.trans h.1)⟩
      · exact .inl ⟨hb, hk'⟩

theorem eitherMisled_iff (b : Bool) :
    eitherMisled mp mq kp kq b ↔ (ap = b ∨ aq = b) ∧ ¬ (kp = some b ∨ kq = some b) := by
  rw [eitherMisled, hp, hq]
  tauto

end Sides

variable {truth : α → Option Bool} {answer : α → Bool} {wrong : Bool → α → Prop}
  (hWrong : ∀ b a, wrong b a ↔ answer a = b ∧ truth a ≠ some b)

include hWrong

/-- **Misled** formulas are those whose answer is not their truth value. -/
theorem misled_iff (p : Formula α) (b : Bool) :
    misled truth wrong p b ↔ eval answer p = b ∧ kleene truth p ≠ some b := by
  induction p generalizing b with
  | atom a => exact hWrong b a
  | bot => cases b <;> simp [misled, eval, kleene]
  | not p ih =>
    rw [misled, ih, kleene, eval, ne_eq, ne_eq, knot_eq_some, Bool.not_eq_eq_eq_not]
  | and p q ihp ihq =>
    cases b with
    | true =>
      rw [misled, bothMisled_iff ihp ihq, kleene, eval, ne_eq, kand_eq_true, Bool.and_eq_true]
    | false =>
      rw [misled, eitherMisled_iff ihp ihq, kleene, eval, ne_eq, kand_eq_false,
        Bool.and_eq_false_iff]
  | or p q ihp ihq =>
    cases b with
    | true =>
      rw [misled, eitherMisled_iff ihp ihq, kleene, eval, ne_eq, kor_eq_true, Bool.or_eq_true]
    | false =>
      rw [misled, bothMisled_iff ihp ihq, kleene, eval, ne_eq, kor_eq_false, Bool.or_eq_false_iff]

/-- **True answers** are given exactly to what is true, unless the formula is
misled to true, or away from it. -/
theorem eval_iff_kleene (p : Formula α) :
    (eval answer p = true ↔ kleene truth p = some true) ↔
      ¬ misled truth wrong p true ∧ (kleene truth p = some true → ¬ misled truth wrong p false) := by
  rw [misled_iff hWrong, misled_iff hWrong]
  cases eval answer p with
  | true => simp
  | false =>
    rcases kleene truth p with _ | _ | _ <;> simp

end Formula
