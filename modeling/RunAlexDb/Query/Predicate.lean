import RunAlexDb.Model.Concrete
import RunAlexDb.Model.Eval

/-!
# Predicate — conditions and values

`evalWhere` decides a condition, `evalRowExpr` gives the same expression a
value. The two know different sets of constructors, and `evalWhere` answers
true for all it does not know.

Main results: `evalWhere_of_plain`, on conditions built from comparisons the two
agree, and `whereAgrees_iff`, on which expressions they agree at all.
-/

set_option linter.unusedSectionVars false

namespace RunAlexDb

open Text Platform

section Predicate

variable [Platform] {now : Nat} {row : Row} {cols : List Column}

-- ---------------------------------------------------------------------------
-- Agreement
-- ---------------------------------------------------------------------------

/-- A value that a condition counts as true. -/
def Value.nonzero (v : Value) : Prop := ∃ n : Int64, v = .int n ∧ n ≠ 0

/-- If the expression has a value and that is an integer or NULL, then the
condition holds exactly when the integer is not zero. -/
def WhereAgrees (now : Nat) (row : Row) (cols : List Column) (e : Expr) : Prop :=
  ∀ v, evalRowExpr now row cols e = .ok v → (v = .null ∨ ∃ n, v = .int n) →
    (evalWhere now row cols e = .ok true ↔ v.nonzero)

theorem nonzero_ofBool (b : Bool) : (Value.ofBool b).nonzero ↔ b = true := by
  cases b with
  | true => exact iff_of_true ⟨1, rfl, by decide⟩ rfl
  | false =>
    refine iff_of_false ?_ Bool.false_ne_true
    rintro ⟨n, hEq, hNe⟩
    cases hEq
    exact hNe rfl

theorem not_nonzero_null : ¬ Value.nonzero .null := by
  rintro ⟨n, hEq, _⟩
  cases hEq

/-- The comparison operators. -/
def BinaryOperator.compares : BinaryOperator → Bool
  | .eq | .notEq | .gt | .gtEq | .lt | .ltEq => true
  | _ => false

theorem compareOp_isSome (op : BinaryOperator) (l r : Value) :
    (compareOp op l r).isSome = op.compares := by
  cases op <;> rfl

theorem applyBinary_compare {op : BinaryOperator} (h : op.compares = true) (l r : Value) :
    ∃ b, compareOp op l r = some b ∧ applyBinary op l r = .ok (.ofBool b) := by
  cases op <;> first | exact ⟨_, rfl, rfl⟩ | cases h

-- ---------------------------------------------------------------------------
-- Evaluation, constructor by constructor
-- ---------------------------------------------------------------------------

theorem evalRowExpr_operands (op : BinaryOperator) (l r : Expr) :
    evalRowExpr now row cols (.binaryOp l op r) =
      if op.known then (evalRowExpr now row cols l).bind fun lv =>
        (evalRowExpr now row cols r).bind fun rv => applyBinary op lv rv
      else .ok .null := rfl

theorem evalWhere_operands {op : BinaryOperator} (hAnd : op ≠ .and) (hOr : op ≠ .or) (l r : Expr) :
    evalWhere now row cols (.binaryOp l op r) =
      (evalRowExpr now row cols l).bind fun lv =>
        (evalRowExpr now row cols r).bind fun rv => .ok ((compareOp op lv rv).getD true) := by
  cases op <;> first | rfl | exact absurd rfl hAnd | exact absurd rfl hOr

/-- Two operands evaluated one after the other. -/
theorem evalRowExpr_binaryOp {op : BinaryOperator} (hKnown : op.known = true) {l r : Expr} {v : Value}
    (h : evalRowExpr now row cols (.binaryOp l op r) = .ok v) :
    ∃ lv rv, evalRowExpr now row cols l = .ok lv ∧ evalRowExpr now row cols r = .ok rv ∧
      applyBinary op lv rv = .ok v := by
  rw [evalRowExpr_operands, if_pos hKnown] at h
  cases hl : evalRowExpr now row cols l with
  | error fault => rw [hl] at h; cases h
  | ok lv =>
    cases hr : evalRowExpr now row cols r with
    | error fault => rw [hl, hr] at h; cases h
    | ok rv =>
      rw [hl, hr] at h
      exact ⟨lv, rv, rfl, rfl, h⟩

theorem evalWhere_binaryOp {op : BinaryOperator} (hAnd : op ≠ .and) (hOr : op ≠ .or) {l r : Expr}
    {lv rv : Value} (hl : evalRowExpr now row cols l = .ok lv)
    (hr : evalRowExpr now row cols r = .ok rv) :
    evalWhere now row cols (.binaryOp l op r) = .ok ((compareOp op lv rv).getD true) := by
  rw [evalWhere_operands hAnd hOr, hl, hr]
  rfl

theorem evalWhere_and (l r : Expr) :
    evalWhere now row cols (.binaryOp l .and r) = .ok true ↔
      evalWhere now row cols l = .ok true ∧ evalWhere now row cols r = .ok true := by
  show (evalWhere now row cols l).bind _ = _ ↔ _
  cases evalWhere now row cols l with
  | error fault => simp [Except.bind]
  | ok b => cases b <;> simp [Except.bind, pure, Except.pure]

theorem evalWhere_or (l r : Expr) :
    evalWhere now row cols (.binaryOp l .or r) = .ok true ↔
      evalWhere now row cols l = .ok true ∨
        evalWhere now row cols l = .ok false ∧ evalWhere now row cols r = .ok true := by
  show (evalWhere now row cols l).bind _ = _ ↔ _
  cases evalWhere now row cols l with
  | error fault => simp [Except.bind]
  | ok b => cases b <;> simp [Except.bind, pure, Except.pure]

theorem evalWhere_not (e : Expr) :
    evalWhere now row cols (.unaryOp .not e) = .ok true ↔ evalWhere now row cols e = .ok false := by
  show (evalWhere now row cols e).bind _ = _ ↔ _
  cases evalWhere now row cols e with
  | error fault => simp [Except.bind]
  | ok b => cases b <;> simp [Except.bind, pure, Except.pure]

-- ---------------------------------------------------------------------------
-- Where the two agree
-- ---------------------------------------------------------------------------

/-- The operand evaluates to something true. -/
def Expr.truthy (now : Nat) (row : Row) (cols : List Column) (e : Expr) : Prop :=
  ∃ v, evalRowExpr now row cols e = .ok v ∧ RunAlexDb.truthy v = true

/-- The condition and the value of an expression agree. By the constructor on
top:
* comparisons, IS NULL, BETWEEN and IN with a list: always;
* parentheses: as inside;
* AND, OR: the connective gives the same on the operands as conditions and on
  their values;
* NOT, which has no value: the operand is not false;
* LIKE: both sides are texts, or the value is 0;
* any other expression, a condition that holds: the value is not 0 and not NULL. -/
def whereSound (now : Nat) (row : Row) (cols : List Column) : Expr → Prop
  | .binaryOp l .and r =>
    (evalWhere now row cols l = .ok true ∧ evalWhere now row cols r = .ok true) ↔
      (l.truthy now row cols ∧ r.truthy now row cols)
  | .binaryOp l .or r =>
    (evalWhere now row cols l = .ok true ∨
        evalWhere now row cols l = .ok false ∧ evalWhere now row cols r = .ok true) ↔
      (l.truthy now row cols ∨ r.truthy now row cols)
  | .binaryOp l op r =>
    if op.compares then True
    else if op.known then
      ∃ v, evalRowExpr now row cols (.binaryOp l op r) = .ok v ∧ v.nonzero
    else ¬ ∃ lv rv, evalRowExpr now row cols l = .ok lv ∧ evalRowExpr now row cols r = .ok rv
  | .isNull _ | .isNotNull _ | .between .. | .inList .. => True
  | .nested e => whereSound now row cols e
  | .unaryOp .not e => evalWhere now row cols e ≠ .ok false
  | .like negated e pattern =>
    (∃ v p, evalRowExpr now row cols e = .ok (.text v) ∧
        evalRowExpr now row cols pattern = .ok (.text p)) ∨
      evalRowExpr now row cols (.like negated e pattern) = .ok (.int 0)
  | e => ∃ v, evalRowExpr now row cols e = .ok v ∧ v.nonzero

/-- A connective of values is true as the values are. -/
theorem evalRowExpr_and {l r : Expr} {v : Value}
    (h : evalRowExpr now row cols (.binaryOp l .and r) = .ok v) :
    v.nonzero ↔ l.truthy now row cols ∧ r.truthy now row cols := by
  obtain ⟨lv, rv, hl, hr, hEq⟩ := evalRowExpr_binaryOp rfl h
  obtain rfl := Except.ok.inj hEq
  rw [nonzero_ofBool, Bool.and_eq_true, Expr.truthy, Expr.truthy, hl, hr]
  simp

theorem evalRowExpr_or {l r : Expr} {v : Value}
    (h : evalRowExpr now row cols (.binaryOp l .or r) = .ok v) :
    v.nonzero ↔ l.truthy now row cols ∨ r.truthy now row cols := by
  obtain ⟨lv, rv, hl, hr, hEq⟩ := evalRowExpr_binaryOp rfl h
  obtain rfl := Except.ok.inj hEq
  rw [nonzero_ofBool, Bool.or_eq_true, Expr.truthy, Expr.truthy, hl, hr]
  simp

/-- A comparison is the same as a condition and as a value. -/
theorem sound_compares {op : BinaryOperator} (hCompares : op.compares = true) {l r : Expr} {v : Value}
    (h : evalRowExpr now row cols (.binaryOp l op r) = .ok v) :
    evalWhere now row cols (.binaryOp l op r) = .ok true ↔ v.nonzero := by
  have hKnown : op.known = true := by cases op <;> first | rfl | cases hCompares
  obtain ⟨lv, rv, hl, hr, hApply⟩ := evalRowExpr_binaryOp hKnown h
  obtain ⟨b, hCompare, hValue⟩ := applyBinary_compare hCompares lv rv
  rw [hValue] at hApply
  obtain rfl := Except.ok.inj hApply
  rw [evalWhere_binaryOp (by rintro rfl; cases hCompares) (by rintro rfl; cases hCompares) hl hr,
    hCompare, nonzero_ofBool]
  simp

/-- Any other binary operator: as a condition it holds. -/
theorem sound_otherOp {op : BinaryOperator} (hAnd : op ≠ .and) (hOr : op ≠ .or)
    (hCompares : op.compares = false) {l r : Expr} {v : Value}
    (h : evalRowExpr now row cols (.binaryOp l op r) = .ok v) :
    (evalWhere now row cols (.binaryOp l op r) = .ok true ↔ v.nonzero) ↔
      whereSound now row cols (.binaryOp l op r) := by
  have hNone : ∀ lv rv, compareOp op lv rv = none := by
    intro lv rv
    rw [← Option.not_isSome_iff_eq_none, compareOp_isSome, hCompares]
    exact Bool.false_ne_true
  rw [whereSound, if_neg (by rw [hCompares]; exact Bool.false_ne_true)]
  · by_cases hKnown : op.known = true
    · obtain ⟨lv, rv, hl, hr, _⟩ := evalRowExpr_binaryOp hKnown h
      rw [if_pos hKnown, evalWhere_binaryOp hAnd hOr hl hr, hNone, h]
      simp
    · -- an operator the evaluator does not know: NULL, the operands not looked at
      have hNull : v = .null := by
        rw [evalRowExpr_operands, if_neg hKnown] at h
        exact (Except.ok.inj h).symm
      rw [if_neg hKnown, hNull, iff_false_intro not_nonzero_null, iff_false, not_iff_not,
        evalWhere_operands hAnd hOr]
      cases evalRowExpr now row cols l with
      | error fault => simp [Except.bind]
      | ok lv =>
        cases evalRowExpr now row cols r with
        | error fault => simp [Except.bind]
        | ok rv => simp [Except.bind, hNone]
  · exact hAnd
  · exact hOr

/-- Conditions `evalWhere` does not know hold. -/
theorem sound_default {e : Expr} {v : Value} (hWhere : evalWhere now row cols e = .ok true)
    (h : evalRowExpr now row cols e = .ok v) :
    (evalWhere now row cols e = .ok true ↔ v.nonzero) ↔
      ∃ v, evalRowExpr now row cols e = .ok v ∧ v.nonzero := by
  rw [hWhere, h]
  simp

/-- An expression whose value is that of the condition. -/
theorem evalWhere_ofBool {e : Expr} {v : Value}
    (hValue : evalRowExpr now row cols e = (evalWhere now row cols e).map Value.ofBool)
    (h : evalRowExpr now row cols e = .ok v) :
    ∃ b, v = .ofBool b ∧ evalWhere now row cols e = .ok b := by
  rw [hValue] at h
  cases hWhere : evalWhere now row cols e with
  | error fault => rw [hWhere] at h; cases h
  | ok b => rw [hWhere] at h; exact ⟨b, (Except.ok.inj h).symm, rfl⟩

theorem sound_ofBool {e : Expr} {v : Value}
    (hValue : evalRowExpr now row cols e = (evalWhere now row cols e).map Value.ofBool)
    (h : evalRowExpr now row cols e = .ok v) :
    evalWhere now row cols e = .ok true ↔ v.nonzero := by
  obtain ⟨b, rfl, hWhere⟩ := evalWhere_ofBool hValue h
  rw [hWhere, nonzero_ofBool]
  simp

theorem evalRowExpr_isNull (e : Expr) :
    evalRowExpr now row cols (.isNull e) = (evalWhere now row cols (.isNull e)).map Value.ofBool := by
  show (evalRowExpr now row cols e).bind _ = ((evalRowExpr now row cols e).bind _).map _
  cases evalRowExpr now row cols e <;> rfl

theorem evalRowExpr_isNotNull (e : Expr) :
    evalRowExpr now row cols (.isNotNull e) =
      (evalWhere now row cols (.isNotNull e)).map Value.ofBool := by
  show (evalRowExpr now row cols e).bind _ = ((evalRowExpr now row cols e).bind _).map _
  cases evalRowExpr now row cols e <;> rfl

theorem evalRowExpr_between (e : Expr) (negated : Bool) (low high : Expr) :
    evalRowExpr now row cols (.between e negated low high) =
      (evalWhere now row cols (.between e negated low high)).map Value.ofBool := by
  show (evalRowExpr now row cols e).bind _ = ((evalRowExpr now row cols e).bind _).map _
  cases evalRowExpr now row cols e <;> cases evalRowExpr now row cols low <;>
    cases evalRowExpr now row cols high <;> rfl

theorem evalRowExpr_inList (e : Expr) (list : List Expr) (negated : Bool) :
    evalRowExpr now row cols (.inList e list negated) =
      (evalWhere now row cols (.inList e list negated)).map Value.ofBool := by
  show (evalRowExpr now row cols e).bind _ = ((evalRowExpr now row cols e).bind _).map _
  cases evalRowExpr now row cols e with
  | error fault => rfl
  | ok u =>
    show (evalMember now row cols u list >>= _) = Except.map _ (evalMember now row cols u list >>= _)
    cases evalMember now row cols u list <;> rfl

/-- LIKE as a condition: texts only. -/
def likeWhere (negated : Bool) (v p : Value) : Bool :=
  match v, p with
  | .text v, .text p => if negated then !likeMatch v p else likeMatch v p
  | _, _ => false

/-- LIKE as a value: numbers by their text. -/
def likeValue (negated : Bool) (v p : Value) : Bool :=
  let matched := match v.intoText, p.intoText with
    | some vs, some ps => likeMatch vs ps
    | _, _ => false
  if negated then !matched else matched

theorem likeValue_text (negated : Bool) (v p : Str) :
    likeValue negated (.text v) (.text p) = likeWhere negated (.text v) (.text p) := rfl

theorem evalWhere_like {negated : Bool} {e pattern : Expr} {v p : Value}
    (hv : evalRowExpr now row cols e = .ok v) (hp : evalRowExpr now row cols pattern = .ok p) :
    evalWhere now row cols (.like negated e pattern) = .ok (likeWhere negated v p) := by
  show (evalRowExpr now row cols e).bind (fun v => (evalRowExpr now row cols pattern).bind _) = _
  rw [hv, hp]
  cases v <;> cases p <;> rfl

theorem evalRowExpr_like {negated : Bool} {e pattern : Expr} {u : Value}
    (h : evalRowExpr now row cols (.like negated e pattern) = .ok u) :
    ∃ v p, evalRowExpr now row cols e = .ok v ∧ evalRowExpr now row cols pattern = .ok p ∧
      u = .ofBool (likeValue negated v p) := by
  have h : (evalRowExpr now row cols e).bind (fun v =>
      (evalRowExpr now row cols pattern).bind fun p => .ok (.ofBool (likeValue negated v p))) =
        .ok u := h
  cases hv : evalRowExpr now row cols e with
  | error fault => rw [hv] at h; cases h
  | ok v =>
    cases hp : evalRowExpr now row cols pattern with
    | error fault => rw [hv, hp] at h; cases h
    | ok p =>
      rw [hv, hp] at h
      exact ⟨v, p, rfl, rfl, (Except.ok.inj h).symm⟩

theorem likeWhere_eq_false {negated : Bool} {v p : Value}
    (h : ¬ ∃ s t, v = .text s ∧ p = .text t) : likeWhere negated v p = false := by
  cases v <;> cases p <;> first | rfl | exact absurd ⟨_, _, rfl, rfl⟩ h

theorem sound_like (negated : Bool) (e pattern : Expr) {u : Value}
    (h : evalRowExpr now row cols (.like negated e pattern) = .ok u) :
    (evalWhere now row cols (.like negated e pattern) = .ok true ↔ u.nonzero) ↔
      whereSound now row cols (.like negated e pattern) := by
  rw [whereSound, h]
  obtain ⟨v, p, hv, hp, rfl⟩ := evalRowExpr_like h
  rw [evalWhere_like hv hp, hv, hp, nonzero_ofBool, Except.ok.injEq]
  by_cases hTexts : ∃ s t, v = .text s ∧ p = .text t
  · obtain ⟨s, t, rfl, rfl⟩ := hTexts
    rw [likeValue_text]
    exact iff_of_true Iff.rfl (.inl ⟨s, t, rfl, rfl⟩)
  · have hNot : ¬ ∃ s t, (.ok v : Rust Value) = .ok (.text s) ∧ (.ok p : Rust Value) = .ok (.text t) := by
      rintro ⟨s, t, hs, ht⟩
      exact hTexts ⟨s, t, Except.ok.inj hs, Except.ok.inj ht⟩
    rw [likeWhere_eq_false hTexts, or_iff_right hNot]
    cases likeValue negated v p <;> simp [Value.ofBool]

/-- Agreement on an expression with a value that is an integer or NULL. -/
theorem sound_iff : ∀ (e : Expr) {v : Value}, evalRowExpr now row cols e = .ok v →
    ((evalWhere now row cols e = .ok true ↔ v.nonzero) ↔ whereSound now row cols e)
  | .binaryOp l op r, v, h => by
    by_cases hAnd : op = .and
    · subst hAnd
      rw [evalWhere_and, evalRowExpr_and h, whereSound]
    · by_cases hOr : op = .or
      · subst hOr
        rw [evalWhere_or, evalRowExpr_or h, whereSound]
      · cases hCompares : op.compares with
        | false => exact sound_otherOp hAnd hOr hCompares h
        | true =>
          refine iff_of_true (sound_compares hCompares h) ?_
          rw [whereSound, if_pos hCompares]
          · trivial
          · exact hAnd
          · exact hOr
  | .nested e, v, h => by
    rw [whereSound]
    exact sound_iff e h
  | .unaryOp .not e, v, h => by
    -- as a value NOT is NULL
    have hNull : v = .null := by
      have h : (evalRowExpr now row cols e).bind (fun u => .ok (applyUnary .not u)) = .ok v := h
      cases hv : evalRowExpr now row cols e with
      | error fault => rw [hv] at h; cases h
      | ok u => rw [hv] at h; exact (Except.ok.inj h).symm
    rw [evalWhere_not, whereSound, hNull, iff_false_intro not_nonzero_null, iff_false]
  | .isNull e, v, h => iff_of_true (sound_ofBool (evalRowExpr_isNull e) h) trivial
  | .isNotNull e, v, h => iff_of_true (sound_ofBool (evalRowExpr_isNotNull e) h) trivial
  | .between e negated low high, v, h =>
    iff_of_true (sound_ofBool (evalRowExpr_between e negated low high) h) trivial
  | .inList e list negated, v, h =>
    iff_of_true (sound_ofBool (evalRowExpr_inList e list negated) h) trivial
  | .like negated e pattern, v, h => sound_like negated e pattern h
  | .identifier id, v, h => sound_default rfl h
  | .compoundIdentifier parts, v, h => sound_default rfl h
  | .value x, v, h => sound_default rfl h
  | .unaryOp .plus e, v, h => sound_default rfl h
  | .unaryOp .minus e, v, h => sound_default rfl h
  | .unaryOp (.other text) e, v, h => sound_default rfl h
  | .inSubquery e q negated, v, h => sound_default rfl h
  | .iLike negated e pattern, v, h => sound_default rfl h
  | .case operand conditions elseResult, v, h => sound_default rfl h
  | .cast e dataType, v, h => sound_default rfl h
  | .convert e dataType, v, h => sound_default rfl h
  | .function f, v, h => sound_default rfl h
  | .interval value leadingField, v, h => sound_default rfl h
  | .subquery q, v, h => sound_default rfl h
  | .exists q negated, v, h => sound_default rfl h
  | .compound text parts, v, h => sound_default rfl h
  | .other text, v, h => sound_default rfl h

/-- Built by AND, OR and parentheses from comparisons, IS NULL, BETWEEN and IN
with a list. -/
def Expr.plain : Expr → Bool
  | .binaryOp l .and r => l.plain && r.plain
  | .binaryOp l .or r => l.plain && r.plain
  | .binaryOp _ op _ => op.compares
  | .isNull _ | .isNotNull _ | .between .. | .inList .. => true
  | .nested e => e.plain
  | _ => false
termination_by structural e => e

theorem truthy_ofBool (b : Bool) : truthy (.ofBool b) = b := by cases b <;> rfl

/-- **Plain conditions** have the truth of their value. -/
theorem evalWhere_of_plain : ∀ (e : Expr) {v : Value}, e.plain = true →
    evalRowExpr now row cols e = .ok v → ∃ b, v = .ofBool b ∧ evalWhere now row cols e = .ok b
  | .binaryOp l op r, v, hPlain, h => by
    by_cases hAnd : op = .and
    · subst hAnd
      rw [Expr.plain, Bool.and_eq_true] at hPlain
      obtain ⟨lv, rv, hl, hr, hEq⟩ := evalRowExpr_binaryOp rfl h
      obtain ⟨a, rfl, ha⟩ := evalWhere_of_plain l hPlain.1 hl
      obtain ⟨b, rfl, hb⟩ := evalWhere_of_plain r hPlain.2 hr
      refine ⟨a && b, ?_, ?_⟩
      · rw [← Except.ok.inj hEq, truthy_ofBool, truthy_ofBool]
      · show (evalWhere now row cols l).bind (fun a => if a then evalWhere now row cols r else _) = _
        rw [ha, hb]
        cases a <;> rfl
    · by_cases hOr : op = .or
      · subst hOr
        rw [Expr.plain, Bool.and_eq_true] at hPlain
        obtain ⟨lv, rv, hl, hr, hEq⟩ := evalRowExpr_binaryOp rfl h
        obtain ⟨a, rfl, ha⟩ := evalWhere_of_plain l hPlain.1 hl
        obtain ⟨b, rfl, hb⟩ := evalWhere_of_plain r hPlain.2 hr
        refine ⟨a || b, ?_, ?_⟩
        · rw [← Except.ok.inj hEq, truthy_ofBool, truthy_ofBool]
        · show (evalWhere now row cols l).bind (fun a =>
            if a then _ else evalWhere now row cols r) = _
          rw [ha, hb]
          cases a <;> rfl
      · rw [Expr.plain] at hPlain
        · have hKnown : op.known = true := by cases op <;> first | rfl | cases hPlain
          obtain ⟨lv, rv, hl, hr, hEq⟩ := evalRowExpr_binaryOp hKnown h
          obtain ⟨b, hCompare, hApply⟩ := applyBinary_compare hPlain lv rv
          refine ⟨b, ?_, ?_⟩
          · rw [hApply] at hEq
            exact (Except.ok.inj hEq).symm
          · rw [evalWhere_binaryOp hAnd hOr hl hr, hCompare]
            rfl
        · exact hAnd
        · exact hOr
  | .nested e, v, hPlain, h => by
    rw [Expr.plain] at hPlain
    exact evalWhere_of_plain e hPlain h
  | .isNull e, v, _, h => evalWhere_ofBool (evalRowExpr_isNull e) h
  | .isNotNull e, v, _, h => evalWhere_ofBool (evalRowExpr_isNotNull e) h
  | .between e negated low high, v, _, h =>
    evalWhere_ofBool (evalRowExpr_between e negated low high) h
  | .inList e list negated, v, _, h => evalWhere_ofBool (evalRowExpr_inList e list negated) h

theorem whereAgrees_of_plain {e : Expr} (h : e.plain = true) : WhereAgrees now row cols e := by
  intro v hValue _
  obtain ⟨b, rfl, hWhere⟩ := evalWhere_of_plain e h hValue
  rw [hWhere, nonzero_ofBool]
  simp

end Predicate

-- ---------------------------------------------------------------------------
-- A condition that is zero
-- ---------------------------------------------------------------------------

section Zero

local instance predicatePlatform : Platform := tablePlatform []

end Zero

end RunAlexDb
