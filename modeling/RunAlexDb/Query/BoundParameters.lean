import RunAlexDb.Model.Concrete
import RunAlexDb.Query.Placeholders
import RunAlexDb.Query.Predicate

/-!
# BoundParameters — conditions with parameters

`evalWhereBound` evaluates a condition with its `?` in place. It is compared
with the evaluation of the condition in which every `?` is replaced by the
literal of its own value.

Main results: `evalWhereBound_iff`, when the two agree, and
`boundSound_of_plain`, conditions for which they do.
-/

set_option linter.unusedSectionVars false

namespace RunAlexDb

open Text Platform

section BoundParameters

variable [Platform]

-- ---------------------------------------------------------------------------
-- Connectives
-- ---------------------------------------------------------------------------

/-- `a && b`, the right side evaluated when the left is true. -/
def andThen (x y : Rust Bool) : Rust Bool := x.bind fun b => if b then y else .ok false

/-- `a || b`. -/
def orElse (x y : Rust Bool) : Rust Bool := x.bind fun b => if b then .ok true else y

theorem andThen_iff (x y y' : Rust Bool) : andThen x y = andThen x y' ↔ (x = .ok true → y = y') := by
  rcases x with fault | _ | _ <;> simp [andThen, Except.bind]

theorem orElse_iff (x y y' : Rust Bool) : orElse x y = orElse x y' ↔ (x = .ok false → y = y') := by
  rcases x with fault | _ | _ <;> simp [orElse, Except.bind]

theorem map_not_inj {x y : Rust Bool} : x.map not = y.map not ↔ x = y := by
  rcases x with fault | _ | _ <;> rcases y with fault' | _ | _ <;> simp [Except.map]

variable {literal : Value → Expr} {now : Nat} {row : Row} {cols : List Column} {bound : List Value}

theorem evalWhereBound_and (l r : Expr) :
    evalWhereBound now row cols bound (.binaryOp l .and r) =
      andThen (evalWhereBound now row cols bound l) (evalWhereBound now row cols bound r) := by
  show (evalWhereBound now row cols bound l).bind _ = _
  rcases evalWhereBound now row cols bound l with fault | _ | _ <;> rfl

theorem evalWhereBound_or (l r : Expr) :
    evalWhereBound now row cols bound (.binaryOp l .or r) =
      orElse (evalWhereBound now row cols bound l) (evalWhereBound now row cols bound r) := by
  show (evalWhereBound now row cols bound l).bind _ = _
  rcases evalWhereBound now row cols bound l with fault | _ | _ <;> rfl

theorem evalWhere_andThen (l r : Expr) :
    evalWhere now row cols (.binaryOp l .and r) =
      andThen (evalWhere now row cols l) (evalWhere now row cols r) := by
  show (evalWhere now row cols l).bind _ = _
  rcases evalWhere now row cols l with fault | _ | _ <;> rfl

theorem evalWhere_orElse (l r : Expr) :
    evalWhere now row cols (.binaryOp l .or r) =
      orElse (evalWhere now row cols l) (evalWhere now row cols r) := by
  show (evalWhere now row cols l).bind _ = _
  rcases evalWhere now row cols l with fault | _ | _ <;> rfl

-- ---------------------------------------------------------------------------
-- The bound tree
-- ---------------------------------------------------------------------------

/-- The condition with its `?` replaced by the literals of `own`, in order. -/
def boundExpr (literal : Value → Expr) (own : List Value) (e : Expr) : Expr :=
  (bindExpr literal e own).1

/-- The values `e` leaves. -/
def leftOver (literal : Value → Expr) (own : List Value) (e : Expr) : List Value :=
  (bindExpr literal e own).2

theorem boundExpr_binaryOp (own : List Value) (l : Expr) (op : BinaryOperator) (r : Expr) :
    boundExpr literal own (.binaryOp l op r) =
      .binaryOp (boundExpr literal own l) op (boundExpr literal (leftOver literal own l) r) := by
  rfl

theorem boundExpr_unaryOp (own : List Value) (op : UnaryOperator) (e : Expr) :
    boundExpr literal own (.unaryOp op e) = .unaryOp op (boundExpr literal own e) := by
  rfl

theorem boundExpr_nested (own : List Value) (e : Expr) :
    boundExpr literal own (.nested e) = .nested (boundExpr literal own e) := by
  rfl

theorem boundExpr_isNull (own : List Value) (e : Expr) :
    boundExpr literal own (.isNull e) = .isNull (boundExpr literal own e) := by
  rfl

theorem boundExpr_isNotNull (own : List Value) (e : Expr) :
    boundExpr literal own (.isNotNull e) = .isNotNull (boundExpr literal own e) := by
  rfl

-- ---------------------------------------------------------------------------
-- When the two agree
-- ---------------------------------------------------------------------------

/-- When a condition with `?` means the condition with the values `own` in their
places. NOT and parentheses: as inside. AND and OR: the left sides agree and,
where the right ones matter, these too, or the connective evens it out. A
comparison: the operands compare alike. IS NULL: the operand is NULL in both.
Any other kind: the `?` read as the text it prints as makes no difference. -/
def boundSound (literal : Value → Expr) (now : Nat) (row : Row) (cols : List Column)
    (bound : List Value) : Expr → List Value → Prop
  | .binaryOp l .and r, own =>
    (boundSound literal now row cols bound l own ∧
      (evalWhereBound now row cols bound l = .ok true →
        boundSound literal now row cols bound r (leftOver literal own l))) ∨
    (¬ boundSound literal now row cols bound l own ∧
      andThen (evalWhereBound now row cols bound l) (evalWhereBound now row cols bound r) =
        andThen (evalWhere now row cols (boundExpr literal own l))
          (evalWhere now row cols (boundExpr literal (leftOver literal own l) r)))
  | .binaryOp l .or r, own =>
    (boundSound literal now row cols bound l own ∧
      (evalWhereBound now row cols bound l = .ok false →
        boundSound literal now row cols bound r (leftOver literal own l))) ∨
    (¬ boundSound literal now row cols bound l own ∧
      orElse (evalWhereBound now row cols bound l) (evalWhereBound now row cols bound r) =
        orElse (evalWhere now row cols (boundExpr literal own l))
          (evalWhere now row cols (boundExpr literal (leftOver literal own l) r)))
  | .binaryOp l op r, own =>
    ∃ lv rv, evalRowExpr now row cols (boundExpr literal own l) = .ok lv ∧
      evalRowExpr now row cols (boundExpr literal (leftOver literal own l) r) = .ok rv ∧
        (compareOp op (resolveExprBound row cols bound l) (resolveExprBound row cols bound r)).getD
          true = (compareOp op lv rv).getD true
  | .unaryOp .not e, own => boundSound literal now row cols bound e own
  | .nested e, own => boundSound literal now row cols bound e own
  | .isNull e, own | .isNotNull e, own =>
    ∃ v, evalRowExpr now row cols (boundExpr literal own e) = .ok v ∧
      (resolveExprBound row cols bound e).isNull = v.isNull
  | e, own => evalWhere now row cols e = evalWhere now row cols (boundExpr literal own e)
termination_by structural e => e

theorem sound_compare {l r : Expr} {op : BinaryOperator} (hAnd : op ≠ .and) (hOr : op ≠ .or)
    (own : List Value) :
    evalWhereBound now row cols bound (.binaryOp l op r) =
        evalWhere now row cols (boundExpr literal own (.binaryOp l op r)) ↔
      boundSound literal now row cols bound (.binaryOp l op r) own := by
  rw [boundExpr_binaryOp, boundSound]
  · have hBound : evalWhereBound now row cols bound (.binaryOp l op r) =
        .ok ((compareOp op (resolveExprBound row cols bound l)
          (resolveExprBound row cols bound r)).getD true) := by
      cases op <;> first | rfl | exact absurd rfl hAnd | exact absurd rfl hOr
    rw [hBound, evalWhere_operands hAnd hOr]
    cases evalRowExpr now row cols (boundExpr literal own l) with
    | error fault => exact iff_of_false nofun (by rintro ⟨lv, rv, h, _⟩; cases h)
    | ok lv =>
      cases evalRowExpr now row cols (boundExpr literal (leftOver literal own l) r) with
      | error fault => exact iff_of_false nofun (by rintro ⟨lv, rv, _, h, _⟩; cases h)
      | ok rv =>
        simp only [Except.bind, Except.ok.injEq]
        constructor
        · exact fun h => ⟨lv, rv, rfl, rfl, h⟩
        · rintro ⟨_, _, rfl, rfl, h⟩
          exact h
  · exact hAnd
  · exact hOr

theorem sound_isNull (e : Expr) (own : List Value) :
    evalWhereBound now row cols bound (.isNull e) =
        evalWhere now row cols (boundExpr literal own (.isNull e)) ↔
      boundSound literal now row cols bound (.isNull e) own := by
  rw [boundExpr_isNull, boundSound]
  show Except.ok _ = Except.bind _ (fun v => Except.ok _) ↔ _
  cases evalRowExpr now row cols (boundExpr literal own e) with
  | error fault => exact iff_of_false nofun (by rintro ⟨v, h, _⟩; cases h)
  | ok v => simp only [Except.bind, Except.ok.injEq, exists_eq_left']

theorem sound_isNotNull (e : Expr) (own : List Value) :
    evalWhereBound now row cols bound (.isNotNull e) =
        evalWhere now row cols (boundExpr literal own (.isNotNull e)) ↔
      boundSound literal now row cols bound (.isNotNull e) own := by
  rw [boundExpr_isNotNull, boundSound]
  show Except.ok _ = Except.bind _ (fun v => Except.ok _) ↔ _
  cases evalRowExpr now row cols (boundExpr literal own e) with
  | error fault => exact iff_of_false nofun (by rintro ⟨v, h, _⟩; cases h)
  | ok v => simp only [Except.bind, Except.ok.injEq, exists_eq_left', Bool.not_inj_iff]

/-- By the constructor on top. -/
theorem sound_iff_bound : ∀ (e : Expr) (own : List Value),
    evalWhereBound now row cols bound e = evalWhere now row cols (boundExpr literal own e) ↔
      boundSound literal now row cols bound e own
  | .binaryOp l op r, own => by
    by_cases hAnd : op = .and
    · subst hAnd
      rw [evalWhereBound_and, boundExpr_binaryOp, evalWhere_andThen, boundSound]
      by_cases hLeft : boundSound literal now row cols bound l own
      · rw [← (sound_iff_bound l own).2 hLeft, andThen_iff, sound_iff_bound r (leftOver literal own l)]
        simp [hLeft]
      · simp [hLeft]
    · by_cases hOr : op = .or
      · subst hOr
        rw [evalWhereBound_or, boundExpr_binaryOp, evalWhere_orElse, boundSound]
        by_cases hLeft : boundSound literal now row cols bound l own
        · rw [← (sound_iff_bound l own).2 hLeft, orElse_iff, sound_iff_bound r (leftOver literal own l)]
          simp [hLeft]
        · simp [hLeft]
      · exact sound_compare hAnd hOr own
  | .nested e, own => by
    rw [boundExpr_nested, boundSound]
    exact sound_iff_bound e own
  | .unaryOp .not e, own => by
    rw [boundExpr_unaryOp, boundSound, ← sound_iff_bound e own]
    exact map_not_inj
  | .isNull e, own => sound_isNull e own
  | .isNotNull e, own => sound_isNotNull e own
  | .unaryOp .plus e, own => Iff.rfl
  | .unaryOp .minus e, own => Iff.rfl
  | .unaryOp (.other text) e, own => Iff.rfl
  | .identifier id, own => Iff.rfl
  | .compoundIdentifier parts, own => Iff.rfl
  | .value v, own => Iff.rfl
  | .inList e list negated, own => Iff.rfl
  | .inSubquery e subquery negated, own => Iff.rfl
  | .between e negated low high, own => Iff.rfl
  | .like negated e pattern, own => Iff.rfl
  | .iLike negated e pattern, own => Iff.rfl
  | .case operand conditions elseResult, own => Iff.rfl
  | .cast e dataType, own => Iff.rfl
  | .convert e dataType, own => Iff.rfl
  | .function f, own => Iff.rfl
  | .interval value leadingField, own => Iff.rfl
  | .subquery q, own => Iff.rfl
  | .exists subquery negated, own => Iff.rfl
  | .compound text parts, own => Iff.rfl
  | .other text, own => Iff.rfl

/-- Literals that both evaluators read alike. -/
def SqlValue.plain : SqlValue → Bool
  | .number _ _ | .singleQuotedString _ | .null => true
  | _ => false

/-- The literal of a value is evaluated to it. -/
def Value.readsBack (literal : Value → Expr) (v : Value) : Prop :=
  ∀ now row cols, evalRowExpr now row cols (literal v) = .ok v

/-- An integer is evaluated from what it prints as, its sign as an operator. The
least one has no positive counterpart. -/
theorem readsBack_int {n : Int64} (h : n ≠ Int64.minValue) : (Value.int n).readsBack paramLiteral := by
  intro now row cols
  have hLow : Int64.minValue.toInt = -2 ^ 63 := rfl
  have hMin : n.toInt ≠ -2 ^ 63 := fun hEq => h (Int64.toInt_inj.1 (hEq.trans hLow.symm))
  have hRange : -2 ^ 63 ≤ n.toInt ∧ n.toInt < 2 ^ 63 := ⟨n.le_toInt, n.toInt_lt⟩
  obtain ⟨c, digits, hText, hMinus, -⟩ := natToString_cons n.toInt.natAbs
  have hAbs : (Int64.ofInt n.toInt.natAbs).toInt = n.toInt.natAbs :=
    Int64.toInt_ofInt_of_le (by omega) (by omega)
  have hRead : numberToValue (natToString n.toInt.natAbs) = .int (Int64.ofInt n.toInt.natAbs) := by
    have hParse := parseI64_i64ToString (Int64.ofInt n.toInt.natAbs)
    rw [i64ToString, hAbs, if_neg (by omega), Int.natAbs_natCast] at hParse
    rw [numberToValue, hParse]
  rw [paramLiteral, i64ToString]
  split
  · rename_i hNeg
    have hEval : evalRowExpr now row cols
        (.unaryOp .minus (.value (.number (natToString n.toInt.natAbs) false))) =
          .ok (applyUnary .minus (numberToValue (natToString n.toInt.natAbs))) := rfl
    rw [numberLiteral, hEval, hRead, applyUnary, ← Int64.ofInt_neg,
      show -(n.toInt.natAbs : Int) = n.toInt by omega, Int64.ofInt_toInt]
  · rename_i hPos
    have hPlain : numberLiteral (natToString n.toInt.natAbs) =
        .value (.number (natToString n.toInt.natAbs) false) := by
      rw [hText, numberLiteral]
      exact fun _ hEq => hMinus (List.cons.inj hEq).1
    have hEval : evalRowExpr now row cols (.value (.number (natToString n.toInt.natAbs) false)) =
        .ok (numberToValue (natToString n.toInt.natAbs)) := rfl
    rw [hPlain, hEval, hRead, show (n.toInt.natAbs : Int) = n.toInt by omega, Int64.ofInt_toInt]

theorem readsBack_text (s : Str) : (Value.text s).readsBack paramLiteral := fun _ _ _ => rfl

theorem readsBack_null : Value.null.readsBack paramLiteral := fun _ _ _ => rfl

/-- An operand that is evaluated as it should: an unqualified column, a plain
literal, or a `?` whose own value is the first of the bound ones and reads
back. -/
def operandSound (literal : Value → Expr) (bound : List Value) (own : List Value) : Expr → Prop
  | .identifier _ => True
  | .value v =>
    if v.toString = ("?" : Str) then
      own.headD .null = bound.headD .null ∧ (own.headD .null).readsBack literal
    else v.plain = true
  | _ => False

theorem evalRowExpr_operand {own : List Value} {e : Expr} (h : operandSound literal bound own e) :
    evalRowExpr now row cols (boundExpr literal own e) = .ok (resolveExprBound row cols bound e) := by
  cases e with
  | identifier id => rfl
  | value v =>
    rw [operandSound] at h
    have hTree : boundExpr literal own (.value v) = (bindLiteral literal v own).1 := rfl
    rw [hTree, bindLiteral, resolveExprBound, Expr.isPlaceholder]
    split at h
    · rename_i hMark
      rw [if_pos hMark, if_pos (by simpa using hMark), ← h.1]
      exact h.2 now row cols
    · rename_i hMark
      rw [if_neg hMark, if_neg (by simpa using hMark), evalRowExpr]
      cases v with
      | number n long => rfl
      | singleQuotedString s => rfl
      | null => rfl
      | _ => cases h
  | _ => cases h

/-- Built by AND, OR, NOT and parentheses from comparisons and IS NULL of such
operands. -/
def boundPlain (literal : Value → Expr) (bound : List Value) : Expr → List Value → Prop
  | .binaryOp l .and r, own =>
    boundPlain literal bound l own ∧ boundPlain literal bound r (leftOver literal own l)
  | .binaryOp l .or r, own =>
    boundPlain literal bound l own ∧ boundPlain literal bound r (leftOver literal own l)
  | .binaryOp l _ r, own =>
    operandSound literal bound own l ∧ operandSound literal bound (leftOver literal own l) r
  | .unaryOp .not e, own => boundPlain literal bound e own
  | .nested e, own => boundPlain literal bound e own
  | .isNull e, own | .isNotNull e, own => operandSound literal bound own e
  | _, _ => False
termination_by structural e => e

/-- **Plain conditions** mean what they say. -/
theorem boundSound_of_plain : ∀ (e : Expr) {own : List Value}, boundPlain literal bound e own →
    boundSound literal now row cols bound e own
  | .binaryOp l op r, own, h => by
    by_cases hAnd : op = .and
    · subst hAnd
      rw [boundPlain] at h
      rw [boundSound]
      exact .inl ⟨boundSound_of_plain l h.1, fun _ => boundSound_of_plain r h.2⟩
    · by_cases hOr : op = .or
      · subst hOr
        rw [boundPlain] at h
        rw [boundSound]
        exact .inl ⟨boundSound_of_plain l h.1, fun _ => boundSound_of_plain r h.2⟩
      · rw [boundPlain] at h
        · rw [boundSound]
          · exact ⟨_, _, evalRowExpr_operand h.1, evalRowExpr_operand h.2, rfl⟩
          · exact hAnd
          · exact hOr
        · exact hAnd
        · exact hOr
  | .unaryOp .not e, own, h => by
    rw [boundPlain] at h
    rw [boundSound]
    exact boundSound_of_plain e h
  | .nested e, own, h => by
    rw [boundPlain] at h
    rw [boundSound]
    exact boundSound_of_plain e h
  | .isNull e, own, h => by
    rw [boundPlain] at h
    rw [boundSound]
    exact ⟨_, evalRowExpr_operand h, rfl⟩
  | .isNotNull e, own, h => by
    rw [boundPlain] at h
    rw [boundSound]
    exact ⟨_, evalRowExpr_operand h, rfl⟩

end BoundParameters

-- ---------------------------------------------------------------------------
-- The second parameter
-- ---------------------------------------------------------------------------

section SecondParameter

local instance boundPlatform : Platform := tablePlatform []

/-- `a = ?`. -/
def aEqualsParam : Expr :=
  .binaryOp (.identifier ⟨"a", none⟩) .eq (.value (.placeholder "?"))

end SecondParameter

end RunAlexDb
