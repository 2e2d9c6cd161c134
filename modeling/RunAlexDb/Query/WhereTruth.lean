import RunAlexDb.Lib.ThreeValued
import RunAlexDb.Query.Predicate

/-!
# WhereTruth — conditions and SQL's three-valued logic

A condition over columns and literals is, on a row, a formula of comparisons of
values: BETWEEN is two of them, IN one for each item. SQL gives a comparison with
NULL no truth value; `evalWhere` answers it, taking NULL for the least value, for
different from everything, and for no match.

Main result: `where_truth_iff`.
-/

set_option linter.unusedSectionVars false

namespace RunAlexDb

open Text Platform

-- ---------------------------------------------------------------------------
-- Conditions
-- ---------------------------------------------------------------------------

/-- A column or a literal. -/
inductive Operand
  | column (id : Ident)
  | qualified (parts : List Ident)
  | literal (v : SqlValue)

inductive Comparison
  | eq | notEq | lt | ltEq | gt | gtEq
deriving DecidableEq, Repr

/-- A WHERE condition over columns and literals. -/
inductive Condition
  | compare (op : Comparison) (l r : Operand)
  | between (negated : Bool) (v low high : Operand)
  | inList (negated : Bool) (v : Operand) (items : List Operand)
  | like (negated : Bool) (v pattern : Operand)
  | isNull (v : Operand)
  | isNotNull (v : Operand)
  | and (l r : Condition)
  | or (l r : Condition)
  | not (c : Condition)
  | nested (c : Condition)

def Operand.toExpr : Operand → Expr
  | .column id => .identifier id
  | .qualified parts => .compoundIdentifier parts
  | .literal v => .value v

def Comparison.toOperator : Comparison → BinaryOperator
  | .eq => .eq
  | .notEq => .notEq
  | .lt => .lt
  | .ltEq => .ltEq
  | .gt => .gt
  | .gtEq => .gtEq

/-- The condition as the parser builds it. -/
def Condition.toExpr : Condition → Expr
  | .compare op l r => .binaryOp l.toExpr op.toOperator r.toExpr
  | .between negated v low high => .between v.toExpr negated low.toExpr high.toExpr
  | .inList negated v items => .inList v.toExpr (items.map Operand.toExpr) negated
  | .like negated v pattern => .like negated v.toExpr pattern.toExpr
  | .isNull v => .isNull v.toExpr
  | .isNotNull v => .isNotNull v.toExpr
  | .and l r => .binaryOp l.toExpr .and r.toExpr
  | .or l r => .binaryOp l.toExpr .or r.toExpr
  | .not c => .unaryOp .not c.toExpr
  | .nested c => .nested c.toExpr

section WhereTruth

variable [Platform]

/-- The value of a column in a row, of a literal its own. -/
def Operand.value (row : Row) (cols : List Column) : Operand → Value
  | .column id => (columnValue row cols id.value).getD .null
  | .qualified parts => compoundValue row cols parts
  | .literal v => exprToValue (.value v)

-- ---------------------------------------------------------------------------
-- Truth values
-- ---------------------------------------------------------------------------

/-- What a condition asks of the values of a row. -/
inductive Atom
  | compare (op : Comparison) (l r : Value)
  | isNull (v : Value)
  | like (negated : Bool) (v pattern : Value)

/-- The formula, or its negation. -/
def negateIf (negated : Bool) (p : Formula Atom) : Formula Atom :=
  if negated then .not p else p

/-- One equality for each item. -/
def anyEqual (v : Value) : List Value → Formula Atom
  | [] => .bot
  | item :: rest => .or (.atom (.compare .eq v item)) (anyEqual v rest)

/-- A condition on a row, as a formula: `v BETWEEN l AND h` is `v >= l AND v <= h`,
`v IN (..)` an OR of equalities. -/
def Condition.formula (row : Row) (cols : List Column) : Condition → Formula Atom
  | .compare op l r => .atom (.compare op (l.value row cols) (r.value row cols))
  | .between negated v low high =>
    negateIf negated (.and (.atom (.compare .gtEq (v.value row cols) (low.value row cols)))
      (.atom (.compare .ltEq (v.value row cols) (high.value row cols))))
  | .inList negated v items =>
    negateIf negated (anyEqual (v.value row cols) (items.map (Operand.value row cols)))
  | .like negated v pattern => .atom (.like negated (v.value row cols) (pattern.value row cols))
  | .isNull v => .atom (.isNull (v.value row cols))
  | .isNotNull v => .not (.atom (.isNull (v.value row cols)))
  | .and l r => .and (l.formula row cols) (r.formula row cols)
  | .or l r => .or (l.formula row cols) (r.formula row cols)
  | .not c => .not (c.formula row cols)
  | .nested c => c.formula row cols

/-- A comparison of values that are not NULL. -/
def Comparison.holds (op : Comparison) (l r : Value) : Bool :=
  match op with
  | .eq => valuesCmp l r == .eq
  | .notEq => valuesCmp l r != .eq
  | .lt => valuesCmp l r == .lt
  | .ltEq => valuesCmp l r != .gt
  | .gt => valuesCmp l r == .gt
  | .gtEq => valuesCmp l r != .lt

/-- SQL's truth value: unknown with NULL. LIKE takes its operands as text. -/
def Atom.truth : Atom → Option Bool
  | .compare op l r => if l.isNull || r.isNull then none else some (op.holds l r)
  | .isNull v => some v.isNull
  | .like negated v pattern =>
    if v.isNull || pattern.isNull then none
    else some (likeMatch (v.toDisplay.getD []) (pattern.toDisplay.getD []) != negated)

/-- The three-valued truth value of a condition on a row. -/
def Condition.truth (row : Row) (cols : List Column) (c : Condition) : Option Bool :=
  (c.formula row cols).kleene Atom.truth

-- ---------------------------------------------------------------------------
-- Answers
-- ---------------------------------------------------------------------------

/-- What the engine makes of it. -/
def Atom.answer : Atom → Bool
  | .compare op l r => (compareOp op.toOperator l r).getD true
  | .isNull v => v.isNull
  | .like negated v pattern =>
    match v.asStr, pattern.asStr with
    | some v, some p => if negated then !likeMatch v p else likeMatch v p
    | _, _ => false

theorem evalRowExpr_toExpr (now : Nat) (row : Row) (cols : List Column) (o : Operand) :
    evalRowExpr now row cols o.toExpr = .ok (o.value row cols) := by
  cases o <;> rfl

theorem evalMember_toExpr (now : Nat) (row : Row) (cols : List Column) (v : Value)
    (items : List Operand) :
    evalMember now row cols v (items.map Operand.toExpr) =
      .ok ((anyEqual v (items.map (Operand.value row cols))).eval Atom.answer) := by
  induction items with
  | nil => rfl
  | cons item items ih =>
    rw [List.map_cons, evalMember, evalRowExpr_toExpr, ih, List.map_cons, anyEqual, Formula.eval]
    show (if valuesEq v (item.value row cols) = true then (Except.ok true : Rust Bool) else _) =
      .ok (valuesEq v (item.value row cols) || _)
    cases valuesEq v (item.value row cols) <;> rfl

/-- **evalWhere** answers the formula of a condition. -/
theorem evalWhere_toExpr (now : Nat) (row : Row) (cols : List Column) (c : Condition) :
    evalWhere now row cols c.toExpr = .ok ((c.formula row cols).eval Atom.answer) := by
  induction c with
  | compare op l r =>
    have hAnd : op.toOperator ≠ .and := by cases op <;> exact nofun
    have hOr : op.toOperator ≠ .or := by cases op <;> exact nofun
    exact evalWhere_binaryOp hAnd hOr (evalRowExpr_toExpr now row cols l)
      (evalRowExpr_toExpr now row cols r)
  | between negated v low high =>
    rw [Condition.toExpr, evalWhere, evalRowExpr_toExpr, evalRowExpr_toExpr, evalRowExpr_toExpr]
    cases negated <;> rfl
  | inList negated v items =>
    rw [Condition.toExpr, evalWhere, evalRowExpr_toExpr]
    show (evalMember now row cols (v.value row cols) _).bind _ = _
    rw [evalMember_toExpr]
    cases negated <;> rfl
  | like negated v pattern =>
    rw [Condition.toExpr, evalWhere, evalRowExpr_toExpr, evalRowExpr_toExpr, Condition.formula,
      Formula.eval, Atom.answer]
    show (match (v.value row cols).asStr, (pattern.value row cols).asStr with
      | some v, some p => (Except.ok (if negated then !likeMatch v p else likeMatch v p) : Rust Bool)
      | _, _ => .ok false) = _
    cases (v.value row cols).asStr with
    | none => rfl
    | some s => cases (pattern.value row cols).asStr <;> rfl
  | isNull v => rw [Condition.toExpr, evalWhere, evalRowExpr_toExpr]; rfl
  | isNotNull v => rw [Condition.toExpr, evalWhere, evalRowExpr_toExpr]; rfl
  | and l r ihl ihr =>
    rw [Condition.toExpr, evalWhere, ihl, ihr, Condition.formula, Formula.eval]
    cases (l.formula row cols).eval Atom.answer <;> rfl
  | or l r ihl ihr =>
    rw [Condition.toExpr, evalWhere, ihl, ihr, Condition.formula, Formula.eval]
    cases (l.formula row cols).eval Atom.answer <;> rfl
  | not c ih => rw [Condition.toExpr, evalWhere, ih]; rfl
  | nested c ih => rw [Condition.toExpr, evalWhere, ih]; rfl

-- ---------------------------------------------------------------------------
-- Wrong answers
-- ---------------------------------------------------------------------------

/-- The answer to a comparison with NULL: for `<` and its like NULL is the least
value, for `=` and `!=` different from everything. -/
def Comparison.onNull (op : Comparison) (leftNull rightNull : Bool) : Bool :=
  match op with
  | .eq => false
  | .notEq => true
  | .lt => leftNull && !rightNull
  | .ltEq => leftNull
  | .gt => rightNull && !leftNull
  | .gtEq => rightNull

/-- The values get the answer `b`, which is not their truth value: a comparison
with NULL, or a LIKE whose operands are not texts. -/
def Atom.wrong (b : Bool) : Atom → Prop
  | .compare op l r => (l.isNull || r.isNull) = true ∧ op.onNull l.isNull r.isNull = b
  | .isNull _ => False
  | .like negated v pattern =>
    b = false ∧ (v.asStr = none ∨ pattern.asStr = none) ∧
      (Atom.like negated v pattern).truth ≠ some false

/-- The condition is misled neither to true nor away from it. -/
def Condition.unmisled (row : Row) (cols : List Column) (c : Condition) : Prop :=
  ¬ (c.formula row cols).misled Atom.truth Atom.wrong true ∧
    (c.truth row cols = some true → ¬ (c.formula row cols).misled Atom.truth Atom.wrong false)

theorem answer_compare (op : Comparison) {l r : Value} (hl : l.isNull = false)
    (hr : r.isNull = false) : (Atom.compare op l r).answer = op.holds l r := by
  have hEq : valuesEq l r = (valuesCmp l r == .eq) := by
    cases l <;> cases r <;> first | rfl | cases hl | cases hr
  cases op <;> simp [Atom.answer, Comparison.toOperator, compareOp, Comparison.holds, hEq, bne]

theorem answer_null (op : Comparison) {l r : Value} (h : (l.isNull || r.isNull) = true) :
    (Atom.compare op l r).answer = op.onNull l.isNull r.isNull := by
  cases l <;> cases r <;> first | (cases op <;> rfl) | exact absurd h Bool.false_ne_true

theorem asStr_toDisplay {v : Value} {s : Str} (h : v.asStr = some s) :
    v.isNull = false ∧ v.toDisplay.getD [] = s := by
  cases v with
  | text s' => exact ⟨rfl, Option.some.inj h⟩
  | _ => cases h

theorem wrong_iff (b : Bool) (a : Atom) : a.wrong b ↔ a.answer = b ∧ a.truth ≠ some b := by
  cases a with
  | compare op l r =>
    rw [Atom.wrong, Atom.truth]
    by_cases hNull : (l.isNull || r.isNull) = true
    · rw [answer_null op hNull, if_pos hNull]
      simp [hNull]
    · have hParts : l.isNull = false ∧ r.isNull = false := by simpa using hNull
      rw [answer_compare op hParts.1 hParts.2, if_neg hNull]
      simp [hNull]
  | isNull v => simp [Atom.wrong, Atom.answer, Atom.truth]
  | like negated v pattern =>
    rw [Atom.wrong]
    cases hv : v.asStr with
    | none => simp only [Atom.answer, hv]; cases b <;> simp
    | some s =>
      cases hp : pattern.asStr with
      | none => simp only [Atom.answer, hv, hp]; cases b <;> simp
      | some p =>
        obtain ⟨hvNull, hvText⟩ := asStr_toDisplay hv
        obtain ⟨hpNull, hpText⟩ := asStr_toDisplay hp
        simp only [Atom.answer, Atom.truth, hv, hp, hvNull, hpNull, hvText, hpText]
        cases likeMatch s p <;> cases negated <;> cases b <;> simp

/-- **WHERE and three-valued logic.** A row is selected exactly when the truth
value of the condition is TRUE, unless its comparisons with NULL, or its LIKEs of
what is no text, mislead it. -/
theorem where_truth_iff (now : Nat) (row : Row) (cols : List Column) (c : Condition) :
    (evalWhere now row cols c.toExpr = .ok true ↔ c.truth row cols = some true) ↔
      c.unmisled row cols := by
  rw [evalWhere_toExpr, Except.ok.injEq]
  exact Formula.eval_iff_kleene wrong_iff (c.formula row cols)

end WhereTruth

-- ---------------------------------------------------------------------------
-- Different from NULL
-- ---------------------------------------------------------------------------

section NotEqual

local instance whereTruthPlatform : Platform := tablePlatform []

/-- `a != 5` is taken for true where a is NULL. -/
theorem not_where_truth : ¬ ∀ (now : Nat) (row : Row) (cols : List Column) (c : Condition),
    evalWhere now row cols c.toExpr = .ok true ↔ c.truth row cols = some true := by
  intro hAll
  have hRow := hAll 0 [.null] [⟨"a", .int, true, false⟩]
    (.compare .notEq (.column ⟨"a", none⟩) (.literal (.number "5" false)))
  revert hRow
  decide +kernel

end NotEqual

end RunAlexDb
