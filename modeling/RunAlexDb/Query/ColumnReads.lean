import RunAlexDb.Model.Eval

/-!
# ColumnReads — what evaluation reads of a row

An expression depends on a row and its columns only through the columns written
in it: where these have the same values, so have the expression and the
condition.

Main results: `evalRowExpr_congr`, `evalWhere_congr`.
-/

set_option linter.unusedSectionVars false

namespace RunAlexDb

open Text Platform

variable [Platform]

-- ---------------------------------------------------------------------------
-- The columns written in an expression
-- ---------------------------------------------------------------------------

/-- A call whose first argument is a unit. -/
def takesUnit (name : ObjectName) : Prop :=
  toUppercase (ObjectName.toString name) = ("TIMESTAMPDIFF" : Str)

mutual

/-- Every column the expression is evaluated from meets `P`. Subqueries have
columns of their own. -/
def Expr.columnsAll (P : Expr → Prop) : Expr → Prop
  | .identifier id => P (.identifier id)
  | .compoundIdentifier parts => P (.compoundIdentifier parts)
  | .value _ => True
  | .nested e => e.columnsAll P
  | .unaryOp _ e => e.columnsAll P
  | .binaryOp left _ right => left.columnsAll P ∧ right.columnsAll P
  | .isNull e => e.columnsAll P
  | .isNotNull e => e.columnsAll P
  | .inList e list _ => e.columnsAll P ∧ columnsAllList P list
  | .inSubquery e _ _ => e.columnsAll P
  | .between e _ low high => e.columnsAll P ∧ low.columnsAll P ∧ high.columnsAll P
  | .like _ e pattern => e.columnsAll P ∧ pattern.columnsAll P
  | .iLike _ e pattern => e.columnsAll P ∧ pattern.columnsAll P
  | .case operand conditions elseResult =>
    columnsAllOption P operand ∧ columnsAllWhens P conditions ∧ columnsAllOption P elseResult
  | .cast e _ => e.columnsAll P
  | .convert e _ => e.columnsAll P
  | .function call => call.columnsAll P
  | .interval value _ => value.columnsAll P
  | .subquery _ => True
  | .exists _ _ => True
  | .compound _ parts => columnsAllList P parts
  | .other _ => True

def columnsAllOption (P : Expr → Prop) : Option Expr → Prop
  | none => True
  | some e => e.columnsAll P

def columnsAllList (P : Expr → Prop) : List Expr → Prop
  | [] => True
  | e :: rest => e.columnsAll P ∧ columnsAllList P rest

def columnsAllWhens (P : Expr → Prop) : List CaseWhen → Prop
  | [] => True
  | .mk condition result :: rest =>
    condition.columnsAll P ∧ result.columnsAll P ∧ columnsAllWhens P rest

def FunctionArg.columnsAll (P : Expr → Prop) : FunctionArg → Prop
  | .unnamed (.expr e) => e.columnsAll P
  | .named _ (.expr e) => e.columnsAll P
  | .exprNamed _ (.expr e) => e.columnsAll P
  | _ => True

def columnsAllArgs (P : Expr → Prop) : List FunctionArg → Prop
  | [] => True
  | a :: rest => a.columnsAll P ∧ columnsAllArgs P rest

/-- The unit of TIMESTAMPDIFF is no column. -/
def Function.columnsAll (P : Expr → Prop) : Function → Prop
  | .mk name (.list (.mk _ (a :: rest) _)) _ =>
    (¬ takesUnit name → a.columnsAll P) ∧ columnsAllArgs P rest
  | _ => True

end

-- ---------------------------------------------------------------------------
-- Evaluation
-- ---------------------------------------------------------------------------

section Evaluation

variable {P : Expr → Prop} {now : Nat} {row row' : Row} {cols cols' : List Column}
  (hP : ∀ e, P e → evalRowExpr now row cols e = evalRowExpr now row' cols' e)

include hP

mutual

theorem evalRowExpr_congr : ∀ e : Expr, e.columnsAll P →
    evalRowExpr now row cols e = evalRowExpr now row' cols' e
  | .identifier id, h => hP _ h
  | .compoundIdentifier parts, h => hP _ h
  | .nested e, h => by
    rw [evalRowExpr, evalRowExpr, evalRowExpr_congr e h]
  | .unaryOp op e, h => by
    rw [evalRowExpr, evalRowExpr, evalRowExpr_congr e h]
  | .binaryOp left op right, h => by
    rw [evalRowExpr, evalRowExpr, evalRowExpr_congr left h.1, evalRowExpr_congr right h.2]
  | .isNull e, h => by
    rw [evalRowExpr, evalRowExpr, evalRowExpr_congr e h]
  | .isNotNull e, h => by
    rw [evalRowExpr, evalRowExpr, evalRowExpr_congr e h]
  | .inList e list negated, h => by
    rw [evalRowExpr, evalRowExpr, evalRowExpr_congr e h.1]
    simp only [evalMember_congr list h.2]
  | .between e negated low high, h => by
    rw [evalRowExpr, evalRowExpr, evalRowExpr_congr e h.1, evalRowExpr_congr low h.2.1,
      evalRowExpr_congr high h.2.2]
  | .like negated e pattern, h => by
    rw [evalRowExpr, evalRowExpr, evalRowExpr_congr e h.1, evalRowExpr_congr pattern h.2]
  | .iLike negated e pattern, h => by
    rw [evalRowExpr, evalRowExpr, evalRowExpr_congr e h.1, evalRowExpr_congr pattern h.2]
  | .case operand conditions elseResult, h => by
    rw [evalRowExpr, evalRowExpr, evalOption_congr operand h.1, evalOption_congr elseResult h.2.2]
    simp only [evalWhens_congr conditions h.2.1]
  | .cast e dataType, h => by
    rw [evalRowExpr, evalRowExpr, evalRowExpr_congr e h]
  | .convert e dataType, h => by
    rw [evalRowExpr, evalRowExpr, evalRowExpr_congr e h]
  | .function call, h => by
    rw [evalRowExpr, evalRowExpr, evalFunction_congr call h]
  | .value _, _ | .inSubquery _ _ _, _ | .interval _ _, _ | .subquery _, _ | .exists _ _, _
  | .compound _ _, _ | .other _, _ => rfl

theorem evalOption_congr : ∀ o : Option Expr, columnsAllOption P o →
    evalOption now row cols o = evalOption now row' cols' o
  | none, _ => rfl
  | some e, h => by
    rw [evalOption, evalOption, evalRowExpr_congr e h]

theorem evalWhens_congr : ∀ (conditions : List CaseWhen), columnsAllWhens P conditions →
    ∀ base : Option Value,
      evalWhens now row cols base conditions = evalWhens now row' cols' base conditions
  | [], _, _ => rfl
  | .mk condition result :: rest, h, base => by
    have hRest := evalWhens_congr rest h.2.2
    cases base <;>
    · simp only [evalWhens, evalRowExpr_congr condition h.1, evalRowExpr_congr result h.2.1,
        evalWhere_congr condition h.1, hRest]

theorem evalMember_congr : ∀ (list : List Expr), columnsAllList P list → ∀ v : Value,
    evalMember now row cols v list = evalMember now row' cols' v list
  | [], _, _ => rfl
  | e :: rest, h, v => by
    rw [evalMember, evalMember, evalRowExpr_congr e h.1, evalMember_congr rest h.2]

theorem evalFunction_congr : ∀ call : Function, call.columnsAll P →
    evalFunction now row cols call = evalFunction now row' cols' call
  | .mk name (.list (.mk duplicateTreatment (a :: rest) clauses)) over_, h => by
    rw [evalFunction, evalFunction]
    by_cases hUnit : takesUnit name
    · have hDates := evalDates_congr (a := a) rest h.2
      rw [takesUnit] at hUnit
      simp only [hUnit]
      show (do let (d1, d2) ← evalDates now row cols (a :: rest); _) = _
      rw [hDates]
      rfl
    · have hArgs : columnsAllArgs P (a :: rest) := ⟨h.1 hUnit, h.2⟩
      simp only [evalDateAdd_congr (a :: rest) hArgs, evalDates_congr (a := a) rest h.2,
        evalArgs_congr (a :: rest) hArgs]
  | .mk name (.list (.mk duplicateTreatment [] clauses)) over_, _ => rfl
  | .mk name .none over_, _ => rfl
  | .mk name (.subquery q) over_, _ => rfl

theorem evalArgs_congr : ∀ args : List FunctionArg, columnsAllArgs P args →
    evalArgs now row cols args = evalArgs now row' cols' args
  | [], _ => rfl
  | a :: rest, h => by
    rw [evalArgs, evalArgs, evalArg_congr a h.1, evalArgs_congr rest h.2]

theorem evalArg_congr : ∀ a : FunctionArg, a.columnsAll P →
    evalArg now row cols a = evalArg now row' cols' a
  | .unnamed (.expr e), h | .named _ (.expr e), h | .exprNamed _ (.expr e), h => by
    rw [evalArg, evalArg, evalRowExpr_congr e h]
  | .unnamed (.qualifiedWildcard _), _ | .named _ (.qualifiedWildcard _), _
  | .exprNamed _ (.qualifiedWildcard _), _ | .unnamed .wildcard, _ | .named _ .wildcard, _
  | .exprNamed _ .wildcard, _ => rfl

theorem evalText_congr : ∀ a : FunctionArg, a.columnsAll P →
    evalText now row cols a = evalText now row' cols' a
  | .unnamed (.expr e), h => by
    rw [evalText, evalText, evalRowExpr_congr e h]
  | .unnamed (.qualifiedWildcard _), _ | .unnamed .wildcard, _ | .named _ _, _
  | .exprNamed _ _, _ => rfl

theorem evalDates_congr {a : FunctionArg} : ∀ rest : List FunctionArg, columnsAllArgs P rest →
    evalDates now row cols (a :: rest) = evalDates now row' cols' (a :: rest)
  | [], _ => rfl
  | [d1], h => by
    rw [evalDates, evalDates, evalText_congr d1 h.1]
  | d1 :: d2 :: rest, h => by
    rw [evalDates, evalDates, evalText_congr d1 h.1, evalText_congr d2 h.2.1]

theorem evalInterval_congr : ∀ a : FunctionArg, a.columnsAll P →
    evalInterval now row cols a = evalInterval now row' cols' a
  | .unnamed (.expr (.interval value leadingField)), h => by
    have hValue : value.columnsAll P := h
    rw [evalInterval, evalInterval, evalRowExpr_congr value hValue]
  | .unnamed (.qualifiedWildcard _), _ | .unnamed .wildcard, _ | .named _ _, _ | .exprNamed _ _, _ => rfl
  | .unnamed (.expr (.identifier _)), _ | .unnamed (.expr (.compoundIdentifier _)), _
  | .unnamed (.expr (.value _)), _ | .unnamed (.expr (.nested _)), _ | .unnamed (.expr (.unaryOp _ _)), _
  | .unnamed (.expr (.binaryOp _ _ _)), _ | .unnamed (.expr (.isNull _)), _
  | .unnamed (.expr (.isNotNull _)), _ | .unnamed (.expr (.inList _ _ _)), _
  | .unnamed (.expr (.inSubquery _ _ _)), _ | .unnamed (.expr (.between _ _ _ _)), _
  | .unnamed (.expr (.like _ _ _)), _ | .unnamed (.expr (.iLike _ _ _)), _
  | .unnamed (.expr (.case _ _ _)), _ | .unnamed (.expr (.cast _ _)), _
  | .unnamed (.expr (.convert _ _)), _ | .unnamed (.expr (.function _)), _
  | .unnamed (.expr (.subquery _)), _ | .unnamed (.expr (.exists _ _)), _
  | .unnamed (.expr (.compound _ _)), _ | .unnamed (.expr (.other _)), _ => rfl

theorem evalDateAdd_congr : ∀ args : List FunctionArg, columnsAllArgs P args → ∀ isSub : Bool,
    evalDateAdd now row cols isSub args = evalDateAdd now row' cols' isSub args
  | [], _, _ | [_], _, _ => rfl
  | date :: interval :: rest, h, isSub => by
    rw [evalDateAdd, evalDateAdd, evalText_congr date h.1, evalInterval_congr interval h.2.1]

theorem evalWhere_congr : ∀ e : Expr, e.columnsAll P →
    evalWhere now row cols e = evalWhere now row' cols' e
  | .binaryOp left op right, h => by
    have hLeft : left.columnsAll P := h.1
    have hRight : right.columnsAll P := h.2
    cases op
    case and | or =>
      rw [evalWhere, evalWhere, evalWhere_congr left hLeft, evalWhere_congr right hRight]
    all_goals
      simp only [evalWhere, evalRowExpr_congr left hLeft, evalRowExpr_congr right hRight]
  | .isNull e, h => by
    rw [evalWhere, evalWhere, evalRowExpr_congr e h]
  | .isNotNull e, h => by
    rw [evalWhere, evalWhere, evalRowExpr_congr e h]
  | .like negated e pattern, h => by
    rw [evalWhere, evalWhere, evalRowExpr_congr e h.1, evalRowExpr_congr pattern h.2]
  | .nested e, h => by
    rw [evalWhere, evalWhere, evalWhere_congr e h]
  | .unaryOp op e, h => by
    have hInner : e.columnsAll P := h
    cases op
    case not => rw [evalWhere, evalWhere, evalWhere_congr e hInner]
    all_goals rfl
  | .between e negated low high, h => by
    rw [evalWhere, evalWhere, evalRowExpr_congr e h.1, evalRowExpr_congr low h.2.1,
      evalRowExpr_congr high h.2.2]
  | .inList e list negated, h => by
    rw [evalWhere, evalWhere, evalRowExpr_congr e h.1]
    simp only [evalMember_congr list h.2]
  | .identifier _, _ | .compoundIdentifier _, _ | .value _, _ | .inSubquery _ _ _, _
  | .iLike _ _ _, _ | .case _ _ _, _ | .cast _ _, _ | .convert _ _, _ | .function _, _
  | .interval _ _, _ | .subquery _, _ | .exists _ _, _ | .compound _ _, _ | .other _, _ => rfl

end

end Evaluation

end RunAlexDb
