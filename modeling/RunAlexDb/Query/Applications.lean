import RunAlexDb.Lib.Calls
import RunAlexDb.Model.Eval

/-!
# Applications — what an expression applies to its values

To evaluate an expression is to apply operators and functions to values, in the
order of evaluation and as far as it comes: an `IN` list up to the item that is
found, a `CASE` up to the branch that is taken, the second operand of an `OR` only
after a first one that is false.

Main results: `evalRowExpr_rests` and `evalWhere_rests`.
-/

namespace RunAlexDb

open Text Platform Calls

variable [Platform]

/-- An operator or a function with the values it is applied to. -/
inductive Application
  | binary (op : BinaryOperator) (l r : Value)
  | call (fname : Str) (args : List Value)

def Application.run (now : Nat) : Application → Rust Value
  | .binary op l r => applyBinary op l r
  | .call fname args => callFunction now fname args

/-- Whether a WHEN matches. -/
def evalWhen (now : Nat) (row : Row) (cols : List Column) (base : Option Value) (condition : Expr) :
    Rust Bool :=
  match base with
  | some b => (evalRowExpr now row cols condition).map (valuesEq b)
  | none => evalWhere now row cols condition

mutual

/-- The applications that the value of an expression on a row comes to. -/
def appsExpr (now : Nat) (row : Row) (cols : List Column) : Expr → List Application
  | .nested inner => appsExpr now row cols inner
  | .unaryOp _ inner => appsExpr now row cols inner
  | .binaryOp left op right =>
    if op.known then
      appsExpr now row cols left ++ behind (evalRowExpr now row cols left) fun l =>
        appsExpr now row cols right ++ behind (evalRowExpr now row cols right) fun r =>
          [.binary op l r]
    else []
  | .convert inner _ => appsExpr now row cols inner
  | .cast inner _ => appsExpr now row cols inner
  | .function f => appsFunction now row cols f
  | .inList e list _ =>
    appsExpr now row cols e ++ behind (evalRowExpr now row cols e) fun v =>
      appsMember now row cols v list
  | .isNull e => appsExpr now row cols e
  | .isNotNull e => appsExpr now row cols e
  | .between e _ low high =>
    appsExpr now row cols e ++ behind (evalRowExpr now row cols e) fun _ =>
      appsExpr now row cols low ++ behind (evalRowExpr now row cols low) fun _ =>
        appsExpr now row cols high
  | .like _ e pattern =>
    appsExpr now row cols e ++ behind (evalRowExpr now row cols e) fun _ =>
      appsExpr now row cols pattern
  | .iLike _ e pattern =>
    appsExpr now row cols e ++ behind (evalRowExpr now row cols e) fun _ =>
      appsExpr now row cols pattern
  | .case operand conditions elseResult =>
    appsOption now row cols operand ++ behind (evalOption now row cols operand) fun base =>
      appsWhens now row cols base conditions ++ behind (evalWhens now row cols base conditions)
        fun taken => if taken.isSome then [] else appsOption now row cols elseResult
  | _ => []

def appsOption (now : Nat) (row : Row) (cols : List Column) : Option Expr → List Application
  | none => []
  | some e => appsExpr now row cols e

def appsWhens (now : Nat) (row : Row) (cols : List Column) (base : Option Value) :
    List CaseWhen → List Application
  | [] => []
  | .mk condition result :: rest =>
    (if base.isSome then appsExpr now row cols condition else appsWhere now row cols condition) ++
      behind (evalWhen now row cols base condition) fun matched =>
        if matched then appsExpr now row cols result else appsWhens now row cols base rest

def appsMember (now : Nat) (row : Row) (cols : List Column) (v : Value) : List Expr → List Application
  | [] => []
  | item :: rest =>
    appsExpr now row cols item ++ behind (evalRowExpr now row cols item) fun x =>
      if valuesEq v x then [] else appsMember now row cols v rest

def appsFunction (now : Nat) (row : Row) (cols : List Column) : Function → List Application
  | .mk name (.list (.mk _ args _)) _ =>
    let fname := toUppercase (ObjectName.toString name)
    match String.ofList fname with
    | "DATE_ADD" | "ADDDATE" => appsDateAdd now row cols args
    | "DATE_SUB" | "SUBDATE" => appsDateAdd now row cols args
    | "TIMESTAMPDIFF" => appsDates now row cols args
    | _ => appsArgs now row cols args ++ behind (evalArgs now row cols args) fun vs => [.call fname vs]
  | .mk name _ _ =>
    let fname := toUppercase (ObjectName.toString name)
    match String.ofList fname with
    | "DATE_ADD" | "ADDDATE" | "DATE_SUB" | "SUBDATE" | "TIMESTAMPDIFF" => []
    | _ => [.call fname []]

def appsArgs (now : Nat) (row : Row) (cols : List Column) : List FunctionArg → List Application
  | [] => []
  | a :: rest =>
    appsArg now row cols a ++ behind (evalArg now row cols a) fun _ => appsArgs now row cols rest

def appsArg (now : Nat) (row : Row) (cols : List Column) : FunctionArg → List Application
  | .unnamed (.expr e) => appsExpr now row cols e
  | .named _ (.expr e) => appsExpr now row cols e
  | .exprNamed _ (.expr e) => appsExpr now row cols e
  | _ => []

def appsText (now : Nat) (row : Row) (cols : List Column) : FunctionArg → List Application
  | .unnamed (.expr e) => appsExpr now row cols e
  | _ => []

def appsDates (now : Nat) (row : Row) (cols : List Column) : List FunctionArg → List Application
  | _ :: d1 :: d2 :: _ =>
    appsText now row cols d1 ++ behind (evalText now row cols d1) fun _ => appsText now row cols d2
  | [_, d1] => appsText now row cols d1
  | _ => []

def appsInterval (now : Nat) (row : Row) (cols : List Column) : FunctionArg → List Application
  | .unnamed (.expr (.interval value _)) => appsExpr now row cols value
  | _ => []

def appsDateAdd (now : Nat) (row : Row) (cols : List Column) : List FunctionArg → List Application
  | date :: interval :: _ =>
    appsText now row cols date ++ behind (evalText now row cols date) fun _ =>
      appsInterval now row cols interval
  | _ => []

/-- The applications that a condition on a row comes to. -/
def appsWhere (now : Nat) (row : Row) (cols : List Column) : Expr → List Application
  | .binaryOp left .and right =>
    appsWhere now row cols left ++ behind (evalWhere now row cols left) fun b =>
      if b then appsWhere now row cols right else []
  | .binaryOp left .or right =>
    appsWhere now row cols left ++ behind (evalWhere now row cols left) fun b =>
      if b then [] else appsWhere now row cols right
  | .binaryOp left _ right =>
    appsExpr now row cols left ++ behind (evalRowExpr now row cols left) fun _ =>
      appsExpr now row cols right
  | .isNull e => appsExpr now row cols e
  | .isNotNull e => appsExpr now row cols e
  | .like _ e pattern =>
    appsExpr now row cols e ++ behind (evalRowExpr now row cols e) fun _ =>
      appsExpr now row cols pattern
  | .nested e => appsWhere now row cols e
  | .unaryOp .not e => appsWhere now row cols e
  | .between e _ low high =>
    appsExpr now row cols e ++ behind (evalRowExpr now row cols e) fun _ =>
      appsExpr now row cols low ++ behind (evalRowExpr now row cols low) fun _ =>
        appsExpr now row cols high
  | .inList e list _ =>
    appsExpr now row cols e ++ behind (evalRowExpr now row cols e) fun v =>
      appsMember now row cols v list
  | _ => []

end

section Rests

variable (now : Nat) (row : Row) (cols : List Column)

/-- What a member of the evaluator gives, and the applications it comes to. -/
def RestsOn {α : Type} (x : Rust α) (l : List Application) : Prop := Rests (Application.run now) x l

theorem rests_binary (op : BinaryOperator) (l r : Value) :
    RestsOn now (applyBinary op l r) [.binary op l r] := by
  have hCall : RestsOn now ((Application.binary op l r).run now) [.binary op l r] := Rests.single _
  exact hCall

theorem rests_call (fname : Str) (args : List Value) :
    RestsOn now (callFunction now fname args) [.call fname args] := by
  have hCall : RestsOn now ((Application.call fname args).run now) [.call fname args] := Rests.single _
  exact hCall

/-- A name without an argument list. -/
theorem uncalled_rests (fname : Str) :
    RestsOn now
      (match String.ofList fname with
      | "DATE_ADD" | "ADDDATE" | "DATE_SUB" | "SUBDATE" | "TIMESTAMPDIFF" => pure .null
      | _ => callFunction now fname [])
      (match String.ofList fname with
      | "DATE_ADD" | "ADDDATE" | "DATE_SUB" | "SUBDATE" | "TIMESTAMPDIFF" => []
      | _ => [.call fname []]) := by
  have hCall := rests_call now fname []
  generalize String.ofList fname = s
  split
  · exact Rests.pure _
  · exact Rests.pure _
  · exact Rests.pure _
  · exact Rests.pure _
  · exact Rests.pure _
  · exact hCall

mutual

/-- The value of an expression rests on its applications. -/
theorem evalRowExpr_rests : ∀ e : Expr,
    RestsOn now (evalRowExpr now row cols e) (appsExpr now row cols e)
  | .nested e => by
    rw [evalRowExpr, appsExpr]
    exact evalRowExpr_rests e
  | .unaryOp op e => by
    rw [evalRowExpr, appsExpr]
    exact (evalRowExpr_rests e).bind_pure _
  | .binaryOp left op right => by
    rw [evalRowExpr, appsExpr]
    split_ifs with hKnown
    · exact (evalRowExpr_rests left).bind fun l _ => (evalRowExpr_rests right).bind fun r _ =>
        rests_binary now op l r
    · exact .pure _
  | .convert e dataType => by
    rw [evalRowExpr, appsExpr]
    exact (evalRowExpr_rests e).bind_pure _
  | .cast e dataType => by
    rw [evalRowExpr, appsExpr]
    exact (evalRowExpr_rests e).bind_pure _
  | .function call => by
    rw [evalRowExpr, appsExpr]
    exact evalFunction_rests call
  | .inList e list negated => by
    rw [evalRowExpr, appsExpr]
    exact (evalRowExpr_rests e).bind fun v _ => (evalMember_rests v list).bind_pure _
  | .isNull e => by
    rw [evalRowExpr, appsExpr]
    exact (evalRowExpr_rests e).bind_pure _
  | .isNotNull e => by
    rw [evalRowExpr, appsExpr]
    exact (evalRowExpr_rests e).bind_pure _
  | .between e negated low high => by
    rw [evalRowExpr, appsExpr]
    exact (evalRowExpr_rests e).bind fun _ _ => (evalRowExpr_rests low).bind fun _ _ =>
      (evalRowExpr_rests high).bind_pure _
  | .like negated e pattern => by
    rw [evalRowExpr, appsExpr]
    exact (evalRowExpr_rests e).bind fun _ _ => (evalRowExpr_rests pattern).bind_pure _
  | .iLike negated e pattern => by
    rw [evalRowExpr, appsExpr]
    exact (evalRowExpr_rests e).bind fun _ _ => (evalRowExpr_rests pattern).bind_pure _
  | .case operand conditions elseResult => by
    rw [evalRowExpr, appsExpr]
    refine (evalOption_rests operand).bind fun base _ =>
      (evalWhens_rests base conditions).bind fun taken _ => ?_
    cases taken with
    | some v => exact .pure v
    | none => exact (evalOption_rests elseResult).bind_pure _
  | .value _ | .identifier _ | .compoundIdentifier _ | .inSubquery _ _ _ | .interval _ _
  | .subquery _ | .exists _ _ | .compound _ _ | .other _ => Rests.pure _

theorem evalOption_rests : ∀ o : Option Expr,
    RestsOn now (evalOption now row cols o) (appsOption now row cols o)
  | none => Rests.pure _
  | some e => by
    rw [evalOption, appsOption]
    exact (evalRowExpr_rests e).bind_pure _

theorem evalWhens_rests : ∀ (base : Option Value) (conditions : List CaseWhen),
    RestsOn now (evalWhens now row cols base conditions) (appsWhens now row cols base conditions)
  | _, [] => Rests.pure _
  | base, .mk condition result :: rest => by
    have hWhen : RestsOn now (evalWhen now row cols base condition)
        (if base.isSome then appsExpr now row cols condition else appsWhere now row cols condition) := by
      cases base with
      | some b => exact (evalRowExpr_rests condition).map _
      | none => exact evalWhere_rests condition
    have hStep : evalWhens now row cols base (.mk condition result :: rest) =
        (evalWhen now row cols base condition >>= fun matched =>
          if matched then (evalRowExpr now row cols result >>= fun v => .ok (some v))
          else evalWhens now row cols base rest) := by
      cases base with
      | some b => rw [evalWhens]; rfl
      | none => rw [evalWhens]; rfl
    rw [hStep, appsWhens]
    refine hWhen.bind fun matched _ => ?_
    cases matched with
    | true => exact (evalRowExpr_rests result).bind_pure _
    | false => exact evalWhens_rests base rest

theorem evalMember_rests : ∀ (v : Value) (list : List Expr),
    RestsOn now (evalMember now row cols v list) (appsMember now row cols v list)
  | _, [] => Rests.pure _
  | v, item :: rest => by
    rw [evalMember, appsMember]
    refine (evalRowExpr_rests item).bind fun x _ => ?_
    by_cases hSame : valuesEq v x = true
    · rw [if_pos hSame, if_pos hSame]
      exact .pure _
    · rw [if_neg hSame, if_neg hSame]
      exact evalMember_rests v rest

theorem evalFunction_rests : ∀ call : Function,
    RestsOn now (evalFunction now row cols call) (appsFunction now row cols call)
  | .mk name (.list (.mk duplicateTreatment args clauses)) over_ => by
    rw [evalFunction, appsFunction]
    dsimp only
    generalize toUppercase (ObjectName.toString name) = fname
    generalize String.ofList fname = s
    split
    · exact evalDateAdd_rests false args
    · exact evalDateAdd_rests false args
    · exact evalDateAdd_rests true args
    · exact evalDateAdd_rests true args
    · exact (evalDates_rests args).bind_pure _
    · have hCall := (evalArgs_rests args).bind fun vs _ => rests_call now fname vs
      first
        | exact hCall
        | (split <;> first | contradiction | exact hCall)
  | .mk name .none over_ => by
    rw [evalFunction, appsFunction]
    · exact uncalled_rests now _
    all_goals exact fun _ _ _ h => nomatch h
  | .mk name (.subquery q) over_ => by
    rw [evalFunction, appsFunction]
    · exact uncalled_rests now _
    all_goals exact fun _ _ _ h => nomatch h

theorem evalArgs_rests : ∀ args : List FunctionArg,
    RestsOn now (evalArgs now row cols args) (appsArgs now row cols args)
  | [] => Rests.pure _
  | a :: rest => by
    rw [evalArgs, appsArgs]
    exact (evalArg_rests a).bind fun _ _ => (evalArgs_rests rest).bind_pure _

theorem evalArg_rests : ∀ a : FunctionArg,
    RestsOn now (evalArg now row cols a) (appsArg now row cols a)
  | .unnamed (.expr e) | .named _ (.expr e) | .exprNamed _ (.expr e) => by
    rw [evalArg, appsArg]
    exact evalRowExpr_rests e
  | .unnamed (.qualifiedWildcard _) | .named _ (.qualifiedWildcard _)
  | .exprNamed _ (.qualifiedWildcard _) | .unnamed .wildcard | .named _ .wildcard
  | .exprNamed _ .wildcard => Rests.pure _

theorem evalText_rests : ∀ a : FunctionArg,
    RestsOn now (evalText now row cols a) (appsText now row cols a)
  | .unnamed (.expr e) => by
    rw [evalText, appsText]
    exact (evalRowExpr_rests e).bind_pure _
  | .unnamed (.qualifiedWildcard _) | .unnamed .wildcard | .named _ _ | .exprNamed _ _ => Rests.pure _

theorem evalDates_rests : ∀ args : List FunctionArg,
    RestsOn now (evalDates now row cols args) (appsDates now row cols args)
  | [] | [_] => Rests.pure _
  | [_, d1] => by
    rw [evalDates, appsDates]
    exact (evalText_rests d1).bind_pure _
  | _ :: d1 :: d2 :: _ => by
    rw [evalDates, appsDates]
    exact (evalText_rests d1).bind fun _ _ => (evalText_rests d2).bind_pure _

theorem evalInterval_rests : ∀ a : FunctionArg,
    RestsOn now (evalInterval now row cols a) (appsInterval now row cols a)
  | .unnamed (.expr (.interval value leadingField)) => by
    rw [evalInterval, appsInterval]
    exact (evalRowExpr_rests value).bind_pure _
  | .unnamed (.qualifiedWildcard _) | .unnamed .wildcard | .named _ _ | .exprNamed _ _ => Rests.pure _
  | .unnamed (.expr (.identifier _)) | .unnamed (.expr (.compoundIdentifier _))
  | .unnamed (.expr (.value _)) | .unnamed (.expr (.nested _)) | .unnamed (.expr (.unaryOp _ _))
  | .unnamed (.expr (.binaryOp _ _ _)) | .unnamed (.expr (.isNull _))
  | .unnamed (.expr (.isNotNull _)) | .unnamed (.expr (.inList _ _ _))
  | .unnamed (.expr (.inSubquery _ _ _)) | .unnamed (.expr (.between _ _ _ _))
  | .unnamed (.expr (.like _ _ _)) | .unnamed (.expr (.iLike _ _ _))
  | .unnamed (.expr (.case _ _ _)) | .unnamed (.expr (.cast _ _))
  | .unnamed (.expr (.convert _ _)) | .unnamed (.expr (.function _))
  | .unnamed (.expr (.subquery _)) | .unnamed (.expr (.exists _ _))
  | .unnamed (.expr (.compound _ _)) | .unnamed (.expr (.other _)) => Rests.pure _

theorem evalDateAdd_rests : ∀ (isSub : Bool) (args : List FunctionArg),
    RestsOn now (evalDateAdd now row cols isSub args) (appsDateAdd now row cols args)
  | _, [] | _, [_] => Rests.pure _
  | isSub, date :: interval :: _ => by
    rw [evalDateAdd, appsDateAdd]
    exact (evalText_rests date).bind fun _ _ => (evalInterval_rests interval).bind_pure _

/-- A condition rests on its applications. -/
theorem evalWhere_rests : ∀ e : Expr,
    RestsOn now (evalWhere now row cols e) (appsWhere now row cols e)
  | .binaryOp left op right => by
    cases op
    case and =>
      rw [evalWhere, appsWhere]
      refine (evalWhere_rests left).bind fun b _ => ?_
      cases b with
      | true => exact evalWhere_rests right
      | false => exact .pure _
    case or =>
      rw [evalWhere, appsWhere]
      refine (evalWhere_rests left).bind fun b _ => ?_
      cases b with
      | true => exact .pure _
      | false => exact evalWhere_rests right
    all_goals
      exact (evalRowExpr_rests left).bind fun _ _ => (evalRowExpr_rests right).bind_pure _
  | .isNull e => by
    rw [evalWhere, appsWhere]
    exact (evalRowExpr_rests e).bind_pure _
  | .isNotNull e => by
    rw [evalWhere, appsWhere]
    exact (evalRowExpr_rests e).bind_pure _
  | .like negated e pattern => by
    rw [evalWhere, appsWhere]
    refine (evalRowExpr_rests e).bind fun v _ => ?_
    have hPattern := evalRowExpr_rests pattern
    refine Iff.trans ?_ hPattern
    cases evalRowExpr now row cols pattern with
    | error p => exact iff_of_false (not_returns_error p) (not_returns_error p)
    | ok p =>
      refine iff_of_true ?_ (returns_ok p)
      show Returns (match v.asStr, p.asStr with | some v, some p => _ | _, _ => _)
      split
      · exact returns_ok _
      · exact returns_ok _
  | .nested e => by
    rw [evalWhere, appsWhere]
    exact evalWhere_rests e
  | .unaryOp op e => by
    cases op
    case not =>
      rw [evalWhere, appsWhere]
      exact (evalWhere_rests e).bind_pure _
    all_goals exact Rests.pure _
  | .between e negated low high => by
    rw [evalWhere, appsWhere]
    exact (evalRowExpr_rests e).bind fun _ _ => (evalRowExpr_rests low).bind fun _ _ =>
      (evalRowExpr_rests high).bind_pure _
  | .inList e list negated => by
    rw [evalWhere, appsWhere]
    exact (evalRowExpr_rests e).bind fun v _ => (evalMember_rests v list).bind_pure _
  | .identifier _ | .compoundIdentifier _ | .value _ | .inSubquery _ _ _ | .iLike _ _ _
  | .case _ _ _ | .cast _ _ | .convert _ _ | .function _ | .interval _ _ | .subquery _
  | .exists _ _ | .compound _ _ | .other _ => Rests.pure _

end

end Rests

end RunAlexDb
