import RunAlexDb.Model.Prepared

/-!
# Spelling — expressions whose columns are written in another way

`respell f g` writes the columns of an expression as `f` does and its subqueries
as `g` does. Where `f` keeps the value of an identifier, evaluation and the
conditions that a key or a scan serves stay the same: they read the value, and
leave subqueries alone.

Main results: `evalRowExpr_respell`, `evalWhere_respell`, `evalWhereBound_respell`.
-/

set_option linter.unusedSectionVars false

namespace RunAlexDb

open Text Platform

-- ---------------------------------------------------------------------------
-- Respelling
-- ---------------------------------------------------------------------------

/-- The last part of a name is the column. -/
def respellLast (f : Ident → Ident) (parts : List Ident) : List Ident :=
  parts.modify (parts.length - 1) f

mutual

def Expr.respell (f : Ident → Ident) (g : Query → Query) : Expr → Expr
  | .identifier id => .identifier (f id)
  | .compoundIdentifier parts => .compoundIdentifier (respellLast f parts)
  | .value v => .value v
  | .nested e => .nested (e.respell f g)
  | .unaryOp op e => .unaryOp op (e.respell f g)
  | .binaryOp left op right => .binaryOp (left.respell f g) op (right.respell f g)
  | .isNull e => .isNull (e.respell f g)
  | .isNotNull e => .isNotNull (e.respell f g)
  | .inList e list negated => .inList (e.respell f g) (respellList f g list) negated
  | .inSubquery e subquery negated => .inSubquery (e.respell f g) (g subquery) negated
  | .between e negated low high => .between (e.respell f g) negated (low.respell f g) (high.respell f g)
  | .like negated e pattern => .like negated (e.respell f g) (pattern.respell f g)
  | .iLike negated e pattern => .iLike negated (e.respell f g) (pattern.respell f g)
  | .case operand conditions elseResult =>
    .case (respellOption f g operand) (respellWhens f g conditions) (respellOption f g elseResult)
  | .cast e dataType => .cast (e.respell f g) dataType
  | .convert e dataType => .convert (e.respell f g) dataType
  | .function call => .function (call.respell f g)
  | .interval value leadingField => .interval (value.respell f g) leadingField
  | .subquery q => .subquery (g q)
  | .exists subquery negated => .exists (g subquery) negated
  | .compound text parts => .compound text (respellList f g parts)
  | .other text => .other text

def respellOption (f : Ident → Ident) (g : Query → Query) : Option Expr → Option Expr
  | none => none
  | some e => some (e.respell f g)

def respellList (f : Ident → Ident) (g : Query → Query) : List Expr → List Expr
  | [] => []
  | e :: rest => e.respell f g :: respellList f g rest

def respellWhens (f : Ident → Ident) (g : Query → Query) : List CaseWhen → List CaseWhen
  | [] => []
  | .mk condition result :: rest => .mk (condition.respell f g) (result.respell f g) :: respellWhens f g rest

def FunctionArgExpr.respell (f : Ident → Ident) (g : Query → Query) : FunctionArgExpr → FunctionArgExpr
  | .expr e => .expr (e.respell f g)
  | .qualifiedWildcard text => .qualifiedWildcard text
  | .wildcard => .wildcard

def FunctionArg.respell (f : Ident → Ident) (g : Query → Query) : FunctionArg → FunctionArg
  | .unnamed arg => .unnamed (arg.respell f g)
  | .named name arg => .named name (arg.respell f g)
  | .exprNamed name arg => .exprNamed name (arg.respell f g)

def respellArgs (f : Ident → Ident) (g : Query → Query) : List FunctionArg → List FunctionArg
  | [] => []
  | a :: rest => a.respell f g :: respellArgs f g rest

def FunctionArgumentList.respell (f : Ident → Ident) (g : Query → Query) : FunctionArgumentList → FunctionArgumentList
  | .mk duplicateTreatment args clauses => .mk duplicateTreatment (respellArgs f g args) clauses

def FunctionArguments.respell (f : Ident → Ident) (g : Query → Query) : FunctionArguments → FunctionArguments
  | .none => .none
  | .subquery q => .subquery (g q)
  | .list l => .list (l.respell f g)

def Function.respell (f : Ident → Ident) (g : Query → Query) : Function → Function
  | .mk name args over_ => .mk name (args.respell f g) over_

end

-- ---------------------------------------------------------------------------
-- Evaluation
-- ---------------------------------------------------------------------------

section Evaluation

variable [Platform] {f : Ident → Ident} {g : Query → Query} (hValue : ∀ id, (f id).value = id.value)

include hValue

theorem respellLast_values (parts : List Ident) :
    (respellLast f parts).map Ident.value = parts.map Ident.value := by
  refine List.ext_getElem? fun i => ?_
  rw [List.getElem?_map, List.getElem?_map, respellLast, List.getElem?_modify]
  rcases parts[i]? with _ | id
  · rfl
  · split
    · exact congrArg some (hValue id)
    · rfl

theorem respellLast_getLast? (parts : List Ident) :
    ((respellLast f parts).getLast?).map Ident.value = parts.getLast?.map Ident.value := by
  rw [← List.getLast?_map, respellLast_values hValue, List.getLast?_map]

theorem compoundValue_respell (row : Row) (cols : List Column) (parts : List Ident) :
    compoundValue row cols (respellLast f parts) = compoundValue row cols parts := by
  have hLast := respellLast_getLast? hValue parts
  unfold compoundValue
  rw [respellLast_values hValue]
  rcases hOld : parts.getLast? with _ | last
  · rw [hOld, Option.map_none, Option.map_eq_none_iff] at hLast
    rw [hLast]
  · rw [hOld, Option.map_some] at hLast
    obtain ⟨last', hNew, hSame⟩ := Option.map_eq_some_iff.1 hLast
    rw [hNew]
    dsimp only
    rw [hSame]

theorem timestampUnit_respell (args : List FunctionArg) :
    timestampUnit (respellArgs f g args) = timestampUnit args := by
  rcases args with _ | ⟨⟨_ | text | _⟩ | ⟨name, arg⟩ | ⟨name, arg⟩, rest⟩
  · rfl
  · rename_i e
    cases e
    case identifier id => exact congrArg toUppercase (hValue id)
    all_goals rfl
  · rfl
  · rfl
  · rfl
  · rfl

mutual

theorem evalRowExpr_respell (now : Nat) (row : Row) (cols : List Column) :
    ∀ e : Expr, evalRowExpr now row cols (e.respell f g) = evalRowExpr now row cols e
  | .identifier id => by
    rw [Expr.respell, evalRowExpr, evalRowExpr, hValue]
  | .compoundIdentifier parts => by
    rw [Expr.respell, evalRowExpr, evalRowExpr, compoundValue_respell hValue]
  | .nested e => by
    rw [Expr.respell, evalRowExpr, evalRowExpr, evalRowExpr_respell now row cols e]
  | .unaryOp op e => by
    rw [Expr.respell, evalRowExpr, evalRowExpr, evalRowExpr_respell now row cols e]
  | .binaryOp left op right => by
    rw [Expr.respell, evalRowExpr, evalRowExpr, evalRowExpr_respell now row cols left,
      evalRowExpr_respell now row cols right]
  | .isNull e => by
    rw [Expr.respell, evalRowExpr, evalRowExpr, evalRowExpr_respell now row cols e]
  | .isNotNull e => by
    rw [Expr.respell, evalRowExpr, evalRowExpr, evalRowExpr_respell now row cols e]
  | .inList e list negated => by
    rw [Expr.respell, evalRowExpr, evalRowExpr, evalRowExpr_respell now row cols e]
    simp only [evalMember_respell now row cols list]
  | .between e negated low high => by
    rw [Expr.respell, evalRowExpr, evalRowExpr, evalRowExpr_respell now row cols e,
      evalRowExpr_respell now row cols low, evalRowExpr_respell now row cols high]
  | .like negated e pattern => by
    rw [Expr.respell, evalRowExpr, evalRowExpr, evalRowExpr_respell now row cols e,
      evalRowExpr_respell now row cols pattern]
  | .iLike negated e pattern => by
    rw [Expr.respell, evalRowExpr, evalRowExpr, evalRowExpr_respell now row cols e,
      evalRowExpr_respell now row cols pattern]
  | .case operand conditions elseResult => by
    rw [Expr.respell, evalRowExpr, evalRowExpr, evalOption_respell now row cols operand,
      evalOption_respell now row cols elseResult]
    simp only [evalWhens_respell now row cols conditions]
  | .cast e dataType => by
    rw [Expr.respell, evalRowExpr, evalRowExpr, evalRowExpr_respell now row cols e]
  | .convert e dataType => by
    rw [Expr.respell, evalRowExpr, evalRowExpr, evalRowExpr_respell now row cols e]
  | .function call => by
    rw [Expr.respell, evalRowExpr, evalRowExpr, evalFunction_respell now row cols call]
  | .value _ | .inSubquery _ _ _ | .interval _ _ | .subquery _ | .exists _ _
  | .compound _ _ | .other _ => rfl

theorem evalOption_respell (now : Nat) (row : Row) (cols : List Column) :
    ∀ o : Option Expr, evalOption now row cols (respellOption f g o) = evalOption now row cols o
  | none => rfl
  | some e => by
    rw [respellOption, evalOption, evalOption, evalRowExpr_respell now row cols e]

theorem evalWhens_respell (now : Nat) (row : Row) (cols : List Column) :
    ∀ (conditions : List CaseWhen) (base : Option Value),
      evalWhens now row cols base (respellWhens f g conditions) = evalWhens now row cols base conditions
  | [], _ => rfl
  | .mk condition result :: rest, base => by
    have hRest := evalWhens_respell now row cols rest
    rw [respellWhens]
    cases base <;>
    · simp only [evalWhens, evalRowExpr_respell now row cols condition,
        evalRowExpr_respell now row cols result, evalWhere_respell now row cols condition, hRest]

theorem evalMember_respell (now : Nat) (row : Row) (cols : List Column) :
    ∀ (list : List Expr) (v : Value),
      evalMember now row cols v (respellList f g list) = evalMember now row cols v list
  | [], _ => rfl
  | e :: rest, v => by
    rw [respellList, evalMember, evalMember, evalRowExpr_respell now row cols e,
      evalMember_respell now row cols rest]

theorem evalFunction_respell (now : Nat) (row : Row) (cols : List Column) :
    ∀ call : Function, evalFunction now row cols (call.respell f g) = evalFunction now row cols call
  | .mk name (.list (.mk duplicateTreatment args clauses)) over_ => by
    rw [Function.respell, FunctionArguments.respell, FunctionArgumentList.respell, evalFunction,
      evalFunction, evalDateAdd_respell now row cols args, evalDateAdd_respell now row cols args,
      evalDates_respell now row cols args, evalArgs_respell now row cols args,
      timestampUnit_respell hValue]
  | .mk name .none over_ => rfl
  | .mk name (.subquery q) over_ => rfl

theorem evalArgs_respell (now : Nat) (row : Row) (cols : List Column) :
    ∀ args : List FunctionArg, evalArgs now row cols (respellArgs f g args) = evalArgs now row cols args
  | [] => rfl
  | a :: rest => by
    rw [respellArgs, evalArgs, evalArgs, evalArg_respell now row cols a,
      evalArgs_respell now row cols rest]

theorem evalArg_respell (now : Nat) (row : Row) (cols : List Column) :
    ∀ a : FunctionArg, evalArg now row cols (a.respell f g) = evalArg now row cols a
  | .unnamed (.expr e) | .named _ (.expr e) | .exprNamed _ (.expr e) => by
    rw [FunctionArg.respell, FunctionArgExpr.respell, evalArg, evalArg,
      evalRowExpr_respell now row cols e]
  | .unnamed (.qualifiedWildcard _) | .named _ (.qualifiedWildcard _)
  | .exprNamed _ (.qualifiedWildcard _) | .unnamed .wildcard | .named _ .wildcard
  | .exprNamed _ .wildcard => rfl

theorem evalText_respell (now : Nat) (row : Row) (cols : List Column) :
    ∀ a : FunctionArg, evalText now row cols (a.respell f g) = evalText now row cols a
  | .unnamed (.expr e) => by
    rw [FunctionArg.respell, FunctionArgExpr.respell, evalText, evalText,
      evalRowExpr_respell now row cols e]
  | .unnamed (.qualifiedWildcard _) | .unnamed .wildcard | .named _ _ | .exprNamed _ _ => rfl

theorem evalDates_respell (now : Nat) (row : Row) (cols : List Column) :
    ∀ args : List FunctionArg, evalDates now row cols (respellArgs f g args) = evalDates now row cols args
  | [] | [_] => rfl
  | [_, d1] => by
    rw [respellArgs, respellArgs, respellArgs, evalDates, evalDates, evalText_respell now row cols d1]
  | _ :: d1 :: d2 :: rest => by
    rw [respellArgs, respellArgs, respellArgs, evalDates, evalDates, evalText_respell now row cols d1,
      evalText_respell now row cols d2]

theorem evalInterval_respell (now : Nat) (row : Row) (cols : List Column) :
    ∀ a : FunctionArg, evalInterval now row cols (a.respell f g) = evalInterval now row cols a
  | .unnamed (.expr (.interval value leadingField)) => by
    rw [FunctionArg.respell, FunctionArgExpr.respell, Expr.respell, evalInterval, evalInterval,
      evalRowExpr_respell now row cols value]
  | .unnamed (.qualifiedWildcard _) | .unnamed .wildcard | .named _ _ | .exprNamed _ _ => rfl
  | .unnamed (.expr (.identifier _)) | .unnamed (.expr (.compoundIdentifier _))
  | .unnamed (.expr (.value _)) | .unnamed (.expr (.nested _)) | .unnamed (.expr (.unaryOp _ _))
  | .unnamed (.expr (.binaryOp _ _ _)) | .unnamed (.expr (.isNull _)) | .unnamed (.expr (.isNotNull _))
  | .unnamed (.expr (.inList _ _ _)) | .unnamed (.expr (.inSubquery _ _ _))
  | .unnamed (.expr (.between _ _ _ _)) | .unnamed (.expr (.like _ _ _))
  | .unnamed (.expr (.iLike _ _ _)) | .unnamed (.expr (.case _ _ _)) | .unnamed (.expr (.cast _ _))
  | .unnamed (.expr (.convert _ _)) | .unnamed (.expr (.function _))
  | .unnamed (.expr (.subquery _)) | .unnamed (.expr (.exists _ _))
  | .unnamed (.expr (.compound _ _)) | .unnamed (.expr (.other _)) => rfl

theorem evalDateAdd_respell (now : Nat) (row : Row) (cols : List Column) :
    ∀ (args : List FunctionArg) (isSub : Bool),
      evalDateAdd now row cols isSub (respellArgs f g args) = evalDateAdd now row cols isSub args
  | [], _ | [_], _ => rfl
  | date :: interval :: rest, isSub => by
    rw [respellArgs, respellArgs, evalDateAdd, evalDateAdd, evalText_respell now row cols date,
      evalInterval_respell now row cols interval]

theorem evalWhere_respell (now : Nat) (row : Row) (cols : List Column) :
    ∀ e : Expr, evalWhere now row cols (e.respell f g) = evalWhere now row cols e
  | .binaryOp left op right => by
    rw [Expr.respell]
    cases op
    case and | or =>
      rw [evalWhere, evalWhere, evalWhere_respell now row cols left,
        evalWhere_respell now row cols right]
    all_goals
      simp only [evalWhere, evalRowExpr_respell now row cols left,
        evalRowExpr_respell now row cols right]
  | .isNull e => by
    rw [Expr.respell, evalWhere, evalWhere, evalRowExpr_respell now row cols e]
  | .isNotNull e => by
    rw [Expr.respell, evalWhere, evalWhere, evalRowExpr_respell now row cols e]
  | .like negated e pattern => by
    rw [Expr.respell, evalWhere, evalWhere, evalRowExpr_respell now row cols e,
      evalRowExpr_respell now row cols pattern]
  | .nested e => by
    rw [Expr.respell, evalWhere, evalWhere, evalWhere_respell now row cols e]
  | .unaryOp op e => by
    rw [Expr.respell]
    cases op
    case not => rw [evalWhere, evalWhere, evalWhere_respell now row cols e]
    all_goals rfl
  | .between e negated low high => by
    rw [Expr.respell, evalWhere, evalWhere, evalRowExpr_respell now row cols e,
      evalRowExpr_respell now row cols low, evalRowExpr_respell now row cols high]
  | .inList e list negated => by
    rw [Expr.respell, evalWhere, evalWhere, evalRowExpr_respell now row cols e]
    simp only [evalMember_respell now row cols list]
  | .identifier _ | .compoundIdentifier _ | .value _ | .inSubquery _ _ _ | .iLike _ _ _ | .case _ _ _
  | .cast _ _ | .convert _ _ | .function _ | .interval _ _ | .subquery _ | .exists _ _
  | .compound _ _ | .other _ => rfl

end

theorem filterRows_respell (now : Nat) (cols : List Column) (selection : Option Expr) (rows : List Row) :
    filterRows now cols (selection.map (Expr.respell f g)) rows = filterRows now cols selection rows := by
  rcases selection with _ | w
  · rfl
  · show rows.filterM (fun r => evalWhere now r cols (w.respell f g)) = rows.filterM fun r => evalWhere now r cols w
    simp only [evalWhere_respell hValue now _ cols w]

-- ---------------------------------------------------------------------------
-- Conditions a key or a scan serves
-- ---------------------------------------------------------------------------

omit hValue in
theorem isColumn_respell (e : Expr) : (e.respell f g).isColumn = e.isColumn := by
  cases e <;> rfl

theorem columnName?_respell (e : Expr) : (e.respell f g).columnName? = e.columnName? := by
  cases e
  case identifier id => exact congrArg some (hValue id)
  case compoundIdentifier parts => exact respellLast_getLast? hValue parts
  all_goals rfl

omit hValue in
theorem isPlaceholder_respell (e : Expr) : (e.respell f g).isPlaceholder = e.isPlaceholder := by
  cases e <;> rfl

omit hValue in
theorem eqSides_respell (e : Expr) :
    eqSides (e.respell f g) = (eqSides e).map fun sides => (sides.1.respell f g, sides.2.respell f g) := by
  cases e
  case binaryOp left op right =>
    cases op
    case eq =>
      rw [Expr.respell, eqSides, eqSides, isColumn_respell]
      split <;> rfl
    all_goals rfl
  all_goals rfl

theorem extractPkEq_respell (pkColName : Str) (e : Expr) :
    extractPkEq pkColName (e.respell f g) = extractPkEq pkColName e := by
  unfold extractPkEq
  rw [eqSides_respell]
  rcases eqSides e with _ | ⟨col, val⟩
  · rfl
  · simp only [Option.map_some, Option.bind_eq_bind, Option.bind_some, columnName?_respell hValue]
    cases val <;> rfl

theorem extractPkEqParam_respell (pkColName : Str) (e : Expr) (paramOffset : Nat) :
    extractPkEqParam pkColName (e.respell f g) paramOffset = extractPkEqParam pkColName e paramOffset := by
  unfold extractPkEqParam
  rw [eqSides_respell]
  rcases eqSides e with _ | ⟨col, val⟩
  · rfl
  · simp only [Option.map_some, Option.bind_eq_bind, Option.bind_some, columnName?_respell hValue,
      isPlaceholder_respell]

omit hValue in
/-- A scan looks for a literal. -/
theorem trySimdScan_of_not_value (table : Table) (left : Expr) (op : BinaryOperator) {right : Expr}
    (hRight : ∀ v, right ≠ .value v) : trySimdScan table (.binaryOp left op right) = none := by
  rw [trySimdScan]
  rcases left.columnName? with _ | name
  · rfl
  · rcases hPosition : columnPosition table.columns name with _ | colIdx
    · simp only [Option.bind_eq_bind, Option.bind_some, hPosition, Option.bind_none]
    · simp only [Option.bind_eq_bind, Option.bind_some, hPosition]
      split
      · split
        · exact absurd rfl (hRight _)
        · rfl
      · split
        · exact absurd rfl (hRight _)
        · rfl

theorem trySimdScan_respell (table : Table) (e : Expr) :
    trySimdScan table (e.respell f g) = trySimdScan table e := by
  cases e
  case binaryOp left op right =>
    rw [Expr.respell]
    by_cases hRight : ∃ v, right = .value v
    · obtain ⟨v, rfl⟩ := hRight
      rw [Expr.respell, trySimdScan, trySimdScan, columnName?_respell hValue]
    · have hOther : ∀ v, right ≠ .value v := fun v hv => hRight ⟨v, hv⟩
      have hRespelled : ∀ v, right.respell f g ≠ .value v := by
        intro v hv
        cases right
        case value v' => exact hOther v' rfl
        all_goals cases hv
      rw [trySimdScan_of_not_value table _ op hOther, trySimdScan_of_not_value table _ op hRespelled]
  all_goals rfl

-- ---------------------------------------------------------------------------
-- Conditions with parameters
-- ---------------------------------------------------------------------------

theorem resolveExprBound_respell (row : Row) (cols : List Column) (bound : List Value) (e : Expr) :
    resolveExprBound row cols bound (e.respell f g) = resolveExprBound row cols bound e := by
  unfold resolveExprBound
  rw [isPlaceholder_respell]
  cases e
  case identifier id =>
    rw [Expr.respell]
    dsimp only
    rw [hValue]
  all_goals rfl

theorem evalWhereBound_respell (now : Nat) (row : Row) (cols : List Column) (bound : List Value) :
    ∀ e : Expr, evalWhereBound now row cols bound (e.respell f g) = evalWhereBound now row cols bound e
  | .binaryOp left op right => by
    rw [Expr.respell]
    cases op
    case and | or =>
      rw [evalWhereBound, evalWhereBound, evalWhereBound_respell now row cols bound left,
        evalWhereBound_respell now row cols bound right]
    all_goals
      simp only [evalWhereBound, resolveExprBound_respell hValue]
  | .isNull e => by
    rw [Expr.respell, evalWhereBound, evalWhereBound, resolveExprBound_respell hValue]
  | .isNotNull e => by
    rw [Expr.respell, evalWhereBound, evalWhereBound, resolveExprBound_respell hValue]
  | .nested e => by
    rw [Expr.respell, evalWhereBound, evalWhereBound, evalWhereBound_respell now row cols bound e]
  | .unaryOp op e => by
    rw [Expr.respell]
    cases op
    case not => rw [evalWhereBound, evalWhereBound, evalWhereBound_respell now row cols bound e]
    all_goals rfl
  | .like negated e pattern => evalWhere_respell hValue now row cols (.like negated e pattern)
  | .between e negated low high => evalWhere_respell hValue now row cols (.between e negated low high)
  | .inList e list negated => evalWhere_respell hValue now row cols (.inList e list negated)
  | .identifier _ | .compoundIdentifier _ | .value _ | .inSubquery _ _ _ | .iLike _ _ _ | .case _ _ _
  | .cast _ _ | .convert _ _ | .function _ | .interval _ _ | .subquery _ | .exists _ _
  | .compound _ _ | .other _ => rfl
termination_by structural e => e

theorem rowSelectedBound_respell (now : Nat) (cols : List Column) (bound : List Value)
    (selection : Option Expr) (row : Row) :
    rowSelectedBound now cols bound (selection.map (Expr.respell f g)) row =
      rowSelectedBound now cols bound selection row := by
  rcases selection with _ | w
  · rfl
  · exact evalWhereBound_respell hValue now row cols bound w

end Evaluation

end RunAlexDb
