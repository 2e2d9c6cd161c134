import RunAlexDb.Model.Prepared

/-!
# Placeholders — bound values in place of `?`

What a statement with parameters means: every `?`, from left to right, is
replaced by the literal of the next bound value. The engine never builds this
tree; its evaluation of `?` is compared with it. How a literal is read is a
parameter, `literal`; `paramLiteral` is one reading.
-/

set_option linter.unusedSectionVars false

namespace RunAlexDb

open Text Platform

variable [Platform]

/-- A printed number: a sign is an operator. -/
def numberLiteral : Str → Expr
  | '-' :: digits => .unaryOp .minus (.value (.number digits false))
  | digits => .value (.number digits false)

/-- A value as it is printed into a text, and read from it. -/
def paramLiteral : Value → Expr
  | .null => .value .null
  | .int n => numberLiteral (i64ToString n)
  | .float f => numberLiteral (f64ToString f)
  | .text s => .value (.singleQuotedString s)
  | .bytes b => .value (.hexStringLiteral (hexEncode b))

/-- A tree built from the values not yet used. -/
abbrev Binding (α : Type) := StateM (List Value) α

/-- A literal with its `?` replaced; NULL when the values have run out. -/
def bindLiteral (literal : Value → Expr) (v : SqlValue) : Binding Expr := fun bound =>
  if v.toString = ("?" : Str) then (literal (bound.headD .null), bound.tail) else (.value v, bound)

mutual

def bindExpr (literal : Value → Expr) : Expr → Binding Expr
  | .identifier id => pure (.identifier id)
  | .compoundIdentifier parts => pure (.compoundIdentifier parts)
  | .value v => bindLiteral literal v
  | .nested e => do return .nested (← bindExpr literal e)
  | .unaryOp op e => do return .unaryOp op (← bindExpr literal e)
  | .binaryOp left op right => do
    let l ← bindExpr literal left
    let r ← bindExpr literal right
    return .binaryOp l op r
  | .isNull e => do return .isNull (← bindExpr literal e)
  | .isNotNull e => do return .isNotNull (← bindExpr literal e)
  | .inList e list negated => do
    let e ← bindExpr literal e
    return .inList e (← bindExprs literal list) negated
  | .inSubquery e subquery negated => do
    let e ← bindExpr literal e
    return .inSubquery e (← bindQuery literal subquery) negated
  | .between e negated low high => do
    let e ← bindExpr literal e
    let lo ← bindExpr literal low
    let hi ← bindExpr literal high
    return .between e negated lo hi
  | .like negated e pattern => do
    let e ← bindExpr literal e
    return .like negated e (← bindExpr literal pattern)
  | .iLike negated e pattern => do
    let e ← bindExpr literal e
    return .iLike negated e (← bindExpr literal pattern)
  | .case operand conditions elseResult => do
    let base ← bindOption literal operand
    let whens ← bindWhens literal conditions
    return .case base whens (← bindOption literal elseResult)
  | .cast e dataType => do return .cast (← bindExpr literal e) dataType
  | .convert e dataType => do return .convert (← bindExpr literal e) dataType
  | .function f => do return .function (← bindFunction literal f)
  | .interval value leadingField => do return .interval (← bindExpr literal value) leadingField
  | .subquery q => do return .subquery (← bindQuery literal q)
  | .exists subquery negated => do return .exists (← bindQuery literal subquery) negated
  | .compound text parts => do return .compound text (← bindExprs literal parts)
  | .other text => pure (.other text)

def bindOption (literal : Value → Expr) : Option Expr → Binding (Option Expr)
  | none => pure none
  | some e => do return some (← bindExpr literal e)

def bindExprs (literal : Value → Expr) : List Expr → Binding (List Expr)
  | [] => pure []
  | e :: rest => do
    let e ← bindExpr literal e
    return e :: (← bindExprs literal rest)

def bindWhens (literal : Value → Expr) : List CaseWhen → Binding (List CaseWhen)
  | [] => pure []
  | .mk condition result :: rest => do
    let c ← bindExpr literal condition
    let r ← bindExpr literal result
    return .mk c r :: (← bindWhens literal rest)

def bindFunction (literal : Value → Expr) : Function → Binding Function
  | .mk name args over_ => do
    let args ← bindArguments literal args
    return .mk name args (← bindWindow literal over_)

def bindArguments (literal : Value → Expr) : FunctionArguments → Binding FunctionArguments
  | .none => pure .none
  | .subquery q => do return .subquery (← bindQuery literal q)
  | .list (.mk duplicateTreatment args clauses) => do
    return .list (.mk duplicateTreatment (← bindArgs literal args) clauses)

def bindArgs (literal : Value → Expr) : List FunctionArg → Binding (List FunctionArg)
  | [] => pure []
  | a :: rest => do
    let a ← bindArg literal a
    return a :: (← bindArgs literal rest)

def bindArg (literal : Value → Expr) : FunctionArg → Binding FunctionArg
  | .unnamed arg => do return .unnamed (← bindArgExpr literal arg)
  | .named name arg => do return .named name (← bindArgExpr literal arg)
  | .exprNamed name arg => do
    let name ← bindExpr literal name
    return .exprNamed name (← bindArgExpr literal arg)

def bindArgExpr (literal : Value → Expr) : FunctionArgExpr → Binding FunctionArgExpr
  | .expr e => do return .expr (← bindExpr literal e)
  | .qualifiedWildcard text => pure (.qualifiedWildcard text)
  | .wildcard => pure .wildcard

def bindWindow (literal : Value → Expr) : Option WindowType → Binding (Option WindowType)
  | none => pure none
  | some (.windowSpec partitionBy orderBy) => do
    let partitionBy ← bindExprs literal partitionBy
    return some (.windowSpec partitionBy (← bindOrderBys literal orderBy))
  | some (.namedWindow name) => pure (some (.namedWindow name))

def bindOrderBys (literal : Value → Expr) : List OrderByExpr → Binding (List OrderByExpr)
  | [] => pure []
  | .mk e asc :: rest => do
    let e ← bindExpr literal e
    return .mk e asc :: (← bindOrderBys literal rest)

def bindOrderBy (literal : Value → Expr) : Option OrderByKind → Binding (Option OrderByKind)
  | none => pure none
  | some .all => pure (some .all)
  | some (.expressions exprs) => do return some (.expressions (← bindOrderBys literal exprs))

/-- In the order of the text: the LIMIT stands before the OFFSET. -/
def bindQuery (literal : Value → Expr) : Query → Binding Query
  | .mk body orderBy limit offset => do
    let body ← bindBody literal body
    let orderBy ← bindOrderBy literal orderBy
    let limit ← bindOption literal limit
    return .mk body orderBy limit (← bindOption literal offset)

def bindBody (literal : Value → Expr) : SetExpr → Binding SetExpr
  | .select s => do return .select (← bindSelect literal s)
  | .query q => do return .query (← bindQuery literal q)
  | .setOperation op setQuantifier left right => do
    let l ← bindBody literal left
    return .setOperation op setQuantifier l (← bindBody literal right)
  | .values rows => do return .values (← bindValues literal rows)
  | .other text => pure (.other text)

def bindValues (literal : Value → Expr) : List (List Expr) → Binding (List (List Expr))
  | [] => pure []
  | row :: rest => do
    let row ← bindExprs literal row
    return row :: (← bindValues literal rest)

def bindSelect (literal : Value → Expr) : Select → Binding Select
  | .mk distinct projection from_ selection groupBy having => do
    let projection ← bindItems literal projection
    let from_ ← bindTables literal from_
    let selection ← bindOption literal selection
    let groupBy ← bindGroupBy literal groupBy
    return .mk distinct projection from_ selection groupBy (← bindOption literal having)

def bindGroupBy (literal : Value → Expr) : GroupByExpr → Binding GroupByExpr
  | .expressions exprs => do return .expressions (← bindExprs literal exprs)
  | .all => pure .all

def bindItems (literal : Value → Expr) : List SelectItem → Binding (List SelectItem)
  | [] => pure []
  | p :: rest => do
    let p ← bindItem literal p
    return p :: (← bindItems literal rest)

def bindItem (literal : Value → Expr) : SelectItem → Binding SelectItem
  | .unnamedExpr e => do return .unnamedExpr (← bindExpr literal e)
  | .exprWithAlias e alias_ => do return .exprWithAlias (← bindExpr literal e) alias_
  | .qualifiedWildcard text => pure (.qualifiedWildcard text)
  | .wildcard text => pure (.wildcard text)

def bindTables (literal : Value → Expr) : List TableWithJoins → Binding (List TableWithJoins)
  | [] => pure []
  | .mk relation joins :: rest => do
    let relation ← bindRelation literal relation
    let joins ← bindJoins literal joins
    return .mk relation joins :: (← bindTables literal rest)

def bindRelation (literal : Value → Expr) : TableFactor → Binding TableFactor
  | .table name rest => pure (.table name rest)
  | .derived subquery rest => do return .derived (← bindQuery literal subquery) rest
  | .other text => pure (.other text)

def bindJoins (literal : Value → Expr) : List Join → Binding (List Join)
  | [] => pure []
  | .mk relation joinOperator :: rest => do
    let relation ← bindRelation literal relation
    let joinOperator ← bindJoinOperator literal joinOperator
    return .mk relation joinOperator :: (← bindJoins literal rest)

def bindJoinOperator (literal : Value → Expr) : JoinOperator → Binding JoinOperator
  | .join c => do return .join (← bindConstraint literal c)
  | .inner c => do return .inner (← bindConstraint literal c)
  | .left c => do return .left (← bindConstraint literal c)
  | .leftOuter c => do return .leftOuter (← bindConstraint literal c)
  | .right c => do return .right (← bindConstraint literal c)
  | .rightOuter c => do return .rightOuter (← bindConstraint literal c)
  | .crossJoin => pure .crossJoin
  | .other => pure .other

def bindConstraint (literal : Value → Expr) : JoinConstraint → Binding JoinConstraint
  | .on e => do return .on (← bindExpr literal e)
  | .other => pure .other

end

end RunAlexDb
