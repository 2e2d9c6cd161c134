import RunAlexDb.Lib.Text

/-!
# Ast — the SQL syntax trees the engine reads

The trees `sqlparser` builds for the MySQL dialect, with the constructors and
fields the engine looks at. What the engine never takes apart is kept as the
text it prints as (`other`, `rest`, `text`); an expression of that kind that has
operands keeps them (`compound`).
-/

namespace RunAlexDb

open Text

structure Ident where
  value : Str
  quoteStyle : Option Char
deriving DecidableEq, Repr

/-- `Ident::new`: an unquoted identifier. -/
def Ident.new (value : Str) : Ident := ⟨value, none⟩

/-- A possibly qualified name, outermost part first. -/
abbrev ObjectName := List Ident

/-- A literal. -/
inductive SqlValue
  | number (n : Str) (long : Bool)
  | singleQuotedString (s : Str)
  | doubleQuotedString (s : Str)
  | hexStringLiteral (s : Str)
  | boolean (b : Bool)
  | null
  | placeholder (s : Str)
  | other (text : Str)
deriving DecidableEq, Repr

inductive BinaryOperator
  | plus | minus | multiply | divide | modulo | stringConcat
  | gt | lt | gtEq | ltEq | eq | notEq
  | and | or | xor
  | bitwiseOr | bitwiseAnd | bitwiseXor
  | myIntegerDivide | pgBitwiseShiftLeft | pgBitwiseShiftRight
  | other (text : Str)
deriving DecidableEq, Repr

inductive UnaryOperator
  | plus | minus | not
  | other (text : Str)
deriving DecidableEq, Repr

inductive CharacterLength
  | integerLength (length : Nat)
  | max
deriving DecidableEq, Repr

inductive DataType
  | int | integer | smallInt | tinyInt | bigInt
  | signed | signedInteger | unsigned | unsignedInteger
  | float | real | double | doublePrecision
  | char | varchar (length : Option CharacterLength) | string
  | text | mediumText | longText
  | blob | binary | varbinary
  | date | datetime | timestamp
  | boolean
  | other (text : Str)
deriving DecidableEq, Repr

inductive SetOperator
  | union | except | intersect | minus
deriving DecidableEq, Repr

inductive SetQuantifier
  | all | distinct | byName | none
deriving DecidableEq, Repr

inductive DuplicateTreatment
  | distinct | all
deriving DecidableEq, Repr

inductive FunctionArgumentClause
  | separator (v : SqlValue)
  | other (text : Str)
deriving DecidableEq, Repr

inductive Distinct
  | distinct | on
deriving DecidableEq, Repr

-- ---------------------------------------------------------------------------
-- Expressions and queries
-- ---------------------------------------------------------------------------

mutual

inductive Expr
  | identifier (id : Ident)
  | compoundIdentifier (parts : List Ident)
  | value (v : SqlValue)
  | nested (expr : Expr)
  | unaryOp (op : UnaryOperator) (expr : Expr)
  | binaryOp (left : Expr) (op : BinaryOperator) (right : Expr)
  | isNull (expr : Expr)
  | isNotNull (expr : Expr)
  | inList (expr : Expr) (list : List Expr) (negated : Bool)
  | inSubquery (expr : Expr) (subquery : Query) (negated : Bool)
  | between (expr : Expr) (negated : Bool) (low high : Expr)
  | like (negated : Bool) (expr pattern : Expr)
  | iLike (negated : Bool) (expr pattern : Expr)
  | case (operand : Option Expr) (conditions : List CaseWhen) (elseResult : Option Expr)
  | cast (expr : Expr) (dataType : DataType)
  | convert (expr : Expr) (dataType : Option DataType)
  | function (f : Function)
  | interval (value : Expr) (leadingField : Option Str)
  | subquery (q : Query)
  | exists (subquery : Query) (negated : Bool)
  | compound (text : Str) (parts : List Expr)
  | other (text : Str)

inductive CaseWhen
  | mk (condition result : Expr)

inductive FunctionArgExpr
  | expr (e : Expr)
  | qualifiedWildcard (text : Str)
  | wildcard

inductive FunctionArg
  | unnamed (arg : FunctionArgExpr)
  | named (name : Str) (arg : FunctionArgExpr)
  | exprNamed (name : Expr) (arg : FunctionArgExpr)

inductive FunctionArgumentList
  | mk (duplicateTreatment : Option DuplicateTreatment) (args : List FunctionArg)
      (clauses : List FunctionArgumentClause)

inductive FunctionArguments
  | none
  | subquery (q : Query)
  | list (l : FunctionArgumentList)

inductive Function
  | mk (name : ObjectName) (args : FunctionArguments) (over_ : Option WindowType)

inductive WindowType
  | windowSpec (partitionBy : List Expr) (orderBy : List OrderByExpr)
  | namedWindow (name : Ident)

inductive OrderByExpr
  | mk (expr : Expr) (asc : Option Bool)

inductive OrderByKind
  | expressions (exprs : List OrderByExpr)
  | all

inductive Query
  | mk (body : SetExpr) (orderBy : Option OrderByKind) (limit : Option Expr) (offset : Option Expr)

inductive SetExpr
  | select (s : Select)
  | query (q : Query)
  | setOperation (op : SetOperator) (setQuantifier : SetQuantifier) (left right : SetExpr)
  | values (rows : List (List Expr))
  | other (text : Str)

inductive Select
  | mk (distinct : Option Distinct) (projection : List SelectItem) (from_ : List TableWithJoins)
      (selection : Option Expr) (groupBy : GroupByExpr) (having : Option Expr)

inductive GroupByExpr
  | expressions (exprs : List Expr)
  | all

inductive SelectItem
  | unnamedExpr (e : Expr)
  | exprWithAlias (e : Expr) (alias_ : Ident)
  | qualifiedWildcard (text : Str)
  | wildcard (text : Str)

inductive TableWithJoins
  | mk (relation : TableFactor) (joins : List Join)

/-- `rest` is what a plain table prints after its name (alias, hints), empty
for a bare name. -/
inductive TableFactor
  | table (name : ObjectName) (rest : Str)
  | derived (subquery : Query) (rest : Str)
  | other (text : Str)

inductive Join
  | mk (relation : TableFactor) (joinOperator : JoinOperator)

inductive JoinConstraint
  | on (e : Expr)
  | other

inductive JoinOperator
  | join (c : JoinConstraint)
  | inner (c : JoinConstraint)
  | left (c : JoinConstraint)
  | leftOuter (c : JoinConstraint)
  | right (c : JoinConstraint)
  | rightOuter (c : JoinConstraint)
  | crossJoin
  | other

end

instance : Inhabited Expr := ⟨.value .null⟩
instance : Inhabited Query := ⟨.mk (.other []) none none none⟩

def Query.body : Query → SetExpr
  | .mk body _ _ _ => body

def TableWithJoins.relation : TableWithJoins → TableFactor
  | .mk relation _ => relation

def TableWithJoins.joins : TableWithJoins → List Join
  | .mk _ joins => joins

def OrderByExpr.expr : OrderByExpr → Expr
  | .mk e _ => e

/-- `options.asc.unwrap_or(true)`. -/
def OrderByExpr.asc : OrderByExpr → Bool
  | .mk _ asc => asc.getD true

def Function.name : Function → ObjectName
  | .mk name _ _ => name

def Function.args : Function → FunctionArguments
  | .mk _ args _ => args

def Function.over : Function → Option WindowType
  | .mk _ _ over_ => over_

-- ---------------------------------------------------------------------------
-- Statements
-- ---------------------------------------------------------------------------

inductive ColumnOption
  | unique (isPrimary : Bool)
  | other (text : Str)
deriving DecidableEq, Repr

structure ColumnDef where
  name : Ident
  dataType : DataType
  options : List ColumnOption
deriving DecidableEq, Repr

structure CreateTable where
  name : ObjectName
  columns : List ColumnDef
  ifNotExists : Bool
  query : Option Query

inductive TableObject
  | tableName (name : ObjectName)
  | tableFunction (text : Str)
deriving DecidableEq, Repr

structure Insert where
  table : TableObject
  columns : List Ident
  source : Option Query
  replaceInto : Bool

inductive ObjectType
  | table | database | schema
  | other (text : Str)
deriving DecidableEq, Repr

inductive AssignmentTarget
  | columnName (name : ObjectName)
  | tuple (names : List ObjectName)
deriving DecidableEq, Repr

structure Assignment where
  target : AssignmentTarget
  value : Expr

structure Delete where
  from_ : List TableWithJoins
  selection : Option Expr
  orderBy : List OrderByExpr := []
  limit : Option Expr := none

inductive Use
  | object (name : ObjectName)
  | other (text : Str)
deriving DecidableEq, Repr

inductive ShowCreateObject
  | table
  | other (text : Str)
deriving DecidableEq, Repr

inductive AlterTableOperation
  | addColumn (columnDef : ColumnDef)
  | dropColumn (columnName : Ident)
  | renameColumn (oldColumnName newColumnName : Ident)
  | other (text : Str)
deriving DecidableEq, Repr

inductive Statement
  | createDatabase (dbName : ObjectName)
  | createTable (create : CreateTable)
  | insert (insert : Insert)
  | query (q : Query)
  | drop (objectType : ObjectType) (names : List ObjectName) (ifExists : Bool)
  | update (table : TableWithJoins) (assignments : List Assignment) (selection : Option Expr)
  | delete (del : Delete)
  | use (u : Use)
  | truncate (tableNames : List ObjectName)
  | explainTable (tableName : ObjectName)
  | showColumns (full : Bool) (parentName : Option ObjectName)
  | showCreate (objType : ShowCreateObject) (objName : ObjectName)
  | alterTable (name : ObjectName) (operations : List AlterTableOperation)
  | other (text : Str)

end RunAlexDb
