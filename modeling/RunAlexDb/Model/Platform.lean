import RunAlexDb.Model.Ast

/-!
# Platform — what the engine takes from outside its own source

Parsing and printing of SQL (`sqlparser`), the Unicode case tables, SHA-1,
IEEE-754 arithmetic with Rust's float parsing and printing, and two facts of
the machine. All of it is one parameter of the model; what a result needs to
know of it is a named hypothesis there.

An `f64` is its 64 bits; only the operations on it are parameters.
-/

namespace RunAlexDb

open Text

/-- An IEEE-754 binary64 value, as its bits. -/
structure F64 where
  bits : UInt64
deriving DecidableEq, Repr

class Platform where
  /-- `str::to_uppercase`. -/
  toUppercase : Str → Str
  /-- `str::to_lowercase`. -/
  toLowercase : Str → Str
  /-- `Parser::parse_sql(&MySqlDialect {}, sql)`, the error as it prints. -/
  parseSql : Str → Except Str (List Statement)
  /-- `Display` of an expression. -/
  exprToString : Expr → Str
  /-- `Display` of a query. -/
  queryToString : Query → Str
  /-- `Display` of the argument part of a call. -/
  functionArgumentsToString : FunctionArguments → Str
  /-- The body of a quoted string or identifier, with the quote escaped. -/
  escapeQuotedString : Str → Char → Str
  /-- SHA-1 digest. -/
  sha1 : List UInt8 → List UInt8
  /-- `is_x86_feature_detected!("sse4.2")`. -/
  hasSse42 : Bool
  /-- How deep a self-recursive helper can go before the stack is used up. -/
  stackDepth : Nat
  /-- `i as f64`. -/
  f64OfI64 : Int64 → F64
  /-- `f as i64`, saturating. -/
  f64ToI64 : F64 → Int64
  f64Add : F64 → F64 → F64
  f64Sub : F64 → F64 → F64
  f64Mul : F64 → F64 → F64
  f64Div : F64 → F64 → F64
  f64Rem : F64 → F64 → F64
  f64Neg : F64 → F64
  f64Abs : F64 → F64
  f64Ceil : F64 → F64
  f64Floor : F64 → F64
  f64Round : F64 → F64
  f64Trunc : F64 → F64
  f64Sqrt : F64 → F64
  f64Fract : F64 → F64
  f64Powf : F64 → F64 → F64
  /-- `f.powi(n)`, the exponent an `i32`. -/
  f64Powi : F64 → Int32 → F64
  f64Min : F64 → F64 → F64
  f64Max : F64 → F64 → F64
  /-- The value `Iterator::sum` starts from. -/
  f64SumInit : F64
  f64PartialCmp : F64 → F64 → Option Ordering
  /-- `s.parse::<f64>()`. -/
  f64Parse : Str → Option F64
  /-- `f.to_string()`. -/
  f64ToString : F64 → Str
  /-- `format!("{:.prec}", f)`. -/
  f64ToFixed : Nat → F64 → Str
  /-- `f32` to text: `format!("{}", f32::from_bits(b))`. -/
  f32ToString : UInt32 → Str

namespace Platform

variable [Platform]

def f64Zero : F64 := f64OfI64 0

/-- `a == b`. -/
def f64Eq (a b : F64) : Bool := f64PartialCmp a b == some .eq

/-- `a < b`. -/
def f64Lt (a b : F64) : Bool := f64PartialCmp a b == some .lt

def f64Sum (fs : List F64) : F64 := fs.foldl f64Add f64SumInit

end Platform

-- ---------------------------------------------------------------------------
-- Printing the parts of the syntax that are plain text
-- ---------------------------------------------------------------------------

section Display

variable [Platform]

/-- An identifier in its quotes. -/
def Ident.toString (i : Ident) : Str :=
  match i.quoteStyle with
  | none => i.value
  | some '[' => '[' :: i.value ++ [']']
  | some q => q :: Platform.escapeQuotedString i.value q ++ [q]

def ObjectName.toString (n : ObjectName) : Str := join "." (n.map Ident.toString)

def SqlValue.toString : SqlValue → Str
  | .number n long => if long then n ++ ['L'] else n
  | .singleQuotedString s => '\'' :: Platform.escapeQuotedString s '\'' ++ ['\'']
  | .doubleQuotedString s => '"' :: Platform.escapeQuotedString s '"' ++ ['"']
  | .hexStringLiteral s => "X'" ++ s ++ ['\'']
  | .boolean b => if b then "true" else "false"
  | .null => "NULL"
  | .placeholder s => s
  | .other text => text

/-- `vs.value.to_string() == "?"` of an expression that is a literal. -/
def Expr.isPlaceholder : Expr → Bool
  | .value v => v.toString == ("?" : Str)
  | _ => false

def TableFactor.toString : TableFactor → Str
  | .table name rest => ObjectName.toString name ++ rest
  | .derived q rest => '(' :: Platform.queryToString q ++ ')' :: rest
  | .other text => text

def TableObject.toString : TableObject → Str
  | .tableName name => ObjectName.toString name
  | .tableFunction text => text

def AssignmentTarget.toString : AssignmentTarget → Str
  | .columnName name => ObjectName.toString name
  | .tuple names => '(' :: join ", " (names.map ObjectName.toString) ++ [')']

def SelectItem.toString : SelectItem → Str
  | .unnamedExpr e => Platform.exprToString e
  | .exprWithAlias e a => Platform.exprToString e ++ " AS " ++ a.toString
  | .qualifiedWildcard text => text
  | .wildcard text => text

end Display

end RunAlexDb
