import RunAlexDb.Model.Functions

/-!
# Eval — expressions on a row

`evalRowExpr` gives an expression its value on a row, `evalWhere` decides a
condition. They recurse over the syntax tree together.
-/

namespace RunAlexDb

open Text Platform

variable [Platform]

-- ---------------------------------------------------------------------------
-- Operators on values
-- ---------------------------------------------------------------------------

def floatArith (op : BinaryOperator) (a b : F64) : Value :=
  match op with
  | .plus => .float (f64Add a b)
  | .minus => .float (f64Sub a b)
  | .multiply => .float (f64Mul a b)
  | .divide => if f64Eq b f64Zero then .null else .float (f64Div a b)
  | .modulo => .float (f64Rem a b)
  | _ => .null

/-- `+ - * / %` on two values. -/
def arith (op : BinaryOperator) (l r : Value) : Rust Value :=
  match l, r with
  | .int a, .int b =>
    match op with
    | .plus => pure (.int (a + b))
    | .minus => pure (.int (a - b))
    | .multiply => pure (.int (a * b))
    | .divide => if b ≠ 0 then (checkedDiv a b).map .int else pure .null
    | .modulo => if b ≠ 0 then (checkedRem a b).map .int else pure .null
    | _ => pure .null
  | .float a, .float b => pure (floatArith op a b)
  | .int a, .float b => pure (floatArith op (f64OfI64 a) b)
  | .float a, .int b => pure (floatArith op a (f64OfI64 b))
  | .text a, .text b => pure (if op = .plus then .text (a ++ b) else .null)
  | _, _ => pure .null

/-- `DIV`. -/
def integerDivide (l r : Value) : Rust Value :=
  match l, r with
  | .int a, .int b => if b ≠ 0 then (checkedDiv a b).map .int else pure .null
  | .float a, .int b => if b ≠ 0 then (checkedDiv (f64ToI64 a) b).map .int else pure .null
  | .int a, .float b => if f64Eq b f64Zero then pure .null else (checkedDiv a (f64ToI64 b)).map .int
  | _, _ => pure .null

def bitwise (f : Int64 → Int64 → Int64) (l r : Value) : Value :=
  match l, r with
  | .int a, .int b => .int (f a b)
  | _, _ => .null

def shift (f : Int64 → Int64 → Int64) (l r : Value) : Value :=
  match l, r with
  | .int a, .int b => if 0 ≤ b ∧ b < 64 then .int (f a b) else .null
  | _, _ => .null

/-- What counts as true for AND and OR inside an expression. -/
def truthy : Value → Bool
  | .int n => n != 0
  | .text s => !s.isEmpty && s != ("0" : Str)
  | _ => false

/-- What counts as true for XOR. -/
def truthyInt : Value → Bool
  | .int n => n != 0
  | _ => false

/-- The six comparisons; `none` for any other operator. -/
def compareOp (op : BinaryOperator) (l r : Value) : Option Bool :=
  match op with
  | .eq => some (valuesEq l r)
  | .notEq => some (!valuesEq l r)
  | .gt => some (valuesCmp l r == .gt)
  | .gtEq => some (valuesCmp l r != .lt)
  | .lt => some (valuesCmp l r == .lt)
  | .ltEq => some (valuesCmp l r != .gt)
  | _ => none

/-- A binary operator on evaluated operands. -/
def applyBinary (op : BinaryOperator) (l r : Value) : Rust Value :=
  match op with
  | .myIntegerDivide => integerDivide l r
  | .bitwiseOr => pure (bitwise (· ||| ·) l r)
  | .bitwiseAnd => pure (bitwise (· &&& ·) l r)
  | .bitwiseXor => pure (bitwise (· ^^^ ·) l r)
  | .pgBitwiseShiftLeft => pure (shift (· <<< ·) l r)
  | .pgBitwiseShiftRight => pure (shift (· >>> ·) l r)
  | .stringConcat => pure (.text (l.intoText.getD [] ++ r.intoText.getD []))
  | .plus | .minus | .multiply | .divide | .modulo => arith op l r
  | .and => pure (.ofBool (truthy l && truthy r))
  | .or => pure (.ofBool (truthy l || truthy r))
  | .xor => pure (.ofBool (truthyInt l != truthyInt r))
  | op => pure (((compareOp op l r).map Value.ofBool).getD .null)

/-- Operators the evaluator does not know give null without their operands
being evaluated. -/
def BinaryOperator.known : BinaryOperator → Bool
  | .other _ => false
  | _ => true

def applyUnary (op : UnaryOperator) (v : Value) : Value :=
  match op with
  | .minus =>
    match v with
    | .int i => .int (-i)
    | .float f => .float (f64Neg f)
    | _ => .null
  | .plus => v
  | _ => .null

def inRange (v lo hi : Value) : Bool := valuesCmp v lo != .lt && valuesCmp v hi != .gt

-- ---------------------------------------------------------------------------
-- CAST and CONVERT
-- ---------------------------------------------------------------------------

def castInt : Value → Value
  | .int i => .int i
  | .float f => .int (f64ToI64 f)
  | .text s => (parseI64 (trim s)).elim .null .int
  | _ => .null

def castUnsigned : Value → Value
  | .int i => .int (wrappingAbs i)
  | .float f => .int (f64ToI64 (f64Abs f))
  | .text s => (parseI64 (trim s)).elim .null fun n => .int (wrappingAbs n)
  | _ => .null

def castText : Value → Value
  | .text s => .text s
  | .int i => .text (i64ToString i)
  | .float f => .text (f64ToString f)
  | _ => .null

def castFloat : Value → Value
  | .float f => .float f
  | .int i => .float (f64OfI64 i)
  | .text s => (f64Parse (trim s)).elim .null .float
  | _ => .null

def castDate : Value → Value
  | .text s => .text ((splitWhitespace s).headD [])
  | _ => .null

def castDatetime : Value → Value
  | .text s => .text s
  | .int n =>
    let (y, m, d) := daysToYmd (n.toUInt64.toNat / 86400)
    .text (formatDateYmd y m d ++ " " ++ padZeroInt 2 (n / 3600 % 24).toInt ++ ":" ++
      padZeroInt 2 (n / 60 % 60).toInt ++ ":" ++ padZeroInt 2 (n % 60).toInt)
  | _ => .null

def castBoolean : Value → Value
  | .int n => .ofBool (n != 0)
  | .text s => .ofBool (eqIgnoreAsciiCase s "true" || s == ("1" : Str))
  | _ => .null

/-- The conversions CONVERT knows; any other type keeps the value. -/
def convertTo (dataType : DataType) (v : Value) : Value :=
  match dataType with
  | .int | .integer | .smallInt | .tinyInt | .bigInt | .signed | .signedInteger => castInt v
  | .unsigned | .unsignedInteger => castUnsigned v
  | .varchar _ | .text | .char | .string => castText v
  | .float | .real | .double | .doublePrecision => castFloat v
  | .date => castDate v
  | _ => v

/-- The conversions CAST knows: those of CONVERT, times and booleans. -/
def castTo (dataType : DataType) (v : Value) : Value :=
  match dataType with
  | .datetime | .timestamp => castDatetime v
  | .boolean => castBoolean v
  | dataType => convertTo dataType v

-- ---------------------------------------------------------------------------
-- Functions that look at their arguments as syntax
-- ---------------------------------------------------------------------------

/-- `DATE_ADD` and `DATE_SUB` on an evaluated date and interval. -/
def dateAdd (isSub : Bool) (date : Option Str) (interval : Option (Int64 × Str)) : Value :=
  match date, interval with
  | some ds, some (n, unit) =>
    let n := if isSub then -1 * n else 1 * n
    let result := match String.ofList unit with
      | "DAY" | "DAYS" => dateAddDays ds n
      | "WEEK" | "WEEKS" => dateAddDays ds (n * 7)
      | "MONTH" | "MONTHS" => addMonths ds n
      | "YEAR" | "YEARS" => addMonths ds (n * 12)
      | "HOUR" | "HOURS" => dateAddDays ds (n / 24)
      | _ => dateAddDays ds n
    result.elim .null .text
  | _, _ => .null

/-- `TIMESTAMPDIFF` on evaluated dates. -/
def timestampDiff (unit : Str) (d1 d2 : Option Str) : Value :=
  match d1, d2 with
  | some s1, some s2 =>
    let onYmd (f : Int64 × Int64 × Int64 → Int64 × Int64 × Int64 → Int64) : Value :=
      match parseYmd s2, parseYmd s1 with
      | some b, some a => .int (f a b)
      | _, _ => .null
    let onDays (f : Int64 → Int64) : Value :=
      match parseDateStr s2, parseDateStr s1 with
      | some b, some a => .int (f (b - a))
      | _, _ => .null
    match String.ofList unit with
    | "YEAR" => onYmd fun a b => b.1 - a.1
    | "MONTH" => onYmd fun a b => (b.1 - a.1) * 12 + (b.2.1 - a.2.1)
    | "WEEK" => onDays (· / 7)
    | "HOUR" => onDays (· * 24)
    | "MINUTE" => onDays (· * 24 * 60)
    | "SECOND" => onDays (· * 86400)
    | _ => onDays id
  | _, _ => .null

/-- The unit of `TIMESTAMPDIFF`: its first argument when that is a name. -/
def timestampUnit : List FunctionArg → Str
  | .unnamed (.expr (.identifier id)) :: _ => toUppercase id.value
  | _ => "DAY"

/-- The count of an interval. -/
def intervalCount : Value → Int64
  | .int n => n
  | .text s => (parseI64 s).getD 0
  | _ => 0

-- ---------------------------------------------------------------------------
-- The evaluator
-- ---------------------------------------------------------------------------

def columnValue (row : Row) (cols : List Column) (name : Str) : Option Value :=
  (columnPosition cols name).bind fun idx => row[idx]?

/-- A name with dots: the column with the whole name, else the one with its
last part. -/
def compoundValue (row : Row) (cols : List Column) (parts : List Ident) : Value :=
  match parts.getLast? with
  | none => .null
  | some last =>
    let qualified := join "." (parts.map Ident.value)
    (((columnPosition cols qualified).or (columnPosition cols last.value)).bind
      fun idx => row[idx]?).getD .null

mutual

def evalRowExpr (now : Nat) (row : Row) (cols : List Column) : Expr → Rust Value
  | .value v => pure (exprToValue (.value v))
  | .identifier id => pure ((columnValue row cols id.value).getD .null)
  | .compoundIdentifier parts => pure (compoundValue row cols parts)
  | .nested inner => evalRowExpr now row cols inner
  | .unaryOp op inner => do
    let v ← evalRowExpr now row cols inner
    return applyUnary op v
  | .binaryOp left op right =>
    if op.known then do
      let l ← evalRowExpr now row cols left
      let r ← evalRowExpr now row cols right
      applyBinary op l r
    else pure .null
  | .convert inner dataType => do
    let v ← evalRowExpr now row cols inner
    return dataType.elim v fun dt => convertTo dt v
  | .cast inner dataType => do
    let v ← evalRowExpr now row cols inner
    return castTo dataType v
  | .function f => evalFunction now row cols f
  | .inList e list negated => do
    let v ← evalRowExpr now row cols e
    let found ← evalMember now row cols v list
    return .ofBool (if negated then !found else found)
  | .isNull e => do
    let v ← evalRowExpr now row cols e
    return .ofBool v.isNull
  | .isNotNull e => do
    let v ← evalRowExpr now row cols e
    return .ofBool !v.isNull
  | .between e negated low high => do
    let v ← evalRowExpr now row cols e
    let lo ← evalRowExpr now row cols low
    let hi ← evalRowExpr now row cols high
    return .ofBool (if negated then !inRange v lo hi else inRange v lo hi)
  | .like negated e pattern => do
    let v ← evalRowExpr now row cols e
    let p ← evalRowExpr now row cols pattern
    let matched := match v.intoText, p.intoText with
      | some vs, some ps => likeMatch vs ps
      | _, _ => false
    return .ofBool (if negated then !matched else matched)
  | .iLike negated e pattern => do
    let v ← evalRowExpr now row cols e
    let p ← evalRowExpr now row cols pattern
    let matched := match v.intoText, p.intoText with
      | some vs, some ps => likeMatch (toLowercase vs) (toLowercase ps)
      | _, _ => false
    return .ofBool (if negated then !matched else matched)
  | .case operand conditions elseResult => do
    let base ← evalOption now row cols operand
    match ← evalWhens now row cols base conditions with
    | some v => return v
    | none => return (← evalOption now row cols elseResult).getD .null
  | _ => pure .null

def evalOption (now : Nat) (row : Row) (cols : List Column) : Option Expr → Rust (Option Value)
  | none => pure none
  | some e => do return some (← evalRowExpr now row cols e)

/-- The value of the first WHEN that matches. -/
def evalWhens (now : Nat) (row : Row) (cols : List Column) (base : Option Value) :
    List CaseWhen → Rust (Option Value)
  | [] => pure none
  | .mk condition result :: rest => do
    let matched ← match base with
      | some b => (evalRowExpr now row cols condition).map (valuesEq b)
      | none => evalWhere now row cols condition
    if matched then return some (← evalRowExpr now row cols result)
    else evalWhens now row cols base rest

/-- `list.iter().any(..)`: evaluation stops at the first item equal to `v`. -/
def evalMember (now : Nat) (row : Row) (cols : List Column) (v : Value) : List Expr → Rust Bool
  | [] => pure false
  | item :: rest => do
    if valuesEq v (← evalRowExpr now row cols item) then return true
    else evalMember now row cols v rest

def evalFunction (now : Nat) (row : Row) (cols : List Column) : Function → Rust Value
  | .mk name (.list (.mk _ args _)) _ => do
    let fname := toUppercase (ObjectName.toString name)
    match String.ofList fname with
    | "DATE_ADD" | "ADDDATE" => evalDateAdd now row cols false args
    | "DATE_SUB" | "SUBDATE" => evalDateAdd now row cols true args
    | "TIMESTAMPDIFF" =>
      let (d1, d2) ← evalDates now row cols args
      return timestampDiff (timestampUnit args) d1 d2
    | _ => callFunction now fname (← evalArgs now row cols args)
  | .mk name _ _ =>
    let fname := toUppercase (ObjectName.toString name)
    match String.ofList fname with
    | "DATE_ADD" | "ADDDATE" | "DATE_SUB" | "SUBDATE" | "TIMESTAMPDIFF" => pure .null
    | _ => callFunction now fname []

def evalArgs (now : Nat) (row : Row) (cols : List Column) : List FunctionArg → Rust (List Value)
  | [] => pure []
  | a :: rest => do
    let v ← evalArg now row cols a
    return v :: (← evalArgs now row cols rest)

def evalArg (now : Nat) (row : Row) (cols : List Column) : FunctionArg → Rust Value
  | .unnamed (.expr e) => evalRowExpr now row cols e
  | .named _ (.expr e) => evalRowExpr now row cols e
  | .exprNamed _ (.expr e) => evalRowExpr now row cols e
  | _ => pure .null

/-- The text of a positional argument. -/
def evalText (now : Nat) (row : Row) (cols : List Column) : FunctionArg → Rust (Option Str)
  | .unnamed (.expr e) => do return (← evalRowExpr now row cols e).intoText
  | _ => pure none

/-- The texts of the second and third argument. -/
def evalDates (now : Nat) (row : Row) (cols : List Column) :
    List FunctionArg → Rust (Option Str × Option Str)
  | _ :: d1 :: d2 :: _ => do
    let d1 ← evalText now row cols d1
    return (d1, ← evalText now row cols d2)
  | [_, d1] => do return (← evalText now row cols d1, none)
  | _ => pure (none, none)

/-- Count and unit of a positional argument that is an interval. -/
def evalInterval (now : Nat) (row : Row) (cols : List Column) :
    FunctionArg → Rust (Option (Int64 × Str))
  | .unnamed (.expr (.interval value leadingField)) => do
    let n := intervalCount (← evalRowExpr now row cols value)
    return some (n, leadingField.elim ("DAY" : Str) toUppercase)
  | _ => pure none

def evalDateAdd (now : Nat) (row : Row) (cols : List Column) (isSub : Bool) :
    List FunctionArg → Rust Value
  | date :: interval :: _ => do
    let date ← evalText now row cols date
    let interval ← evalInterval now row cols interval
    return dateAdd isSub date interval
  | _ => pure .null

def evalWhere (now : Nat) (row : Row) (cols : List Column) : Expr → Rust Bool
  | .binaryOp left .and right => do
    if ← evalWhere now row cols left then evalWhere now row cols right else return false
  | .binaryOp left .or right => do
    if ← evalWhere now row cols left then return true else evalWhere now row cols right
  | .binaryOp left op right => do
    let l ← evalRowExpr now row cols left
    let r ← evalRowExpr now row cols right
    return (compareOp op l r).getD true
  | .isNull e => do return (← evalRowExpr now row cols e).isNull
  | .isNotNull e => do return !(← evalRowExpr now row cols e).isNull
  | .like negated e pattern => do
    let v ← evalRowExpr now row cols e
    let p ← evalRowExpr now row cols pattern
    match v.asStr, p.asStr with
    | some v, some p => return if negated then !likeMatch v p else likeMatch v p
    | _, _ => return false
  | .nested e => evalWhere now row cols e
  | .unaryOp .not e => do return !(← evalWhere now row cols e)
  | .between e negated low high => do
    let v ← evalRowExpr now row cols e
    let lo ← evalRowExpr now row cols low
    let hi ← evalRowExpr now row cols high
    return if negated then !inRange v lo hi else inRange v lo hi
  | .inList e list negated => do
    let v ← evalRowExpr now row cols e
    let found ← evalMember now row cols v list
    return if negated then !found else found
  | _ => pure true

end

end RunAlexDb
