import RunAlexDb.Lib.Map
import RunAlexDb.Lib.Prog
import RunAlexDb.Model.Platform

/-!
# Types — values, tables, users and the engine state

The record types of the engine and the small functions on values: display,
conversion, comparison, the key of a row.
-/

namespace RunAlexDb

open Text

/-- How a computation ends when it does not return: a panic takes its thread
down, an exhausted stack the process. -/
inductive Fault
  | panic
  | stackOverflow
deriving DecidableEq, Repr

/-- A computation without state that may panic. -/
abbrev Rust (α : Type) := Except Fault α

/-- `Option::unwrap`, slicing and the like: `none` panics. -/
def orPanic {α : Type} : Option α → Rust α
  | some a => .ok a
  | none => .error .panic

inductive Value
  | null
  | int (i : Int64)
  | float (f : F64)
  | text (s : Str)
  | bytes (b : List UInt8)
deriving DecidableEq, Repr

inductive ColumnType
  | int | bigInt | float
  | varChar (n : UInt16)
  | text | blob | timestamp
deriving DecidableEq, Repr

structure Column where
  name : Str
  colType : ColumnType
  nullable : Bool
  primaryKey : Bool
deriving DecidableEq, Repr

abbrev Row := List Value

structure Table where
  name : Str
  schema : Str
  columns : List Column
  rows : List Row
  /-- Index of the PRIMARY KEY column, if any. -/
  pkColIdx : Option Nat
  /-- Maps the key of a row to its index in `rows`. -/
  pkIndex : HashMap Str Nat
  /-- `some v` for an integer column: its values, for the scans. -/
  colIntData : List (Option (List Int64))
  /-- `some v` for a text column: its values, for the scans. -/
  colStrData : List (Option (List Str))
  nextAuto : Int64
deriving DecidableEq

structure Database where
  name : Str
  tables : HashMap Str Table
deriving DecidableEq

structure DbUser where
  passwordSha1Sha1 : List UInt8
  /-- `none`: all databases. -/
  allowedDbs : Option (HashSet Str)
  canWrite : Bool
  isRoot : Bool
deriving DecidableEq

/-- The engine, with the statement cache of its process. -/
structure Engine where
  databases : HashMap Str Database
  users : HashMap Str DbUser
  writeGen : UInt64
  lastInsertId : UInt64
  /-- `STMT_CACHE`: parsed statements by hash of their text. -/
  stmtCache : HashMap UInt64 (List Statement)

inductive QueryResult
  | ok (affected lastInsertId : UInt64)
  | err (code : Nat) (message : Str)
  | rows (columns : List Str) (rows : List (List (Option Str)))
  | valueRows (columns : List Str) (rows : List (List Value))
deriving DecidableEq, Repr

def QueryResult.isOk : QueryResult → Bool
  | .ok .. => true
  | _ => false

def QueryResult.isErr : QueryResult → Bool
  | .err .. => true
  | _ => false

/-- An operation on the engine. -/
abbrev EngineM (α : Type) := Prog Engine Fault α

/-- An operation on one table. -/
abbrev TableM (α : Type) := Prog Table Fault α

-- ---------------------------------------------------------------------------
-- Values
-- ---------------------------------------------------------------------------

section Values

variable [Platform]

open Platform

def Value.isNull : Value → Bool
  | .null => true
  | _ => false

def Value.asStr : Value → Option Str
  | .text s => some s
  | _ => none

def Value.toDisplay : Value → Option Str
  | .null => none
  | .int i => some (i64ToString i)
  | .float f => some (f64ToString f)
  | .text s => some s
  | .bytes b => some (hexEncode b)

def Value.intoText : Value → Option Str
  | .text s => some s
  | .int i => some (i64ToString i)
  | .float f => some (f64ToString f)
  | _ => none

def Value.intoInt : Value → Option Int64
  | .int i => some i
  | .float f => some (f64ToI64 f)
  | .text s => parseI64 (trim s)
  | _ => none

def cmpInt64 (a b : Int64) : Ordering := if a < b then .lt else if b < a then .gt else .eq

def valuesCmp (a b : Value) : Ordering :=
  match a, b with
  | .int x, .int y => cmpInt64 x y
  | .float x, .float y => (f64PartialCmp x y).getD .eq
  | .int x, .float y => (f64PartialCmp (f64OfI64 x) y).getD .eq
  | .float x, .int y => (f64PartialCmp x (f64OfI64 y)).getD .eq
  | .text x, .text y => cmpStr x y
  | .null, .null => .eq
  | .null, _ => .lt
  | _, .null => .gt
  | a, b => cmpStr (a.toDisplay.getD []) (b.toDisplay.getD [])

def valuesEq (a b : Value) : Bool :=
  match a, b with
  | .null, _ => false
  | _, .null => false
  | a, b => valuesCmp a b == .eq

/-- `b as i64` of a condition, as a value. -/
def Value.ofBool (b : Bool) : Value := .int (if b then 1 else 0)

/-- LIKE: `%` any sequence, `_` one character, letters without case. -/
def likeMatch : Str → Str → Bool
  | v, [] => v.isEmpty
  | v, '%' :: p => v.tails.any fun v' => likeMatch v' p
  | v, '_' :: p =>
    match v with
    | [] => false
    | _ :: v => likeMatch v p
  | v, c :: p =>
    match v with
    | [] => false
    | x :: v => toLowercase [c] == toLowercase [x] && likeMatch v p

-- ---------------------------------------------------------------------------
-- Literals, types, keys
-- ---------------------------------------------------------------------------

/-- A number as the engine reads it: integer, else float, else its text. -/
def numberToValue (n : Str) : Value :=
  match parseI64 n with
  | some i => .int i
  | none =>
    match f64Parse n with
    | some f => .float f
    | none => .text n

def exprToValue : Expr → Value
  | .value (.number n _) => numberToValue n
  | .value (.singleQuotedString s) => .text s
  | .value .null => .null
  | .value v => .text v.toString
  | e => .text (exprToString e)

def valueFromSqlparser : SqlValue → Value
  | .number n _ => numberToValue n
  | .singleQuotedString s => .text s
  | .doubleQuotedString s => .text s
  | _ => .null

def sqlTypeToColType : DataType → ColumnType
  | .int | .integer | .smallInt | .tinyInt => .int
  | .bigInt => .bigInt
  | .float | .real | .double | .doublePrecision => .float
  | .varchar (some (.integerLength length)) => .varChar (UInt16.ofNat length)
  | .varchar (some .max) => .varChar 255
  | .varchar none | .text | .mediumText | .longText => .text
  | .blob | .binary | .varbinary => .blob
  | .timestamp | .datetime => .timestamp
  | _ => .text

def ColumnType.isInt : ColumnType → Bool
  | .int | .bigInt => true
  | _ => false

def ColumnType.isStr : ColumnType → Bool
  | .text | .varChar _ => true
  | _ => false

/-- The key of a row in `pkIndex`. -/
def rowPkKey (row : Row) (pkColIdx : Nat) : Str :=
  match row[pkColIdx]? with
  | some (.int n) => i64ToString n
  | some (.text s) => s
  | some v => v.toDisplay.getD []
  | none => []

/-- The key a bound parameter stands for. -/
def valueToPkStr : Value → Str
  | .int n => i64ToString n
  | .float f => f64ToString f
  | .text s => s
  | .null => []
  | .bytes _ => []

/-- What an integer store holds for a cell. -/
def intImage : Option Value → Int64
  | some (.int n) => n
  | _ => 0

/-- What a text store holds for a cell. -/
def strImage : Option Value → Str
  | some (.text s) => s
  | _ => []

/-- `cols.iter().position(|c| c.name.eq_ignore_ascii_case(name))`. -/
def columnPosition (cols : List Column) (name : Str) : Option Nat :=
  cols.findIdx? fun c => eqIgnoreAsciiCase c.name name

/-- Turn a displayed cell back into a row of texts: `v.to_display()` for each. -/
def displayRow (row : Row) : List (Option Str) := row.map Value.toDisplay

/-- Database and table a name resolves to: `db.table` is cut at its first dot,
backticks around the parts dropped; a plain name belongs to `dbName`. -/
def resolveName (dbName raw : Str) : Str × Str :=
  match splitOnce '.' raw with
  | some (db, table) => (trimMatches '`' db, trimMatches '`' table)
  | none => (dbName, trimMatches '`' raw)

end Values

end RunAlexDb
