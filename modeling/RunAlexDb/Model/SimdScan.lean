import RunAlexDb.Model.Types

/-!
# SimdScan — query hashes and column scans

The hash that keys the statement cache and the result cache, and the scans of
the column stores.
-/

namespace RunAlexDb

open Text

-- ---------------------------------------------------------------------------
-- hash_query
-- ---------------------------------------------------------------------------

/-- `_mm_crc32_u64`: CRC-32C of a 64-bit word, bits reflected. -/
def mmCrc32U64 (crc word : UInt64) : UInt64 :=
  step 64 (word ^^^ (crc &&& 0xFFFFFFFF))
where
  step : Nat → UInt64 → UInt64
    | 0, acc => acc
    | n + 1, acc => step n (if acc &&& 1 = 1 then (acc >>> 1) ^^^ 0x82F63B78 else acc >>> 1)

/-- `u64::from_le_bytes`. -/
def u64OfLe (b : List UInt8) : UInt64 := b.foldr (fun x acc => (acc <<< 8) ||| x.toUInt64) 0

/-- Eight bytes an instruction, then the rest a byte at a time. -/
def crc32Sse42 (data : List UInt8) : UInt64 :=
  ~~~(tail (words (data.length / 8) data 0xFFFFFFFFFFFFFFFF))
where
  words : Nat → List UInt8 → UInt64 → List UInt8 × UInt64
    | 0, data, crc => (data, crc)
    | n + 1, data, crc => words n (data.drop 8) (mmCrc32U64 crc (u64OfLe (data.take 8)))
  tail (s : List UInt8 × UInt64) : UInt64 :=
    s.1.foldl (fun crc b => mmCrc32U64 crc b.toUInt64) s.2

def fnv1a (data : List UInt8) : UInt64 :=
  data.foldl (fun h b => (h ^^^ b.toUInt64) * 0x100000001b3) 0xcbf29ce484222325

/-- `hash_query(sql.as_bytes())`. -/
def hashQuery [Platform] (sql : Str) : UInt64 :=
  if Platform.hasSse42 then crc32Sse42 (bytes sql) else fnv1a (bytes sql)

-- ---------------------------------------------------------------------------
-- Scans
-- ---------------------------------------------------------------------------

/-- Indices, in order, of the elements that satisfy `p`. -/
def scanWhere {α : Type} (p : α → Bool) (data : List α) : List Nat :=
  (data.zipIdx.filter fun x => p x.1).map Prod.snd

def scanEqI64 (data : List Int64) (target : Int64) : List Nat := scanWhere (· == target) data

def scanGtI64 (data : List Int64) (target : Int64) : List Nat := scanWhere (target < ·) data

def scanLtI64 (data : List Int64) (target : Int64) : List Nat := scanWhere (· < target) data

def scanEqStr (data : List Str) (target : Str) : List Nat := scanWhere (· == target) data

-- ---------------------------------------------------------------------------
-- Conditions the fast paths recognise
-- ---------------------------------------------------------------------------

def Expr.isColumn : Expr → Bool
  | .identifier _ => true
  | .compoundIdentifier _ => true
  | _ => false

/-- The column an expression names, by its last part. -/
def Expr.columnName? : Expr → Option Str
  | .identifier id => some id.value
  | .compoundIdentifier parts => parts.getLast?.map Ident.value
  | _ => none

/-- The sides of `column = x` or `x = column`, the column side first. -/
def eqSides : Expr → Option (Expr × Expr)
  | .binaryOp left .eq right => if left.isColumn then some (left, right) else some (right, left)
  | _ => none

/-- `WHERE pk = literal`: the literal as a key. -/
def extractPkEq (pkColName : Str) (expr : Expr) : Option Str := do
  let (col, val) ← eqSides expr
  let name ← col.columnName?
  if !eqIgnoreAsciiCase name pkColName then none
  else
    match val with
    | .value (.number n _) => some n
    | .value (.singleQuotedString s) => some s
    | _ => none

/-- `WHERE pk = ?`: the parameter taken, which is the one at `paramOffset`. -/
def extractPkEqParam [Platform] (pkColName : Str) (expr : Expr) (paramOffset : Nat) : Option Nat := do
  let (col, val) ← eqSides expr
  let name ← col.columnName?
  if !eqIgnoreAsciiCase name pkColName then none
  else if val.isPlaceholder then some paramOffset
  else none

/-- The rows a scan of a column store finds for `column op literal`; `none`
when no store serves the condition. -/
def trySimdScan (table : Table) : Expr → Option (List Nat)
  | .binaryOp left op right => do
    let name ← left.columnName?
    let colIdx ← columnPosition table.columns name
    match table.colIntData[colIdx]? with
    | some (some store) =>
      let target ← match right with
        | .value (.number n _) => parseI64 n
        | _ => none
      match op with
      | .eq => some (scanEqI64 store target)
      | .gt => some (scanGtI64 store target)
      | .lt => some (scanLtI64 store target)
      | _ => none
    | _ =>
      match op, table.colStrData[colIdx]?, right with
      | .eq, some (some store), .value (.singleQuotedString s) => some (scanEqStr store s)
      | _, _, _ => none
  | _ => none

end RunAlexDb
