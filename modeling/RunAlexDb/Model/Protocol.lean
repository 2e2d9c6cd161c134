import RunAlexDb.Model.Types

/-!
# Protocol — MySQL packets

Framing, commands, the parameters of a prepared statement and the encoding of
results, byte for byte.
-/

namespace RunAlexDb

open Text Platform

abbrev Bytes := List UInt8

-- ---------------------------------------------------------------------------
-- Numbers
-- ---------------------------------------------------------------------------

/-- Little-endian value of bytes. -/
def leNat (b : Bytes) : Nat := b.foldr (fun x acc => x.toNat + 256 * acc) 0

/-- The `n` low bytes of a number, little end first. -/
def toLe : Nat → Nat → Bytes
  | 0, _ => []
  | n + 1, v => UInt8.ofNat v :: toLe n (v / 256)

@[simp] theorem leNat_nil : leNat [] = 0 := rfl

@[simp] theorem leNat_cons (x : UInt8) (b : Bytes) : leNat (x :: b) = x.toNat + 256 * leNat b := rfl

theorem leNat_toLe (n v : Nat) : leNat (toLe n v) = v % 256 ^ n := by
  induction n generalizing v with
  | zero => simp [toLe, Nat.mod_one]
  | succ n ih =>
    rw [toLe, leNat_cons, ih, Nat.pow_succ', Nat.mod_mul, UInt8.toNat_ofNat']

-- ---------------------------------------------------------------------------
-- Packet framing
-- ---------------------------------------------------------------------------

/-- One packet off the front of the buffer: payload, sequence number, rest.
`none` while it is incomplete. -/
def decodePacket (buf : Bytes) : Option (Bytes × UInt8 × Bytes) :=
  match buf with
  | b0 :: b1 :: b2 :: seq :: rest =>
    let len := leNat [b0, b1, b2]
    if rest.length < len then none else some (rest.take len, seq, rest.drop len)
  | _ => none

def encodePacket (payload : Bytes) (seq : UInt8) : Bytes :=
  toLe 3 payload.length ++ seq :: payload

/-- A packet on the wire, whatever follows it, is read back. -/
theorem decodePacket_encodePacket {payload : Bytes} (hLen : payload.length < 2 ^ 24) (seq : UInt8)
    (rest : Bytes) :
    decodePacket (encodePacket payload seq ++ rest) = some (payload, seq, rest) := by
  have hLe : leNat (toLe 3 payload.length) = payload.length := by
    rw [leNat_toLe]
    exact Nat.mod_eq_of_lt hLen
  have hShape : ∃ b0 b1 b2, toLe 3 payload.length = [b0, b1, b2] := ⟨_, _, _, rfl⟩
  obtain ⟨b0, b1, b2, hBytes⟩ := hShape
  rw [hBytes] at hLe
  simp [encodePacket, decodePacket, hBytes, hLe]

-- ---------------------------------------------------------------------------
-- Commands
-- ---------------------------------------------------------------------------

inductive Command
  | query (sql : Str)
  | ping
  | quit
  | initDb (name : Str)
  | fieldList (name : Str)
  | stmtPrepare (sql : Str)
  | stmtExecute (id : Nat)
  | stmtClose (id : Nat)
  | stmtReset (id : Nat)
  | unknown (c : UInt8)
deriving DecidableEq, Repr

/-- A command with a statement id, unknown when the id is cut short. -/
def idCommand (c : UInt8) (body : Bytes) (mk : Nat → Command) : Command :=
  if 4 ≤ body.length then mk (leNat (body.take 4)) else .unknown c

def parseCommand (payload : Bytes) : Command :=
  match payload with
  | [] => .unknown 0
  | c :: body =>
    if c = 0x01 then .quit
    else if c = 0x02 then .initDb (fromUtf8Lossy body)
    else if c = 0x03 then .query (fromUtf8Lossy body)
    else if c = 0x04 then .fieldList (fromUtf8Lossy body)
    else if c = 0x0e then .ping
    else if c = 0x16 then .stmtPrepare (fromUtf8Lossy body)
    else if c = 0x17 then idCommand c body .stmtExecute
    else if c = 0x19 then idCommand c body .stmtClose
    else if c = 0x1a then idCommand c body .stmtReset
    else .unknown c

-- ---------------------------------------------------------------------------
-- Response packets
-- ---------------------------------------------------------------------------

def putLenenc (v : Nat) : Bytes :=
  if v < 251 then [UInt8.ofNat v]
  else if v < 65536 then 0xfc :: toLe 2 v
  else if v < 16777216 then 0xfd :: toLe 3 v
  else 0xfe :: toLe 8 v

def putLenencStr (s : Str) : Bytes := putLenenc (byteLen s) ++ bytes s

def okPacket (affected lastInsertId : UInt64) : Bytes :=
  0x00 :: putLenenc affected.toNat ++ putLenenc lastInsertId.toNat ++ [2, 0, 0, 0]

def errPacket (code : Nat) (msg : Str) : Bytes :=
  0xff :: toLe 2 code ++ bytes "#HY000" ++ bytes msg

def eofPacket : Bytes := [0xfe, 0, 0, 2, 0]

def columnDef (schema table name : Str) (colType : UInt8) (flags : Nat) : Bytes :=
  putLenencStr "def" ++ putLenencStr schema ++ putLenencStr table ++ putLenencStr table ++
    putLenencStr name ++ putLenencStr name ++
    [0x0c, 0x21, 0, 255, 0, 0, 0, colType] ++ toLe 2 flags ++ [0, 0, 0]

def stmtPrepareOk (stmtId numParams numColumns : Nat) : Bytes :=
  0x00 :: toLe 4 stmtId ++ toLe 2 numColumns ++ toLe 2 numParams ++ [0, 0, 0]

-- ---------------------------------------------------------------------------
-- Parameters of COM_STMT_EXECUTE
-- ---------------------------------------------------------------------------

section Params

variable [Platform]

/-- Byte `i`, 0 past the end. -/
def byteAt (b : Bytes) (i : Nat) : Nat := (b.getD i 0).toNat

/-- A length-encoded text at `pos`: the text and the position after it. -/
def readLenencBytesAsStr (payload : Bytes) (pos : Nat) : Str × Nat :=
  if payload.length ≤ pos then ([], pos)
  else
    let c := byteAt payload pos
    let body (len inc : Nat) : Str × Nat :=
      if payload.length < pos + inc + len then ([], pos + inc)
      else (fromUtf8Lossy ((payload.drop (pos + inc)).take len), pos + inc + len)
    if c = 0xfb then ([], pos + 1)
    else if c = 0xfc then
      if payload.length ≤ pos + 2 then ([], pos)
      else body (leNat ((payload.drop (pos + 1)).take 2)) 3
    else if c = 0xfd then
      if payload.length ≤ pos + 3 then ([], pos)
      else body (leNat ((payload.drop (pos + 1)).take 3)) 4
    else body c 1

def dateText (payload : Bytes) (pos : Nat) : Str :=
  padZero 4 (leNat ((payload.drop pos).take 2)) ++ "-" ++ padZero 2 (byteAt payload (pos + 2)) ++
    "-" ++ padZero 2 (byteAt payload (pos + 3))

def readBinaryDate (payload : Bytes) (pos : Nat) : Str × Nat :=
  if payload.length ≤ pos then ("0000-00-00", pos)
  else
    let len := byteAt payload pos
    if len < 4 ∨ payload.length < pos + 1 + 4 then ("0000-00-00", pos + 1 + len)
    else (dateText payload (pos + 1), pos + 1 + len)

def readBinaryDatetime (payload : Bytes) (pos : Nat) : Str × Nat :=
  if payload.length ≤ pos then ("0000-00-00 00:00:00", pos)
  else
    let len := byteAt payload pos
    if len < 4 ∨ payload.length < pos + 1 + len then ("0000-00-00 00:00:00", pos + 1 + len)
    else
      let field (i : Nat) : Str := padZero 2 (if 7 ≤ len then byteAt payload (pos + 1 + i) else 0)
      (dateText payload (pos + 1) ++ " " ++ field 4 ++ ":" ++ field 5 ++ ":" ++ field 6, pos + 1 + len)

/-- A signed integer of `n` bytes. -/
def signedLe (n : Nat) (b : Bytes) : Int :=
  let v := leNat (b.take n)
  if 2 ^ (8 * n - 1) ≤ v then (v : Int) - 2 ^ (8 * n) else v

/-- A fixed-width value of `n` bytes; the position stays when it is cut short. -/
def readFixed (payload : Bytes) (pos n : Nat) (show_ : Bytes → Str) : Str × Nat :=
  if payload.length < pos + n then ([], pos)
  else (show_ ((payload.drop pos).take n), pos + n)

def intText (i : Int) : Str := if i < 0 then '-' :: natToString i.natAbs else natToString i.natAbs

def readBinaryParam (payload : Bytes) (pos typeByte : Nat) : Str × Nat :=
  if payload.length ≤ pos then ([], pos)
  else if typeByte = 0x01 then readFixed payload pos 1 fun b => intText (signedLe 1 b)
  else if typeByte = 0x02 ∨ typeByte = 0x82 then
    readFixed payload pos 2 fun b => intText (signedLe 2 b)
  else if typeByte = 0x03 ∨ typeByte = 0x09 then
    readFixed payload pos 4 fun b => intText (signedLe 4 b)
  else if typeByte = 0x04 then
    readFixed payload pos 4 fun b => f32ToString (UInt32.ofNat (leNat b))
  else if typeByte = 0x05 then
    readFixed payload pos 8 fun b => f64ToString ⟨UInt64.ofNat (leNat b)⟩
  else if typeByte = 0x08 then readFixed payload pos 8 fun b => intText (signedLe 8 b)
  else if typeByte = 0x0a ∨ typeByte = 0x0e then readBinaryDate payload pos
  else if typeByte = 0x07 ∨ typeByte = 0x0b ∨ typeByte = 0x0c then readBinaryDatetime payload pos
  else readLenencBytesAsStr payload pos

/-- The parameters from number `i` on. -/
def readParams (payload nullBitmap : Bytes) (typeOf : Nat → Nat) :
    Nat → Nat → Nat → List (Option Str)
  | 0, _, _ => []
  | n + 1, i, pos =>
    if byteAt nullBitmap (i / 8) / 2 ^ (i % 8) % 2 = 1 then
      none :: readParams payload nullBitmap typeOf n (i + 1) pos
    else
      let (s, next) := readBinaryParam payload pos (typeOf i)
      some s :: readParams payload nullBitmap typeOf n (i + 1) next

/-- Binary parameter values; `none` is SQL NULL. -/
def parseExecuteParams (payload : Bytes) (numParams : Nat) : List (Option Str) :=
  let n := numParams
  let bitmapLen := (n + 7) / 8
  if n = 0 ∨ payload.length < 10 then []
  else if payload.length < 10 + bitmapLen then List.replicate n none
  else
    let nullBitmap := (payload.drop 10).take bitmapLen
    let pos := 10 + bitmapLen
    let newBound := byteAt payload pos
    let pos := pos + 1
    if newBound = 1 ∧ pos + n * 2 ≤ payload.length then
      readParams payload nullBitmap (fun i => byteAt payload (pos + 2 * i)) n 0 (pos + 2 * n)
    else readParams payload nullBitmap (fun _ => 0xfd) n 0 pos

end Params

-- ---------------------------------------------------------------------------
-- Results
-- ---------------------------------------------------------------------------

section Results

variable [Platform]

def writeEof (seq : UInt8) : Bytes := [0x05, 0, 0, seq, 0xfe, 0, 0, 2, 0]

def writeColDef (name : Str) (colType seq : UInt8) : Bytes :=
  encodePacket (columnDef [] [] name colType 0) seq

def textRow (row : List (Option Str)) : Bytes :=
  row.flatMap fun v => v.elim [0xfb] putLenencStr

def binaryRow (row : List (Option Str)) : Bytes :=
  let len := (row.length + 7 + 2) / 8
  let bit (i : Nat) : Nat := if row[i]? = some none then 2 ^ ((i + 2) % 8) else 0
  let byte (k : Nat) : UInt8 :=
    UInt8.ofNat (((List.range row.length).filter fun i => (i + 2) / 8 = k).map bit).sum
  0x00 :: (List.range len).map byte ++ row.flatMap fun v => v.elim [] putLenencStr

def valueText : Value → Bytes
  | .null => [0xfb]
  | .int n => UInt8.ofNat (byteLen (i64ToString n)) :: bytes (i64ToString n)
  | .float f => putLenencStr (f64ToString f)
  | .text s => putLenencStr s
  | .bytes b => putLenencStr (hexEncode b)

/-- Packets with consecutive sequence numbers from `seq`. -/
def numbered {α : Type} (write : α → UInt8 → Bytes) (seq : UInt8) (xs : List α) : Bytes :=
  xs.zipIdx.flatMap fun (x, i) => write x (seq + UInt8.ofNat i)

/-- Column count, definitions, EOF, rows, EOF. -/
def resultSet {ρ : Type} (columns : List Str) (rows : List ρ) (row : ρ → Bytes) (seq : UInt8) : Bytes :=
  let afterCols := seq + 1 + UInt8.ofNat columns.length
  encodePacket [UInt8.ofNat columns.length] seq ++
    numbered (fun c s => writeColDef c 0xfd s) (seq + 1) columns ++
    writeEof afterCols ++
    numbered (fun r s => encodePacket (row r) s) (afterCols + 1) rows ++
    writeEof (afterCols + 1 + UInt8.ofNat rows.length)

/-- `build_result_into`. -/
def buildResult (result : QueryResult) (seq : UInt8) : Bytes :=
  match result with
  | .ok affected lastInsertId => encodePacket (okPacket affected lastInsertId) seq
  | .err code message => encodePacket (errPacket code message) seq
  | .rows columns rows => resultSet columns rows textRow seq
  | .valueRows columns rows => resultSet columns rows (fun r => r.flatMap valueText) seq

/-- `build_binary_result_into`: stored values still go out as text. -/
def buildBinaryResult (result : QueryResult) (seq : UInt8) : Bytes :=
  match result with
  | .rows columns rows => resultSet columns rows binaryRow seq
  | other => buildResult other seq

end Results

end RunAlexDb
