import RunAlexDb.Model.Protocol

/-!
# Wire — buffers that packets are written into and taken out of

`decode_packet` on its buffer, the writers that append to a buffer and fill the
header in afterwards, and the two ways a result is sent: packet by packet
(`send_result`) and as one block (`build_result_into`).
-/

namespace RunAlexDb

open Text Platform

-- ---------------------------------------------------------------------------
-- decode_packet
-- ---------------------------------------------------------------------------

/-- `decode_packet` with the buffer it leaves. -/
def decodePacketIn (buf : Bytes) : Option (Bytes × UInt8) × Bytes :=
  if buf.length < 4 then (none, buf)
  else
    let len := leNat (buf.take 3)
    if buf.length < 4 + len then (none, buf)
    else
      -- `advance(3)`, the sequence number, `advance(1)`, `split_to(len)`
      let seq := (buf.drop 3).headD 0
      let buf := (buf.drop 3).drop 1
      (some (buf.take len, seq), buf.drop len)

-- ---------------------------------------------------------------------------
-- Writers
-- ---------------------------------------------------------------------------

section Writers

variable [Platform]

/-- The 4-byte header of the packet that begins at `hdrPos`, once it is written. -/
def fillHeader (out : Bytes) (hdrPos : Nat) (seq : UInt8) : Bytes :=
  let pl := out.length - hdrPos - 4
  (((out.set hdrPos (UInt8.ofNat pl)).set (hdrPos + 1) (UInt8.ofNat (pl / 2 ^ 8))).set
    (hdrPos + 2) (UInt8.ofNat (pl / 2 ^ 16))).set (hdrPos + 3) seq

def writePacketInto (out payload : Bytes) (seq : UInt8) : Bytes :=
  let len := payload.length % 2 ^ 32
  out ++ [UInt8.ofNat len] ++ [UInt8.ofNat (len / 2 ^ 8)] ++ [UInt8.ofNat (len / 2 ^ 16)] ++ [seq] ++
    payload

def writeEofInto (out : Bytes) (seq : UInt8) : Bytes :=
  out ++ [0x05, 0x00, 0x00, seq, 0xfe, 0x00, 0x00, 0x02, 0x00]

def writeColDefInto (out : Bytes) (name : Str) (colType seq : UInt8) : Bytes :=
  let hdrPos := out.length
  let out := out ++ List.replicate 4 0
  let out := out ++ putLenencStr "def"
  let out := out ++ putLenencStr ""
  let out := out ++ putLenencStr ""
  let out := out ++ putLenencStr ""
  let out := out ++ putLenencStr name
  let out := out ++ putLenencStr name
  let out := out ++ [0x0c]
  let out := out ++ toLe 2 0x21
  let out := out ++ toLe 4 255
  let out := out ++ [colType]
  let out := out ++ toLe 2 0
  let out := out ++ [0]
  let out := out ++ toLe 2 0
  fillHeader out hdrPos seq

def writeTextRowInto (out : Bytes) (row : List (Option Str)) (seq : UInt8) : Bytes :=
  let hdrPos := out.length
  let out := out ++ List.replicate 4 0
  let out := row.foldl
    (fun out v =>
      match v with
      | none => out ++ [0xfb]
      | some s => out ++ putLenenc (byteLen s) ++ bytes s) out
  fillHeader out hdrPos seq

/-- The loop that sets bit `i + 2` for each NULL. -/
def nullBitmap (row : List (Option Str)) : Bytes :=
  let len := (row.length + 7 + 2) / 8
  row.zipIdx.foldl
    (fun bitmap v =>
      match v with
      | (none, i) => bitmap.modify ((i + 2) / 8) fun b => b ||| UInt8.ofNat (1 <<< ((i + 2) % 8))
      | (some _, _) => bitmap)
    (List.replicate len 0)

def writeBinaryRowInto (out : Bytes) (row : List (Option Str)) (seq : UInt8) : Bytes :=
  let bitmap := nullBitmap row
  let hdrPos := out.length
  let out := out ++ List.replicate 4 0
  let out := out ++ [0x00]
  let out := out ++ bitmap
  let out := row.foldl
    (fun out v =>
      match v with
      | none => out
      | some s => out ++ putLenenc (byteLen s) ++ bytes s) out
  fillHeader out hdrPos seq

/-- The digits go into the buffer behind a length byte, which is filled in
afterwards. -/
def writeI64Digits (out : Bytes) (n : Int64) : Bytes :=
  let lenencPos := out.length
  let out := out ++ [0]
  let digits := bytes (i64ToString n)
  let out := out ++ digits
  out.set lenencPos (UInt8.ofNat digits.length)

def writeValueText (out : Bytes) : Value → Bytes
  | .null => out ++ [0xfb]
  | .int n => writeI64Digits out n
  | .float f => out ++ putLenenc (byteLen (f64ToString f)) ++ bytes (f64ToString f)
  | .text s => out ++ putLenenc (byteLen s) ++ bytes s
  | .bytes b => out ++ putLenenc (byteLen (hexEncode b)) ++ bytes (hexEncode b)

def writeValueRowInto (out : Bytes) (row : Row) (seq : UInt8) : Bytes :=
  let hdrPos := out.length
  let out := out ++ List.replicate 4 0
  let out := row.foldl writeValueText out
  fillHeader out hdrPos seq

end Writers

-- ---------------------------------------------------------------------------
-- Results
-- ---------------------------------------------------------------------------

section Results

variable [Platform]

/-- A loop over `xs` that counts the sequence number up. -/
def writeEach {ω α : Type} (write : ω → α → UInt8 → ω) (xs : List α) (out : ω) (seq : UInt8) :
    ω × UInt8 :=
  xs.foldl (fun st x => (write st.1 x st.2, st.2 + 1)) (out, seq)

/-- Column count, definitions, EOF, rows and EOF, appended to `buf`. -/
def writeResultSet {ρ : Type} (writeRow : Bytes → ρ → UInt8 → Bytes) (buf : Bytes)
    (columns : List Str) (rows : List ρ) (seq : UInt8) : Bytes :=
  let nCols := columns.length
  let buf := writePacketInto buf [UInt8.ofNat nCols] seq
  let (buf, s) := writeEach (fun buf col s => writeColDefInto buf col 0xfd s) columns buf (seq + 1)
  let buf := writeEofInto buf s
  let (buf, s) := writeEach writeRow rows buf (s + 1)
  writeEofInto buf s

def buildValueResultInto (buf : Bytes) (columns : List Str) (rows : List Row) (seq : UInt8) : Bytes :=
  writeResultSet writeValueRowInto buf columns rows seq

def buildResultInto (buf : Bytes) (result : QueryResult) (seq : UInt8) : Bytes :=
  match result with
  | .ok affected lastInsertId => writePacketInto buf (okPacket affected lastInsertId) seq
  | .err code message => writePacketInto buf (errPacket code message) seq
  | .rows columns rows => writeResultSet writeTextRowInto buf columns rows seq
  | .valueRows columns rows => buildValueResultInto buf columns rows seq

def buildBinaryResultInto (buf : Bytes) (result : QueryResult) (seq : UInt8) : Bytes :=
  match result with
  | .ok affected lastInsertId => writePacketInto buf (okPacket affected lastInsertId) seq
  | .err code message => writePacketInto buf (errPacket code message) seq
  | .rows columns rows => writeResultSet writeBinaryRowInto buf columns rows seq
  | .valueRows columns rows => buildValueResultInto buf columns rows seq

/-- `binary_row`, with the loop that sets the NULL bits. -/
def binaryRowLoop (values : List (Option Str)) : Bytes :=
  values.foldl
    (fun out v =>
      match v with
      | none => out
      | some s => out ++ putLenencStr s)
    ([0x00] ++ nullBitmap values)

/-- The packets of a result set, each written to the stream by itself. -/
def sendResultSet {ρ : Type} (row : ρ → Bytes) (columns : List Str) (rows : List ρ) (seq : UInt8) :
    List Bytes :=
  let sent := [encodePacket [UInt8.ofNat columns.length] seq]
  let (sent, seq) := writeEach
    (fun sent col seq => sent ++ [encodePacket (columnDef "" "" col 0xfd 0) seq]) columns sent (seq + 1)
  let sent := sent ++ [encodePacket eofPacket seq]
  let (sent, seq) := writeEach
    (fun sent r seq => sent ++ [encodePacket (row r) seq]) rows sent (seq + 1)
  sent ++ [encodePacket eofPacket seq]

/-- The writes of `send_result`. -/
def sendResult (result : QueryResult) (seq : UInt8) : List Bytes :=
  match result with
  | .ok affected lastInsertId => [encodePacket (okPacket affected lastInsertId) seq]
  | .err code message => [encodePacket (errPacket code message) seq]
  | .rows columns rows => sendResultSet textRow columns rows seq
  | .valueRows columns rows => [buildValueResultInto [] columns rows seq]

/-- The writes of `send_result_binary`. -/
def sendResultBinary (result : QueryResult) (seq : UInt8) : List Bytes :=
  match result with
  | .ok affected lastInsertId => [encodePacket (okPacket affected lastInsertId) seq]
  | .err code message => [encodePacket (errPacket code message) seq]
  | .rows columns rows => sendResultSet binaryRowLoop columns rows seq
  | .valueRows columns rows => [buildValueResultInto [] columns rows seq]

end Results

end RunAlexDb
