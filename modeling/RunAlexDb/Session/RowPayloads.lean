import RunAlexDb.Session.BinaryParams
import RunAlexDb.Session.ResultPackets

/-!
# RowPayloads — what a client reads out of a row

The rules of the wire for a row: in the text form 0xfb is NULL and anything else a
length-encoded string, in the binary form a bitmap tells which values are NULL and
the others are length-encoded strings. By these rules a client gets back every row
that is written.

Main results: `textRow_reads` and `binaryRow_reads`.
-/

set_option linter.unusedSectionVars false

namespace RunAlexDb

open Text Platform

-- ---------------------------------------------------------------------------
-- Length-encoded strings
-- ---------------------------------------------------------------------------

/-- A string on the heap: its length is an `isize`. -/
abbrev HeapStr := { s : Str // byteLen s < 2 ^ 63 }

/-- The first `n` bytes, and those behind them. -/
def takeBytes (n : Nat) (b : Bytes) : Option (Bytes × Bytes) :=
  if n ≤ b.length then some (b.take n, b.drop n) else none

/-- A length-encoded number. The bytes 0xfb and 0xff start none. -/
def takeLenenc : Bytes → Option (Nat × Bytes)
  | [] => none
  | c :: b =>
    if c.toNat < 0xfb then some (c.toNat, b)
    else if c = 0xfc then (takeBytes 2 b).map (Prod.map leNat id)
    else if c = 0xfd then (takeBytes 3 b).map (Prod.map leNat id)
    else if c = 0xfe then (takeBytes 8 b).map (Prod.map leNat id)
    else none

/-- A length-encoded string. -/
def takeLenencStr (b : Bytes) : Option (Str × Bytes) :=
  (takeLenenc b).bind fun x => (takeBytes x.1 x.2).map (Prod.map fromUtf8Lossy id)

theorem takeBytes_append (b rest : Bytes) : takeBytes b.length (b ++ rest) = some (b, rest) := by
  unfold takeBytes
  rw [if_pos (by rw [List.length_append]; omega), List.take_left, List.drop_left]

theorem takeBytes_toLe (n v : Nat) (rest : Bytes) : takeBytes n (toLe n v ++ rest) = some (toLe n v, rest) := by
  have hTake := takeBytes_append (toLe n v) rest
  rwa [length_toLe] at hTake

/-- A number of 64 bits is read back from any of the four forms. -/
theorem takeLenenc_putLenenc {v : Nat} (h : v < 2 ^ 64) (rest : Bytes) :
    takeLenenc (putLenenc v ++ rest) = some (v, rest) := by
  have hLe : ∀ n, v < 256 ^ n → (takeBytes n (toLe n v ++ rest)).map (Prod.map leNat id) = some (v, rest) := by
    intro n hn
    rw [takeBytes_toLe, Option.map_some, Prod.map_apply, leNat_toLe, Nat.mod_eq_of_lt hn]
    rfl
  unfold putLenenc
  by_cases hOne : v < 251
  · rw [if_pos hOne, List.singleton_append, takeLenenc, toNat_byte (by omega), if_pos hOne]
  rw [if_neg hOne]
  by_cases hTwo : v < 65536
  · rw [if_pos hTwo]
    exact hLe 2 hTwo
  rw [if_neg hTwo]
  by_cases hThree : v < 16777216
  · rw [if_pos hThree]
    exact hLe 3 hThree
  · rw [if_neg hThree]
    exact hLe 8 h

theorem takeLenencStr_putLenencStr {s : Str} (h : byteLen s < 2 ^ 64) (rest : Bytes) :
    takeLenencStr (putLenencStr s ++ rest) = some (s, rest) := by
  have hBody := takeBytes_append (bytes s) rest
  rw [length_bytes] at hBody
  unfold takeLenencStr putLenencStr
  rw [List.append_assoc, takeLenenc_putLenenc h, Option.bind_some, hBody, Option.map_some,
    Prod.map_apply, fromUtf8Lossy_bytes]
  rfl

/-- The first byte of a length below 2^24 is a length or announces two or three bytes. -/
theorem putLenenc_head {v : Nat} (h : v < 2 ^ 24) :
    ∃ c b, putLenenc v = c :: b ∧ (c.toNat < 251 ∨ c = 0xfc ∨ c = 0xfd) := by
  unfold putLenenc
  by_cases hOne : v < 251
  · rw [if_pos hOne]
    exact ⟨_, _, rfl, .inl (by rwa [toNat_byte (by omega)])⟩
  rw [if_neg hOne]
  by_cases hTwo : v < 65536
  · rw [if_pos hTwo]
    exact ⟨_, _, rfl, .inr (.inl rfl)⟩
  · rw [if_neg hTwo, if_pos (show v < 16777216 from h)]
    exact ⟨_, _, rfl, .inr (.inr rfl)⟩

-- ---------------------------------------------------------------------------
-- Text rows
-- ---------------------------------------------------------------------------

/-- A value of a text row. -/
def takeCell : Bytes → Option (Option Str × Bytes)
  | [] => none
  | c :: b =>
    if c = 0xfb then some (none, b) else (takeLenencStr (c :: b)).map (Prod.map some id)

/-- So many values of a text row. -/
def takeTextRow : Nat → Bytes → Option (List (Option Str) × Bytes)
  | 0, b => some ([], b)
  | n + 1, b =>
    (takeCell b).bind fun x => (takeTextRow n x.2).map (Prod.map (x.1 :: ·) id)

/-- The payload of the packet that a writer puts behind `out`. -/
def payloadBehind (out written : Bytes) : Bytes := written.drop (out.length + 4)

/-- A client takes the payload for an ERR packet. -/
def readsAsErr (payload : Bytes) : Prop := payload.head? = some 0xff

/-- A client takes the payload for an EOF packet. -/
def readsAsEof (payload : Bytes) : Prop := payload.head? = some 0xfe ∧ payload.length < 9

theorem payloadBehind_encodePacket (out payload : Bytes) (seq : UInt8) :
    payloadBehind out (out ++ encodePacket payload seq) = payload := by
  unfold payloadBehind encodePacket
  rw [← List.drop_drop, List.drop_left]
  rfl

/-- The bytes of a value. -/
def cellBytes (v : Option Str) : Bytes := v.elim [0xfb] putLenencStr

theorem textRow_cons (v : Option Str) (row : List (Option Str)) :
    textRow (v :: row) = cellBytes v ++ textRow row := List.flatMap_cons ..

/-- The marker of a NULL starts no length. -/
theorem takeCell_cellBytes {v : Option Str} (h : ∀ s, v = some s → byteLen s < 2 ^ 24) (rest : Bytes) :
    takeCell (cellBytes v ++ rest) = some (v, rest) := by
  rcases v with _ | s
  · rfl
  · have hShort := h s rfl
    have hStr := takeLenencStr_putLenencStr (s := s) (by omega) rest
    obtain ⟨c, b, hHead, hByte⟩ := putLenenc_head hShort
    have hNull : c ≠ 0xfb := by
      rintro rfl
      rcases hByte with hByte | hByte | hByte
      · exact absurd hByte (by decide)
      · exact absurd hByte (by decide)
      · exact absurd hByte (by decide)
    show takeCell (putLenenc (byteLen s) ++ bytes s ++ rest) = _
    unfold putLenencStr at hStr
    rw [hHead] at hStr ⊢
    rw [List.cons_append, List.cons_append] at hStr ⊢
    rw [takeCell, if_neg hNull, hStr]
    rfl

theorem length_cellBytes_some (s : Str) : byteLen s < (cellBytes (some s)).length := by
  have hBytes := length_bytes s
  have hPrefix : 0 < (putLenenc (byteLen s)).length := by
    unfold putLenenc
    split
    · exact Nat.one_pos
    · split
      · exact Nat.succ_pos _
      · split <;> exact Nat.succ_pos _
  show byteLen s < (putLenenc (byteLen s) ++ bytes s).length
  rw [List.length_append]
  omega

/-- A row that fits one packet is read back, value by value. -/
theorem takeTextRow_textRow {row : List (Option Str)} (h : (textRow row).length < 2 ^ 24) (rest : Bytes) :
    takeTextRow row.length (textRow row ++ rest) = some (row, rest) := by
  induction row with
  | nil => rfl
  | cons v row ih =>
    rw [textRow_cons, List.length_append] at h
    have hCell := takeCell_cellBytes (v := v) (fun s hs => by
      have hLong := length_cellBytes_some s
      rw [hs] at h
      omega) (textRow row ++ rest)
    rw [textRow_cons, List.length_cons, List.append_assoc, takeTextRow, hCell, Option.bind_some,
      ih (by omega)]
    rfl

/-- The first byte of a row tells it from an ERR and an EOF packet. -/
theorem textRow_head {v : Option Str} {row : List (Option Str)}
    (h : (textRow (v :: row)).length < 2 ^ 24) :
    (textRow (v :: row)).head? ≠ some 0xff ∧ (textRow (v :: row)).head? ≠ some 0xfe := by
  rw [textRow_cons] at h ⊢
  rcases v with _ | s
  · have hFirst : (cellBytes none ++ textRow row).head? = some 0xfb := rfl
    rw [hFirst]
    exact ⟨by decide, by decide⟩
  · rw [List.length_append] at h
    have hLong := length_cellBytes_some s
    obtain ⟨c, b, hHead, hByte⟩ := putLenenc_head (v := byteLen s) (by omega)
    have hFirst : (cellBytes (some s) ++ textRow row).head? = some c := by
      show (putLenenc (byteLen s) ++ bytes s ++ textRow row).head? = some c
      rw [hHead]
      rfl
    rw [hFirst]
    refine ⟨?_, ?_⟩
    · rintro hErr
      rw [Option.some.inj hErr] at hByte
      exact absurd hByte (by decide)
    · rintro hEof
      rw [Option.some.inj hEof] at hByte
      exact absurd hByte (by decide)

/-- **Text rows.** A row that fits one packet is read back from its payload, to the last
byte, and the payload is no ERR and no EOF packet. -/
theorem textRow_reads (out : Bytes) (row : List (Option Str)) (seq : UInt8) (hSome : row ≠ [])
    (hShort : (payloadBehind out (writeTextRowInto out row seq)).length < 2 ^ 24) :
    takeTextRow row.length (payloadBehind out (writeTextRowInto out row seq)) = some (row, []) ∧
      ¬ readsAsErr (payloadBehind out (writeTextRowInto out row seq)) ∧
      ¬ readsAsEof (payloadBehind out (writeTextRowInto out row seq)) := by
  rw [writeTextRowInto_eq, payloadBehind_encodePacket] at hShort ⊢
  have hRead := takeTextRow_textRow hShort []
  rw [List.append_nil] at hRead
  obtain ⟨v, cells, rfl⟩ := List.exists_cons_of_ne_nil hSome
  obtain ⟨hErr, hEof⟩ := textRow_head hShort
  exact ⟨hRead, hErr, fun h => hEof h.1⟩

/-- A NULL, an empty string and one that is not. -/
theorem textRow_reads_three :
    let row : List (Option Str) := [none, some "", some "abc"]
    takeTextRow 3 (payloadBehind [7] (writeTextRowInto [7] row 5)) = some (row, []) :=
  (textRow_reads [7] [none, some "", some "abc"] 5 (by decide) (by decide)).1

-- ---------------------------------------------------------------------------
-- Binary rows
-- ---------------------------------------------------------------------------

/-- Bit `j` of bytes, the low bit of the first byte first. -/
def bitAt (b : Bytes) (j : Nat) : Bool := (byteAt b (j / 8)).testBit (j % 8)

/-- So many values of a binary row from number `i` on: a string for each clear bit. -/
def takeBinaryCells (bitmap : Bytes) : Nat → Nat → Bytes → Option (List (Option Str) × Bytes)
  | 0, _, b => some ([], b)
  | n + 1, i, b =>
    if bitAt bitmap (i + 2) then
      (takeBinaryCells bitmap n (i + 1) b).map (Prod.map (none :: ·) id)
    else
      (takeLenencStr b).bind fun x =>
        (takeBinaryCells bitmap n (i + 1) x.2).map (Prod.map (some x.1 :: ·) id)

/-- The bits of byte `k` are those of its NULLs. -/
theorem testBit_nullBits (row : List (Option Str)) {k m : Nat} (hm : m < 8) :
    (nullBits row k).testBit m = true ↔ ∃ i, 8 * k + m = i + 2 ∧ row[i]? = some none := by
  induction row using List.reverseRecOn with
  | nil =>
    have hZero : nullBits [] k = 0 := rfl
    rw [hZero, Nat.zero_testBit]
    exact ⟨fun h => (nomatch h), fun ⟨i, _, hi⟩ => (nomatch hi)⟩
  | append_singleton row v ih =>
    -- a bit of the row before it, or the bit of the last value
    have hSplit : (∃ i, 8 * k + m = i + 2 ∧ (row ++ [v])[i]? = some none) ↔
        (8 * k + m = row.length + 2 ∧ v = none) ∨ ∃ i, 8 * k + m = i + 2 ∧ row[i]? = some none := by
      constructor
      · rintro ⟨i, hBit, hi⟩
        rcases Nat.lt_trichotomy i row.length with hLt | rfl | hGt
        · rw [List.getElem?_append_left hLt] at hi
          exact .inr ⟨i, hBit, hi⟩
        · rw [List.getElem?_concat_length] at hi
          exact .inl ⟨hBit, Option.some.inj hi⟩
        · rw [List.getElem?_eq_none (by rw [List.length_append, List.length_singleton]; omega)] at hi
          cases hi
      · rintro (⟨hBit, rfl⟩ | ⟨i, hBit, hi⟩)
        · exact ⟨row.length, hBit, List.getElem?_concat_length⟩
        · exact ⟨i, hBit, by rw [List.getElem?_append_left (List.getElem?_eq_some_iff.1 hi).1, hi]⟩
    rw [hSplit, ← ih, nullBits_append]
    by_cases hHere : (row.length + 2) / 8 = k ∧ v = none
    · have hLow := nullBits_lt row k
      rw [show row.length + 2 - 8 * k = (row.length + 2) % 8 by omega] at hLow
      have hOr := Nat.two_pow_add_eq_or_of_lt hLow 1
      rw [Nat.mul_one] at hOr
      rw [if_pos hHere, Nat.add_comm, hOr, Nat.testBit_or, Nat.testBit_two_pow, Bool.or_eq_true,
        decide_eq_true_iff]
      refine or_congr_left ⟨fun hBit => ⟨by omega, hHere.2⟩, fun hBit => by omega⟩
    · rw [if_neg hHere, Nat.add_zero]
      exact ⟨.inr, fun h => h.resolve_left fun hBit => hHere ⟨by omega, hBit.2⟩⟩

/-- The NULL bitmap of a row. -/
def rowBitmap (row : List (Option Str)) : Bytes :=
  (List.range ((row.length + 7 + 2) / 8)).map fun k => UInt8.ofNat (nullBits row k)

/-- The bits of the bitmap are those of the NULLs, moved by two, and no others. -/
theorem bitAt_rowBitmap (row : List (Option Str)) (j : Nat) :
    bitAt (rowBitmap row) j = true ↔ ∃ i, j = i + 2 ∧ row[i]? = some none := by
  have hDiv := Nat.div_add_mod j 8
  have hBit := testBit_nullBits row (k := j / 8) (Nat.mod_lt j (show 0 < 8 by omega))
  rw [hDiv] at hBit
  rw [← hBit]
  unfold bitAt
  by_cases hInside : j / 8 < (row.length + 7 + 2) / 8
  · have hByte : byteAt (rowBitmap row) (j / 8) = nullBits row (j / 8) % 2 ^ 8 := by
      unfold byteAt rowBitmap
      rw [List.getD_eq_getElem?_getD, List.getElem?_map, List.getElem?_range hInside]
      exact UInt8.toNat_ofNat'
    rw [hByte, Nat.testBit_mod_two_pow, Bool.and_eq_true, decide_eq_true_iff]
    exact and_iff_right (Nat.mod_lt j (by omega))
  · have hByte : byteAt (rowBitmap row) (j / 8) = 0 := by
      unfold byteAt rowBitmap
      rw [List.getD_eq_getElem?_getD,
        List.getElem?_eq_none (by rw [List.length_map, List.length_range]; omega)]
      rfl
    rw [hByte, Nat.zero_testBit, hBit]
    refine ⟨fun h => (nomatch h), fun ⟨i, hi, hNull⟩ => ?_⟩
    have hLt := (List.getElem?_eq_some_iff.1 hNull).1
    omega

/-- A string for each value that is not NULL. -/
def rowCells (row : List (Option Str)) : Bytes := row.flatMap fun v => v.elim [] putLenencStr

/-- The values from number `i` on are read back from their strings. -/
theorem takeBinaryCells_rowCells {bitmap : Bytes} {row : List (Option Str)} {i : Nat}
    (hShort : ∀ s, some s ∈ row → byteLen s < 2 ^ 64)
    (hBits : ∀ j v, row[j]? = some v → (bitAt bitmap (i + j + 2) = true ↔ v = none)) (rest : Bytes) :
    takeBinaryCells bitmap row.length i (rowCells row ++ rest) = some (row, rest) := by
  induction row generalizing i with
  | nil => rfl
  | cons v row ih =>
    have hRest := ih (i := i + 1) (fun s hs => hShort s (List.mem_cons_of_mem v hs)) fun j w hj => by
      have hBit := hBits (j + 1) w hj
      rwa [show i + (j + 1) = i + 1 + j by omega] at hBit
    have hFirst := hBits 0 v rfl
    rw [List.length_cons, takeBinaryCells]
    rcases v with _ | s
    · rw [if_pos (hFirst.2 rfl)]
      show (takeBinaryCells bitmap row.length (i + 1) (rowCells row ++ rest)).map _ = _
      rw [hRest]
      rfl
    · have hStr := takeLenencStr_putLenencStr (hShort s (List.mem_cons_self ..)) (rowCells row ++ rest)
      have hClear : ¬ bitAt bitmap (i + 2) = true := fun hSet => nomatch hFirst.1 hSet
      rw [if_neg hClear]
      show (takeLenencStr (putLenencStr s ++ rowCells row ++ rest)).bind _ = _
      rw [List.append_assoc, hStr, Option.bind_some, hRest]
      rfl

theorem payload_writeBinaryRowInto (out : Bytes) (row : List (Option Str)) (seq : UInt8) :
    payloadBehind out (writeBinaryRowInto out row seq) = 0x00 :: (rowBitmap row ++ rowCells row) := by
  rw [writeBinaryRowInto_eq, payloadBehind_encodePacket, binaryRowLoop_eq]
  rfl

/-- **Binary rows.** The payload of a row is 0x00, a bitmap whose bits are those of the
NULLs, moved by two, and a string for each clear bit; the row is read back from it to the
last byte. -/
theorem binaryRow_reads (out : Bytes) (row : List (Option HeapStr)) (seq : UInt8) :
    let values : List (Option Str) := row.map (Option.map Subtype.val)
    ∃ bitmap cells, payloadBehind out (writeBinaryRowInto out values seq) = 0x00 :: (bitmap ++ cells) ∧
      bitmap.length = (values.length + 9) / 8 ∧
      (∀ j, bitAt bitmap j = true ↔ ∃ i, j = i + 2 ∧ values[i]? = some none) ∧
      takeBinaryCells bitmap values.length 0 cells = some (values, []) := by
  intro values
  have hShort : ∀ s, some s ∈ values → byteLen s < 2 ^ 64 := by
    intro s hs
    obtain ⟨v, -, hv⟩ := List.mem_map.1 hs
    obtain ⟨t, -, rfl⟩ := Option.map_eq_some_iff.1 hv
    have hLength := t.2
    omega
  have hBits : ∀ j v, values[j]? = some v → (bitAt (rowBitmap values) (0 + j + 2) = true ↔ v = none) := by
    intro j v hj
    rw [bitAt_rowBitmap, Nat.zero_add]
    constructor
    · rintro ⟨k, hk, hNull⟩
      obtain rfl : j = k := by omega
      rw [hj] at hNull
      exact Option.some.inj hNull
    · rintro rfl
      exact ⟨j, rfl, hj⟩
  have hRead := takeBinaryCells_rowCells hShort hBits []
  rw [List.append_nil] at hRead
  refine ⟨rowBitmap values, rowCells values, payload_writeBinaryRowInto out values seq, ?_,
    bitAt_rowBitmap values, hRead⟩
  unfold rowBitmap
  rw [List.length_map, List.length_range]

end RunAlexDb
