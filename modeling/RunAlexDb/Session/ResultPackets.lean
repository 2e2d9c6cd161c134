import RunAlexDb.Lib.Utf8
import RunAlexDb.Session.PacketStream

/-!
# ResultPackets — the bytes of a result

The writers that append to one buffer and fill each header in afterwards give
the bytes of the packets that `send_result` writes one by one; stored values go
out as the texts they are displayed as.

Main results: `buildResultInto_sendResult` and `valueRows_as_displayed`.
-/

set_option linter.unusedSectionVars false

namespace RunAlexDb

open Text Platform

-- ---------------------------------------------------------------------------
-- Headers filled in afterwards
-- ---------------------------------------------------------------------------

theorem toLe_three (v : Nat) :
    toLe 3 v = [UInt8.ofNat v, UInt8.ofNat (v / 2 ^ 8), UInt8.ofNat (v / 2 ^ 16)] := by
  have hTwice : v / 256 / 256 = v / 2 ^ 16 := by omega
  unfold toLe toLe toLe toLe
  rw [hTwice]
  rfl

theorem set_append (out tail : Bytes) (i : Nat) (b : UInt8) :
    (out ++ tail).set (out.length + i) b = out ++ tail.set i b := by
  rw [List.set_append_right _ _ (Nat.le_add_right ..), Nat.add_sub_cancel_left]

/-- The placeholder becomes the header of the packet behind it. -/
theorem fillHeader_eq (out payload : Bytes) (seq : UInt8) :
    fillHeader (out ++ (List.replicate 4 0 ++ payload)) out.length seq =
      out ++ encodePacket payload seq := by
  have hSize : (out ++ (List.replicate 4 0 ++ payload)).length - out.length - 4 = payload.length := by
    simp only [List.length_append, List.length_replicate]
    omega
  have hFirst := set_append out (List.replicate 4 0 ++ payload) 0 (UInt8.ofNat payload.length)
  unfold fillHeader
  simp only [hSize]
  rw [Nat.add_zero] at hFirst
  rw [hFirst, set_append, set_append, set_append]
  unfold encodePacket
  rw [toLe_three]
  rfl

/-- What a client finds behind an in-place writer: the buffer as it was, and one
packet. -/
theorem fillHeader_of_eq {out written payload : Bytes} (seq : UInt8)
    (h : written = out ++ (List.replicate 4 0 ++ payload)) :
    fillHeader written out.length seq = out ++ encodePacket payload seq := by
  rw [h]
  exact fillHeader_eq out payload seq

theorem writePacketInto_eq (out payload : Bytes) (seq : UInt8) :
    writePacketInto out payload seq = out ++ encodePacket payload seq := by
  have hLow : ∀ k, k ≤ 16 → UInt8.ofNat (payload.length % 2 ^ 32 / 2 ^ k) =
      UInt8.ofNat (payload.length / 2 ^ k) := by
    intro k hk
    have hPow : (2 : Nat) ^ 32 = 2 ^ k * (2 ^ (24 - k) * 2 ^ 8) := by
      rw [← Nat.pow_add, ← Nat.pow_add]
      congr 1
      omega
    apply UInt8.toNat_inj.1
    rw [UInt8.toNat_ofNat', UInt8.toNat_ofNat', hPow, Nat.mod_mul_right_div_self,
      Nat.mod_mul_left_mod]
  have hZero := hLow 0 (by omega)
  rw [Nat.pow_zero, Nat.div_one, Nat.div_one] at hZero
  unfold writePacketInto encodePacket
  simp only []
  rw [toLe_three, hZero, hLow 8 (by omega), hLow 16 (by omega)]
  simp only [List.append_assoc, List.cons_append, List.nil_append]

theorem writeEofInto_eq (out : Bytes) (seq : UInt8) :
    writeEofInto out seq = out ++ encodePacket eofPacket seq := rfl

-- ---------------------------------------------------------------------------
-- Rows and definitions
-- ---------------------------------------------------------------------------

/-- A loop that appends. -/
theorem foldl_append {α : Type} {step : Bytes → α → Bytes} (image : α → Bytes)
    (hStep : ∀ out x, step out x = out ++ image x) (xs : List α) (out : Bytes) :
    xs.foldl step out = out ++ xs.flatMap image := by
  induction xs generalizing out with
  | nil => rw [List.foldl_nil, List.flatMap_nil, List.append_nil]
  | cons x xs ih => rw [List.foldl_cons, ih, hStep, List.flatMap_cons, List.append_assoc]

theorem writeColDefInto_eq (out : Bytes) (name : Str) (colType seq : UInt8) :
    writeColDefInto out name colType seq =
      out ++ encodePacket (columnDef "" "" name colType 0) seq := by
  unfold writeColDefInto columnDef
  refine fillHeader_of_eq seq ?_
  simp only [List.append_assoc]
  rfl

theorem writeTextRowInto_eq (out : Bytes) (row : List (Option Str)) (seq : UInt8) :
    writeTextRowInto out row seq = out ++ encodePacket (textRow row) seq := by
  unfold writeTextRowInto textRow
  refine fillHeader_of_eq seq ?_
  rw [foldl_append (fun v : Option Str => v.elim [0xfb] putLenencStr), List.append_assoc]
  rintro out (_ | s)
  · rfl
  · exact List.append_assoc ..

theorem writeBinaryRowInto_eq (out : Bytes) (row : List (Option Str)) (seq : UInt8) :
    writeBinaryRowInto out row seq = out ++ encodePacket (binaryRowLoop row) seq := by
  unfold writeBinaryRowInto binaryRowLoop
  have hCells : ∀ (step : Bytes → Option Str → Bytes),
      (∀ out v, step out v = out ++ v.elim [] putLenencStr) → ∀ start,
        row.foldl step start = start ++ row.flatMap fun v => v.elim [] putLenencStr :=
    fun _ hStep start => foldl_append _ hStep row start
  refine fillHeader_of_eq seq ?_
  rw [hCells, hCells]
  · simp only [List.append_assoc]
  · rintro out (_ | s)
    · exact (List.append_nil out).symm
    · rfl
  · rintro out (_ | s)
    · exact (List.append_nil out).symm
    · exact List.append_assoc ..

/-- The value of the NULL bits of byte `k`. -/
def nullBits (row : List (Option Str)) (k : Nat) : Nat :=
  (((List.range row.length).filter fun i => (i + 2) / 8 = k).map fun i =>
    if row[i]? = some none then 2 ^ ((i + 2) % 8) else 0).sum

theorem nullBits_append (row : List (Option Str)) (v : Option Str) (k : Nat) :
    nullBits (row ++ [v]) k =
      nullBits row k + if (row.length + 2) / 8 = k ∧ v = none then 2 ^ ((row.length + 2) % 8) else 0 := by
  have hBefore : ((List.range row.length).filter fun i => (i + 2) / 8 = k).map
      (fun i => if (row ++ [v])[i]? = some none then 2 ^ ((i + 2) % 8) else 0) =
      ((List.range row.length).filter fun i => (i + 2) / 8 = k).map
        fun i => if row[i]? = some none then 2 ^ ((i + 2) % 8) else 0 := by
    refine List.map_congr_left fun i hi => ?_
    have hInside := List.mem_range.1 (List.mem_of_mem_filter hi)
    rw [List.getElem?_append_left hInside]
  unfold nullBits
  rw [List.length_append, List.length_singleton, List.range_succ, List.filter_append, List.map_append,
    List.sum_append, hBefore]
  congr 1
  by_cases hByte : (row.length + 2) / 8 = k
  · rw [List.filter_cons_of_pos (by simpa using hByte)]
    by_cases hNull : v = none
    · simp [hByte, hNull]
    · simp [hByte, hNull]
  · rw [List.filter_cons_of_neg (by simpa using hByte), if_neg (fun h => hByte h.1)]
    rfl

/-- Only bits below those still to come are set. -/
theorem nullBits_lt (row : List (Option Str)) (k : Nat) :
    nullBits row k < 2 ^ (row.length + 2 - 8 * k) := by
  induction row using List.reverseRecOn with
  | nil => exact Nat.pow_pos (by omega)
  | append_singleton row v ih =>
    rw [nullBits_append, List.length_append, List.length_singleton]
    by_cases hHere : (row.length + 2) / 8 = k ∧ v = none
    · have hBit : (row.length + 2) % 8 = row.length + 2 - 8 * k := by omega
      have hNext : row.length + 1 + 2 - 8 * k = row.length + 2 - 8 * k + 1 := by omega
      rw [if_pos hHere, hBit, hNext, Nat.pow_succ]
      omega
    · have hPow := Nat.pow_le_pow_right (show 0 < 2 by omega)
        (show row.length + 2 - 8 * k ≤ row.length + 1 + 2 - 8 * k by omega)
      rw [if_neg hHere]
      omega

/-- Setting a bit above all that are set adds it. -/
theorem or_bit {a b : Nat} (hLow : a < 2 ^ b) (hByte : b < 8) :
    UInt8.ofNat a ||| UInt8.ofNat (1 <<< b) = UInt8.ofNat (a + 2 ^ b) := by
  have hOr := Nat.two_pow_add_eq_or_of_lt hLow 1
  have hPow := Nat.pow_le_pow_right (show 0 < 2 by omega) (show b + 1 ≤ 8 by omega)
  rw [Nat.pow_succ] at hPow
  apply UInt8.toNat_inj.1
  rw [UInt8.toNat_or, Nat.one_shiftLeft, toNat_byte (by omega), toNat_byte (by omega),
    toNat_byte (by omega), Nat.or_comm]
  rw [Nat.mul_one] at hOr
  rw [← hOr, Nat.add_comm]

/-- After the rows before it the loop has set these bits. -/
theorem nullBitmap_loop (row : List (Option Str)) (len : Nat) :
    row.zipIdx.foldl
      (fun bitmap v =>
        match v with
        | (none, i) => bitmap.modify ((i + 2) / 8) fun b => b ||| UInt8.ofNat (1 <<< ((i + 2) % 8))
        | (some _, _) => bitmap)
      (List.replicate len 0) =
      (List.range len).map fun k => UInt8.ofNat (nullBits row k) := by
  induction row using List.reverseRecOn with
  | nil =>
    refine List.ext_getElem (by simp) fun i h h' => ?_
    rw [List.getElem_map]
    exact List.getElem_replicate ..
  | append_singleton row v ih =>
    rw [List.zipIdx_append, List.foldl_append, ih, List.zipIdx_singleton, List.foldl_cons,
      List.foldl_nil]
    have hSame : ∀ k, ¬ ((row.length + 2) / 8 = k ∧ v = none) →
        nullBits (row ++ [v]) k = nullBits row k := by
      intro k hOther
      rw [nullBits_append, if_neg hOther, Nat.add_zero]
    rcases v with _ | s
    · refine List.ext_getElem (by simp) fun k h h' => ?_
      simp only [List.getElem_modify, List.getElem_map, List.getElem_range, Nat.zero_add]
      by_cases hHere : (row.length + 2) / 8 = k
      · have hLow := nullBits_lt row k
        rw [show row.length + 2 - 8 * k = (row.length + 2) % 8 by omega] at hLow
        rw [if_pos hHere, or_bit hLow (Nat.mod_lt _ (by omega)), nullBits_append,
          if_pos ⟨hHere, rfl⟩]
      · rw [if_neg hHere, hSame k fun hBoth => hHere hBoth.1]
    · refine List.map_congr_left fun k _ => ?_
      rw [hSame k fun hBoth => absurd hBoth.2 (Option.some_ne_none s)]

/-- The loop over the NULLs computes the row's bytes. -/
theorem binaryRowLoop_eq (row : List (Option Str)) : binaryRowLoop row = binaryRow row := by
  unfold binaryRowLoop
  rw [foldl_append (fun v : Option Str => v.elim [] putLenencStr)]
  · exact congrArg (fun bitmap => [0x00] ++ bitmap ++ row.flatMap fun v => v.elim [] putLenencStr)
      (nullBitmap_loop row ((row.length + 7 + 2) / 8))
  · rintro out (_ | s)
    · exact (List.append_nil out).symm
    · rfl

-- ---------------------------------------------------------------------------
-- Loops that number packets
-- ---------------------------------------------------------------------------

theorem numbered_nil {α : Type} (write : α → UInt8 → Bytes) (seq : UInt8) :
    numbered write seq [] = [] := rfl

theorem numbered_cons {α : Type} (write : α → UInt8 → Bytes) (seq : UInt8) (x : α) (xs : List α) :
    numbered write seq (x :: xs) = write x seq ++ numbered write (seq + 1) xs := by
  have hNext : ∀ i : Nat, seq + UInt8.ofNat (i + 1) = seq + 1 + UInt8.ofNat i := by
    intro i
    rw [UInt8.ofNat_add, UInt8.add_comm (UInt8.ofNat i), ← UInt8.add_assoc]
    rfl
  unfold numbered
  rw [List.zipIdx_cons, List.flatMap_cons, Nat.zero_add, List.zipIdx_succ, List.flatMap_map]
  simp only [hNext]
  rw [show UInt8.ofNat 0 = 0 from rfl, UInt8.add_zero]

theorem numbered_map {α β : Type} (write : β → UInt8 → Bytes) (f : α → β) (seq : UInt8) (xs : List α) :
    numbered write seq (xs.map f) = numbered (fun x s => write (f x) s) seq xs := by
  induction xs generalizing seq with
  | nil => rfl
  | cons x xs ih => rw [List.map_cons, numbered_cons, numbered_cons, ih]

theorem add_ofNat_length {α : Type} (seq : UInt8) (x : α) (xs : List α) :
    seq + 1 + UInt8.ofNat xs.length = seq + UInt8.ofNat (x :: xs).length := by
  rw [List.length_cons, UInt8.ofNat_add, UInt8.add_comm (UInt8.ofNat xs.length), ← UInt8.add_assoc]
  rfl

theorem numbered_append {α : Type} (write : α → UInt8 → Bytes) (seq : UInt8) (xs ys : List α) :
    numbered write seq (xs ++ ys) =
      numbered write seq xs ++ numbered write (seq + UInt8.ofNat xs.length) ys := by
  induction xs generalizing seq with
  | nil =>
    rw [List.length_nil, show UInt8.ofNat 0 = 0 from rfl, UInt8.add_zero]
    rfl
  | cons x xs ih =>
    rw [List.cons_append, numbered_cons, numbered_cons, ih, List.append_assoc, add_ofNat_length]

/-- A loop of in-place writers appends what they append. -/
theorem writeEach_into {α : Type} {write : Bytes → α → UInt8 → Bytes} {image : α → UInt8 → Bytes}
    (hWrite : ∀ out x s, write out x s = out ++ image x s) (xs : List α) (out : Bytes) (seq : UInt8) :
    writeEach write xs out seq = (out ++ numbered image seq xs, seq + UInt8.ofNat xs.length) := by
  unfold writeEach
  induction xs generalizing out seq with
  | nil =>
    rw [List.foldl_nil, numbered_nil, List.append_nil, List.length_nil, show UInt8.ofNat 0 = 0 from rfl,
      UInt8.add_zero]
  | cons x xs ih => rw [List.foldl_cons, ih, hWrite, numbered_cons, List.append_assoc, add_ofNat_length]

/-- A loop of writes to the stream sends the same bytes. -/
theorem writeEach_sent {α : Type} (image : α → UInt8 → Bytes) (xs : List α) (sent : List Bytes)
    (seq : UInt8) :
    (writeEach (fun sent x s => sent ++ [image x s]) xs sent seq).1.flatten =
        sent.flatten ++ numbered image seq xs ∧
      (writeEach (fun sent x s => sent ++ [image x s]) xs sent seq).2 = seq + UInt8.ofNat xs.length := by
  unfold writeEach
  induction xs generalizing sent seq with
  | nil =>
    rw [List.foldl_nil, numbered_nil, List.append_nil, List.length_nil, show UInt8.ofNat 0 = 0 from rfl,
      UInt8.add_zero]
    exact ⟨rfl, rfl⟩
  | cons x xs ih =>
    obtain ⟨hBytes, hSeq⟩ := ih (sent ++ [image x seq]) (seq + 1)
    rw [List.foldl_cons]
    refine ⟨?_, ?_⟩
    · rw [hBytes, List.flatten_append, List.flatten_singleton, numbered_cons, List.append_assoc]
    · rw [hSeq, add_ofNat_length]

-- ---------------------------------------------------------------------------
-- Whole results
-- ---------------------------------------------------------------------------

variable [Platform]

theorem writeResultSet_eq {ρ : Type} {writeRow : Bytes → ρ → UInt8 → Bytes} {row : ρ → Bytes}
    (hRow : ∀ out r s, writeRow out r s = out ++ encodePacket (row r) s) (buf : Bytes)
    (columns : List Str) (rows : List ρ) (seq : UInt8) :
    writeResultSet writeRow buf columns rows seq = buf ++ resultSet columns rows row seq := by
  have hDefs : ∀ out s, writeEach (fun buf col s => writeColDefInto buf col 0xfd s) columns out s =
      (out ++ numbered (fun c s => writeColDef c 0xfd s) s columns,
        s + UInt8.ofNat columns.length) :=
    fun out s => writeEach_into (fun out c s => writeColDefInto_eq out c 0xfd s) columns out s
  unfold writeResultSet resultSet
  simp only [hDefs, writeEach_into hRow, writePacketInto_eq, writeEofInto_eq, List.append_assoc]
  rfl

theorem sendResultSet_eq {ρ : Type} (row : ρ → Bytes) (columns : List Str) (rows : List ρ)
    (seq : UInt8) :
    (sendResultSet row columns rows seq).flatten = resultSet columns rows row seq := by
  unfold sendResultSet resultSet
  obtain ⟨hDefs, hAfter⟩ := writeEach_sent (fun col s => encodePacket (columnDef "" "" col 0xfd 0) s)
    columns [encodePacket [UInt8.ofNat columns.length] seq] (seq + 1)
  simp only []
  rw [hAfter]
  generalize hSent : (writeEach (fun sent col s => sent ++ [encodePacket (columnDef "" "" col 0xfd 0) s])
    columns [encodePacket [UInt8.ofNat columns.length] seq] (seq + 1)).1 = sent
  rw [hSent] at hDefs
  obtain ⟨hRows, hEnd⟩ := writeEach_sent (fun r s => encodePacket (row r) s) rows
    (sent ++ [encodePacket eofPacket (seq + 1 + UInt8.ofNat columns.length)])
    (seq + 1 + UInt8.ofNat columns.length + 1)
  rw [hEnd, List.flatten_append, hRows, List.flatten_append, hDefs]
  simp only [List.flatten_singleton, List.append_assoc]
  rfl

theorem writeI64Digits_eq (out : Bytes) (n : Int64) :
    writeI64Digits out n = out ++ valueText (.int n) := by
  have hSet := set_append out (0 :: bytes (i64ToString n)) 0 (UInt8.ofNat (byteLen (i64ToString n)))
  unfold writeI64Digits
  simp only [length_bytes]
  rw [Nat.add_zero] at hSet
  rw [List.append_assoc, List.singleton_append, hSet]
  rfl

theorem writeValueText_eq (out : Bytes) (v : Value) : writeValueText out v = out ++ valueText v := by
  unfold writeValueText
  rcases v with _ | n | f | s | b
  · rfl
  · exact writeI64Digits_eq out n
  · exact List.append_assoc ..
  · exact List.append_assoc ..
  · exact List.append_assoc ..

theorem writeValueRowInto_eq (out : Bytes) (row : Row) (seq : UInt8) :
    writeValueRowInto out row seq = out ++ encodePacket (row.flatMap valueText) seq := by
  unfold writeValueRowInto
  refine fillHeader_of_eq seq ?_
  rw [foldl_append _ writeValueText_eq, List.append_assoc]

theorem buildValueResultInto_eq (buf : Bytes) (columns : List Str) (rows : List Row) (seq : UInt8) :
    buildValueResultInto buf columns rows seq = buf ++ buildResult (.valueRows columns rows) seq :=
  writeResultSet_eq writeValueRowInto_eq buf columns rows seq

/-- What the session sends in answer to a query. -/
theorem buildResultInto_eq (buf : Bytes) (result : QueryResult) (seq : UInt8) :
    buildResultInto buf result seq = buf ++ buildResult result seq := by
  unfold buildResultInto
  rcases result with ⟨affected, lastInsertId⟩ | ⟨code, message⟩ | ⟨columns, rows⟩ | ⟨columns, rows⟩
  · exact writePacketInto_eq ..
  · exact writePacketInto_eq ..
  · exact writeResultSet_eq writeTextRowInto_eq buf columns rows seq
  · exact buildValueResultInto_eq buf columns rows seq

/-- What the session sends in answer to a prepared statement. -/
theorem buildBinaryResultInto_eq (buf : Bytes) (result : QueryResult) (seq : UInt8) :
    buildBinaryResultInto buf result seq = buf ++ buildBinaryResult result seq := by
  have hRow : ∀ out r s, writeBinaryRowInto out r s = out ++ encodePacket (binaryRow r) s := by
    intro out r s
    rw [writeBinaryRowInto_eq, binaryRowLoop_eq]
  unfold buildBinaryResultInto
  rcases result with ⟨affected, lastInsertId⟩ | ⟨code, message⟩ | ⟨columns, rows⟩ | ⟨columns, rows⟩
  · exact writePacketInto_eq ..
  · exact writePacketInto_eq ..
  · exact writeResultSet_eq hRow buf columns rows seq
  · exact buildValueResultInto_eq buf columns rows seq

theorem sendResult_eq (result : QueryResult) (seq : UInt8) :
    (sendResult result seq).flatten = buildResult result seq := by
  unfold sendResult
  rcases result with ⟨affected, lastInsertId⟩ | ⟨code, message⟩ | ⟨columns, rows⟩ | ⟨columns, rows⟩
  · exact List.flatten_singleton ..
  · exact List.flatten_singleton ..
  · exact sendResultSet_eq textRow columns rows seq
  · rw [List.flatten_singleton]
    exact buildValueResultInto_eq [] columns rows seq

theorem sendResultBinary_eq (result : QueryResult) (seq : UInt8) :
    (sendResultBinary result seq).flatten = buildBinaryResult result seq := by
  unfold sendResultBinary
  rcases result with ⟨affected, lastInsertId⟩ | ⟨code, message⟩ | ⟨columns, rows⟩ | ⟨columns, rows⟩
  · exact List.flatten_singleton ..
  · exact List.flatten_singleton ..
  · rw [sendResultSet_eq, show binaryRowLoop = binaryRow from funext binaryRowLoop_eq]
    rfl
  · rw [List.flatten_singleton]
    exact buildValueResultInto_eq [] columns rows seq

/-- **In place or packet by packet.** For every result and every sequence number
to start from, the block that is built in one buffer is what `send_result` and
`send_result_binary` write packet by packet; and each in-place writer appends the
packet of the builder it repeats. -/
theorem buildResultInto_sendResult (buf : Bytes) (seq : UInt8) :
    (∀ result, buildResultInto buf result seq = buf ++ (sendResult result seq).flatten) ∧
    (∀ result, buildBinaryResultInto buf result seq = buf ++ (sendResultBinary result seq).flatten) ∧
    (∀ payload, writePacketInto buf payload seq = buf ++ encodePacket payload seq) ∧
    (∀ name colType, writeColDefInto buf name colType seq =
      buf ++ encodePacket (columnDef "" "" name colType 0) seq) ∧
    (∀ row, writeTextRowInto buf row seq = buf ++ encodePacket (textRow row) seq) ∧
    (∀ row, writeBinaryRowInto buf row seq = buf ++ encodePacket (binaryRowLoop row) seq) ∧
    writeEofInto buf seq = buf ++ encodePacket eofPacket seq := by
  refine ⟨fun result => ?_, fun result => ?_, fun payload => writePacketInto_eq buf payload seq,
    fun name colType => writeColDefInto_eq buf name colType seq,
    fun row => writeTextRowInto_eq buf row seq, fun row => writeBinaryRowInto_eq buf row seq,
    writeEofInto_eq buf seq⟩
  · rw [buildResultInto_eq, sendResult_eq]
  · rw [buildBinaryResultInto_eq, sendResultBinary_eq]

-- ---------------------------------------------------------------------------
-- Stored values
-- ---------------------------------------------------------------------------

theorem byteLen_le (s : Str) : byteLen s ≤ 4 * s.length := by
  induction s with
  | nil => exact Nat.le_refl 0
  | cons c s ih =>
    have hSize := Char.utf8Size_le_four c
    have hCons : byteLen (c :: s) = c.utf8Size + byteLen s := List.sum_cons
    rw [hCons, List.length_cons]
    omega

theorem length_natToString {n k : Nat} (hPos : 0 < k) (h : n < 10 ^ k) : (natToString n).length ≤ k :=
  (Nat.length_toDigits_le_iff (by omega) hPos).2 h

/-- The decimals of an `i64`, the minimum included, fit a one-byte length. -/
theorem byteLen_i64ToString (n : Int64) : byteLen (i64ToString n) < 251 := by
  have hLow := n.le_toInt
  have hHigh := n.toInt_lt
  have hDigits := length_natToString (n := n.toInt.natAbs) (k := 19) (by omega) (by omega)
  have hBytes := byteLen_le (i64ToString n)
  have hLength : (i64ToString n).length ≤ 20 := by
    unfold i64ToString
    split
    · rw [List.length_cons]
      omega
    · omega
  omega

theorem valueText_eq (v : Value) : valueText v = v.toDisplay.elim [0xfb] putLenencStr := by
  rcases v with _ | n | f | s | b
  · rfl
  · have hShort := byteLen_i64ToString n
    show _ = putLenenc (byteLen (i64ToString n)) ++ bytes (i64ToString n)
    unfold putLenenc
    rw [if_pos hShort]
    rfl
  · rfl
  · rfl
  · rfl

theorem textRow_displayRow (row : Row) : textRow (displayRow row) = row.flatMap valueText := by
  unfold textRow displayRow
  rw [List.flatMap_map]
  exact List.flatMap_congr fun v _ => (valueText_eq v).symm

/-- **Stored values.** A result of stored values goes out byte for byte as the
result of the texts they are displayed as. -/
theorem valueRows_as_displayed (buf : Bytes) (columns : List Str) (rows : List Row) (seq : UInt8) :
    buildResultInto buf (.valueRows columns rows) seq =
      buildResultInto buf (.rows columns (rows.map displayRow)) seq := by
  have hRow : ∀ out r s, writeTextRowInto out (displayRow r) s =
      out ++ encodePacket (r.flatMap valueText) s := by
    intro out r s
    rw [writeTextRowInto_eq, textRow_displayRow]
  have hLoop : ∀ out s, writeEach writeTextRowInto (rows.map displayRow) out s =
      writeEach writeValueRowInto rows out s := by
    intro out s
    rw [writeEach_into writeTextRowInto_eq, writeEach_into writeValueRowInto_eq, numbered_map,
      List.length_map]
    simp only [textRow_displayRow]
  show writeResultSet writeValueRowInto buf columns rows seq =
    writeResultSet writeTextRowInto buf columns (rows.map displayRow) seq
  unfold writeResultSet
  simp only [hLoop]

end RunAlexDb
