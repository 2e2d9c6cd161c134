import RunAlexDb.Lib.Utf8
import RunAlexDb.Model.Protocol

/-!
# BinaryParams — the parameters of COM_STMT_EXECUTE on the wire

What a client sends for a list of parameters (NULL bits, type bytes, values),
and that `parse_execute_params` reads each of them as the text it stands for.

Main result: `parseExecuteParams_executePayload`.
-/

set_option linter.unusedSectionVars false

namespace RunAlexDb

open Text Platform

theorem length_toLe (n v : Nat) : (toLe n v).length = n := by
  induction n generalizing v with
  | zero => rfl
  | succ n ih => rw [toLe, List.length_cons, ih]

variable [Platform]

-- ---------------------------------------------------------------------------
-- Length-encoded texts
-- ---------------------------------------------------------------------------

theorem byteAt_append (before rest : Bytes) (i : Nat) :
    byteAt (before ++ rest) (before.length + i) = byteAt rest i := by
  rw [byteAt, byteAt, List.getD_eq_getElem?_getD, List.getElem?_append_right (Nat.le_add_right ..),
    Nat.add_sub_cancel_left, List.getD_eq_getElem?_getD]

theorem byteAt_append_zero (before rest : Bytes) :
    byteAt (before ++ rest) before.length = byteAt rest 0 := byteAt_append before rest 0

theorem drop_append_add (before rest : Bytes) (i : Nat) :
    (before ++ rest).drop (before.length + i) = rest.drop i := by
  rw [← List.drop_drop, List.drop_left]

theorem take_toLe (n v : Nat) (rest : Bytes) : (toLe n v ++ rest).take n = toLe n v :=
  List.take_left' (length_toLe n v)

/-- The text behind a prefix that tells its length. -/
theorem body_read (before pre after : Bytes) (s : Str) :
    (if (before ++ (pre ++ bytes s ++ after)).length < before.length + pre.length + byteLen s then
        (([] : Str), before.length + pre.length)
      else (fromUtf8Lossy (((before ++ (pre ++ bytes s ++ after)).drop
        (before.length + pre.length)).take (byteLen s)), before.length + pre.length + byteLen s)) =
      (s, before.length + (pre ++ bytes s).length) := by
  have hBytes := length_bytes s
  have hTaken : ((pre ++ bytes s ++ after).drop pre.length).take (byteLen s) = bytes s := by
    rw [List.append_assoc, List.drop_left]
    exact List.take_left' hBytes
  rw [if_neg (by simp only [List.length_append]; omega), drop_append_add, hTaken, fromUtf8Lossy_bytes,
    List.length_append, hBytes, Nat.add_assoc]

/-- A text with its length before it is read back. -/
theorem readLenencBytesAsStr_putLenencStr (before after : Bytes) {s : Str}
    (hLength : byteLen s < 2 ^ 24) :
    readLenencBytesAsStr (before ++ (putLenencStr s ++ after)) before.length =
      (s, before.length + (putLenencStr s).length) := by
  have hBytes := length_bytes s
  rw [putLenencStr, putLenenc]
  split
  · rename_i hShort
    have hByte : byteAt ([UInt8.ofNat (byteLen s)] ++ bytes s ++ after) 0 = byteLen s :=
      toNat_byte (by omega)
    rw [readLenencBytesAsStr, if_neg (by simp only [List.length_append, List.length_singleton]; omega)]
    simp only [byteAt_append_zero, hByte]
    rw [if_neg (by omega), if_neg (by omega), if_neg (by omega)]
    exact body_read before [UInt8.ofNat (byteLen s)] after s
  · split
    · rename_i hNot hShort
      have hPrefix : leNat (toLe 2 (byteLen s)) = byteLen s := by
        rw [leNat_toLe]
        exact Nat.mod_eq_of_lt hShort
      have hTake : ((before ++ (0xfc :: toLe 2 (byteLen s) ++ bytes s ++ after)).drop
          (before.length + 1)).take 2 = toLe 2 (byteLen s) := by
        rw [drop_append_add, List.append_assoc, List.cons_append, List.drop_succ_cons, List.drop_zero]
        exact take_toLe ..
      have hSize := length_toLe 2 (byteLen s)
      have hByte : byteAt (0xfc :: toLe 2 (byteLen s) ++ bytes s ++ after) 0 = 0xfc := rfl
      rw [readLenencBytesAsStr,
        if_neg (by simp only [List.length_append, List.length_cons]; omega)]
      simp only [byteAt_append_zero, hByte]
      rw [if_neg (by omega), if_pos trivial,
        if_neg (by simp only [List.length_append, List.length_cons]; omega), hTake, hPrefix]
      exact body_read before (0xfc :: toLe 2 (byteLen s)) after s
    · rename_i hNot hNot'
      rw [if_pos (show byteLen s < 16777216 from hLength)]
      have hPrefix : leNat (toLe 3 (byteLen s)) = byteLen s := by
        rw [leNat_toLe]
        exact Nat.mod_eq_of_lt hLength
      have hTake : ((before ++ (0xfd :: toLe 3 (byteLen s) ++ bytes s ++ after)).drop
          (before.length + 1)).take 3 = toLe 3 (byteLen s) := by
        rw [drop_append_add, List.append_assoc, List.cons_append, List.drop_succ_cons, List.drop_zero]
        exact take_toLe ..
      have hSize := length_toLe 3 (byteLen s)
      have hByte : byteAt (0xfd :: toLe 3 (byteLen s) ++ bytes s ++ after) 0 = 0xfd := rfl
      rw [readLenencBytesAsStr,
        if_neg (by simp only [List.length_append, List.length_cons]; omega)]
      simp only [byteAt_append_zero, hByte]
      rw [if_neg (by omega), if_neg (by omega), if_pos trivial,
        if_neg (by simp only [List.length_append, List.length_cons]; omega), hTake, hPrefix]
      exact body_read before (0xfd :: toLe 3 (byteLen s)) after s

-- ---------------------------------------------------------------------------
-- Parameters as a client sends them
-- ---------------------------------------------------------------------------

/-- A parameter on the wire. One of another type than string is its bytes and
the text `read_binary_param` makes of them, whatever stands around them. -/
inductive SentParam
  | null
  | text (s : Str)
  | other (typeByte flag : UInt8) (data : Bytes) (s : Str)
      (reads : ∀ before after : Bytes,
        readBinaryParam (before ++ (data ++ after)) before.length typeByte.toNat =
          (s, before.length + data.length))

def SentParam.isNull : SentParam → Bool
  | .null => true
  | _ => false

def SentParam.typeByte : SentParam → UInt8
  | .other typeByte .. => typeByte
  | _ => 0xfd

def SentParam.flag : SentParam → UInt8
  | .other _ flag .. => flag
  | _ => 0

def SentParam.data : SentParam → Bytes
  | .null => []
  | .text s => putLenencStr s
  | .other _ _ data .. => data

/-- What the server is to make of it. -/
def SentParam.value : SentParam → Option Str
  | .null => none
  | .text s => some s
  | .other _ _ _ s _ => some s

/-- A TINY parameter. -/
def SentParam.tiny (n : UInt8) : SentParam :=
  .other 0x01 0 [n] (intText (signedLe 1 [n])) (by
    intro before after
    have hTaken : ((before ++ ([n] ++ after)).drop before.length).take 1 = [n] := by
      rw [List.drop_left]
      rfl
    rw [readBinaryParam, if_neg (by simp), if_pos (by decide), readFixed,
      if_neg (by simp only [List.length_append, List.length_singleton]; omega), hTaken]
    rfl)

/-- A number whose bits are the given ones, lowest first. -/
def bitsNat : List Bool → Nat
  | [] => 0
  | b :: rest => b.toNat + 2 * bitsNat rest

theorem bitsNat_lt (bits : List Bool) : bitsNat bits < 2 ^ bits.length := by
  induction bits with
  | nil => exact Nat.one_pos
  | cons b rest ih =>
    have hBit : b.toNat ≤ 1 := Bool.toNat_le b
    rw [bitsNat, List.length_cons, Nat.pow_succ]
    omega

theorem bitsNat_div (bits : List Bool) (i : Nat) :
    bitsNat bits / 2 ^ i % 2 = 1 ↔ bits[i]? = some true := by
  induction bits generalizing i with
  | nil => simp [bitsNat]
  | cons b rest ih =>
    cases i with
    | zero =>
      rw [bitsNat, Nat.pow_zero, Nat.div_one, List.getElem?_cons_zero]
      cases b
      · rw [Bool.toNat_false]
        simp
      · rw [Bool.toNat_true]
        simp
    | succ i =>
      have hHalf : bitsNat (b :: rest) / 2 = bitsNat rest := by
        have hBit : b.toNat ≤ 1 := Bool.toNat_le b
        rw [bitsNat]
        omega
      rw [Nat.pow_succ', ← Nat.div_div_eq_div_mul, hHalf, ih, List.getElem?_cons_succ]

/-- Bits, eight to a byte. -/
def flagBytes (flags : List Bool) : Bytes :=
  (List.range ((flags.length + 7) / 8)).map fun k =>
    UInt8.ofNat (bitsNat ((flags.drop (8 * k)).take 8))

theorem length_flagBytes (flags : List Bool) : (flagBytes flags).length = (flags.length + 7) / 8 := by
  rw [flagBytes, List.length_map, List.length_range]

theorem flagBytes_bit (flags : List Bool) {i : Nat} {flag : Bool} (h : flags[i]? = some flag) :
    byteAt (flagBytes flags) (i / 8) / 2 ^ (i % 8) % 2 = 1 ↔ flag = true := by
  have hInside : i < flags.length := (List.getElem?_eq_some_iff.1 h).1
  have hByte : byteAt (flagBytes flags) (i / 8) = bitsNat ((flags.drop (8 * (i / 8))).take 8) := by
    rw [byteAt, flagBytes, List.getD_eq_getElem?_getD, List.getElem?_map,
      List.getElem?_range (by omega)]
    have hLt := bitsNat_lt ((flags.drop (8 * (i / 8))).take 8)
    have hEight := List.length_take_le 8 (flags.drop (8 * (i / 8)))
    have hPow := Nat.pow_le_pow_right (show 0 < 2 by omega) hEight
    exact toNat_byte (by omega)
  have hSame : 8 * (i / 8) + i % 8 = i := Nat.div_add_mod i 8
  rw [hByte, bitsNat_div, List.getElem?_take, if_pos (Nat.mod_lt i (by omega)), List.getElem?_drop,
    hSame, h, Option.some_inj]

/-- The NULL bits, eight to a byte. -/
def nullBitmapOf (ps : List SentParam) : Bytes :=
  (List.range ((ps.length + 7) / 8)).map fun k =>
    UInt8.ofNat (bitsNat (((ps.drop (8 * k)).take 8).map SentParam.isNull))

theorem nullBitmapOf_eq (ps : List SentParam) : nullBitmapOf ps = flagBytes (ps.map SentParam.isNull) := by
  unfold nullBitmapOf flagBytes
  simp only [List.map_take, List.map_drop, List.length_map]

-- ---------------------------------------------------------------------------
-- The payload
-- ---------------------------------------------------------------------------

/-- COM_STMT_EXECUTE with the parameters and their types. -/
def executePayload (stmtId : Nat) (ps : List SentParam) : Bytes :=
  (0x17 :: toLe 4 stmtId ++ 0 :: toLe 4 1) ++ nullBitmapOf ps ++
    (1 :: ps.flatMap fun p => [p.typeByte, p.flag]) ++ ps.flatMap SentParam.data

theorem length_pairs {α : Type} (f g : α → UInt8) (xs : List α) :
    (xs.flatMap fun x => [f x, g x]).length = xs.length * 2 := by
  induction xs with
  | nil => rfl
  | cons x xs ih =>
    rw [List.flatMap_cons, List.length_append, ih]
    show 2 + xs.length * 2 = (xs.length + 1) * 2
    omega

/-- The first byte of the `i`-th pair. -/
theorem byteAt_pairs {α : Type} (f g : α → UInt8) (xs : List α) {i : Nat} {x : α} (h : xs[i]? = some x)
    (rest : Bytes) : byteAt ((xs.flatMap fun x => [f x, g x]) ++ rest) (2 * i) = (f x).toNat := by
  induction xs generalizing i with
  | nil => cases h
  | cons y xs ih =>
    rw [List.flatMap_cons, List.append_assoc]
    rcases i with _ | i
    · obtain rfl := Option.some.inj h
      rfl
    · rw [List.getElem?_cons_succ] at h
      have hNext := byteAt_append [f y, g y] ((xs.flatMap fun x => [f x, g x]) ++ rest) (2 * i)
      rw [show 2 * (i + 1) = [f y, g y].length + 2 * i by
        simp only [List.length_cons, List.length_nil]; omega, hNext, ih h]

/-- A string that fits into a packet is read back, another parameter as it says. -/
theorem readBinaryParam_data {p : SentParam} (hValue : p.isNull = false) (before after : Bytes)
    (hShort : p.data.length < 2 ^ 24) :
    ∃ s, p.value = some s ∧
      readBinaryParam (before ++ (p.data ++ after)) before.length p.typeByte.toNat =
        (s, before.length + p.data.length) := by
  cases p with
  | null => cases hValue
  | other typeByte flag data s reads => exact ⟨s, rfl, reads before after⟩
  | text s =>
    refine ⟨s, rfl, ?_⟩
    have hPrefix : 0 < (putLenenc (byteLen s)).length := by
      rw [putLenenc]
      split
      · exact Nat.one_pos
      · split
        · exact Nat.succ_pos _
        · split <;> exact Nat.succ_pos _
    have hSize : (putLenencStr s).length = (putLenenc (byteLen s)).length + byteLen s := by
      rw [putLenencStr, List.length_append, length_bytes]
    have hLength : byteLen s < 2 ^ 24 := by
      simp only [SentParam.data] at hShort
      omega
    simp only [SentParam.data, SentParam.typeByte]
    rw [readBinaryParam, if_neg (by simp only [List.length_append]; omega)]
    exact readLenencBytesAsStr_putLenencStr before after hLength

/-- The values, one after the other, from number `i` on. -/
theorem readParams_data (payload nullBitmap : Bytes) (typeOf : Nat → Nat) (ps : List SentParam) :
    ∀ (i : Nat) (before : Bytes), payload = before ++ ps.flatMap SentParam.data →
      payload.length < 2 ^ 24 →
      (∀ j p, ps[j]? = some p →
        (byteAt nullBitmap ((i + j) / 8) / 2 ^ ((i + j) % 8) % 2 = 1 ↔ p.isNull = true) ∧
          typeOf (i + j) = p.typeByte.toNat) →
      readParams payload nullBitmap typeOf ps.length i before.length = ps.map SentParam.value := by
  induction ps with
  | nil => exact fun _ _ _ _ _ => rfl
  | cons p ps ih =>
    intro i before hPayload hShort hHead
    obtain ⟨hNull, hType⟩ := hHead 0 p rfl
    rw [Nat.add_zero] at hNull hType
    have hRest := ih (i + 1) (before ++ p.data)
      (by rw [hPayload, List.flatMap_cons, List.append_assoc]) hShort
      fun j q hj => by
        have hAt := hHead (j + 1) q hj
        rwa [show i + (j + 1) = i + 1 + j by omega] at hAt
    have hData : p.data.length < 2 ^ 24 := by
      rw [hPayload, List.flatMap_cons] at hShort
      simp only [List.length_append] at hShort
      omega
    rw [List.length_cons, List.map_cons, readParams]
    rw [List.length_append] at hRest
    cases hIs : p.isNull with
    | true =>
      rw [if_pos (hNull.2 hIs)]
      have hEmpty : p.data.length = 0 := by
        cases p with
        | null => rfl
        | text => cases hIs
        | other => cases hIs
      rw [hEmpty] at hRest
      rw [show before.length = before.length + 0 from rfl, hRest]
      cases p with
      | null => rfl
      | text => cases hIs
      | other => cases hIs
    | false =>
      obtain ⟨s, hValue, hRead⟩ := readBinaryParam_data hIs before (ps.flatMap SentParam.data) hData
      rw [if_neg (by rw [hNull, hIs]; exact Bool.false_ne_true), hType, hPayload, List.flatMap_cons,
        hRead, hValue]
      simp only []
      rw [← List.flatMap_cons, ← hPayload, hRest]

/-- A packet is shorter than 16 MiB. -/
theorem length_of_decodePacket {buf payload rest : Bytes} {seq : UInt8}
    (h : decodePacket buf = some (payload, seq, rest)) : payload.length < 2 ^ 24 := by
  match buf, h with
  | b0 :: b1 :: b2 :: seq' :: rest', h =>
    simp only [decodePacket] at h
    by_cases hLong : rest'.length < leNat [b0, b1, b2]
    · rw [if_pos hLong] at h
      cases h
    · rw [if_neg hLong] at h
      obtain ⟨rfl, -⟩ := Prod.mk.inj (Option.some.inj h)
      have h0 := b0.toNat_lt
      have h1 := b1.toNat_lt
      have h2 := b2.toNat_lt
      rw [List.length_take]
      simp only [leNat_cons, leNat_nil]
      omega

/-- Where the server finds the parts of a payload with type bytes. -/
theorem parseExecuteParams_typed {head types : Bytes} (flags : List Bool) (data : Bytes) (hHead : head.length = 10)
    (hTypes : types.length = flags.length * 2) (hSome : flags.length ≠ 0) :
    parseExecuteParams (head ++ flagBytes flags ++ (1 :: types) ++ data) flags.length =
      readParams (head ++ flagBytes flags ++ (1 :: types) ++ data) (flagBytes flags)
        (fun i => byteAt (types ++ data) (2 * i)) flags.length 0
        (head ++ flagBytes flags ++ (1 :: types)).length := by
  have hBitmap := length_flagBytes flags
  have hBefore : (head ++ flagBytes flags).length = 10 + (flags.length + 7) / 8 := by
    rw [List.length_append, hHead, hBitmap]
  have hSplit : head ++ flagBytes flags ++ (1 :: types) ++ data =
      (head ++ flagBytes flags) ++ (1 :: (types ++ data)) := by
    rw [List.append_assoc, List.cons_append]
  have hLong : 10 + (flags.length + 7) / 8 + 1 + flags.length * 2 ≤
      (head ++ flagBytes flags ++ (1 :: types) ++ data).length := by
    simp only [List.length_append, List.length_cons, hHead, hBitmap, hTypes]
    omega
  have hNullBits : ((head ++ flagBytes flags ++ (1 :: types) ++ data).drop 10).take
      ((flags.length + 7) / 8) = flagBytes flags := by
    rw [hSplit, List.append_assoc, List.drop_left' hHead, List.take_left' hBitmap]
  have hBound : byteAt (head ++ flagBytes flags ++ (1 :: types) ++ data)
      (10 + (flags.length + 7) / 8) = 1 := by
    rw [hSplit, ← hBefore, byteAt_append_zero]
    rfl
  have hStart : (head ++ flagBytes flags ++ (1 :: types)).length =
      10 + (flags.length + 7) / 8 + 1 + 2 * flags.length := by
    rw [List.length_append, hBefore, List.length_cons, hTypes]
    omega
  have hTypeOf : (fun i => byteAt (head ++ flagBytes flags ++ (1 :: types) ++ data)
      (10 + (flags.length + 7) / 8 + 1 + 2 * i)) = fun i => byteAt (types ++ data) (2 * i) := by
    funext i
    rw [hSplit, ← hBefore, Nat.add_assoc, byteAt_append, Nat.add_comm 1]
    rfl
  rw [parseExecuteParams]
  simp only [hNullBits, hBound, hTypeOf]
  rw [if_neg (by omega), if_neg (by omega), if_pos ⟨trivial, hLong⟩, ← hStart]

/-- And of one without: every value is read as a string. -/
theorem parseExecuteParams_untyped {head : Bytes} (flags : List Bool) (data : Bytes) (hHead : head.length = 10)
    (hSome : flags.length ≠ 0) :
    parseExecuteParams (head ++ flagBytes flags ++ [0] ++ data) flags.length =
      readParams (head ++ flagBytes flags ++ [0] ++ data) (flagBytes flags) (fun _ => 0xfd)
        flags.length 0 (head ++ flagBytes flags ++ [0]).length := by
  have hBitmap := length_flagBytes flags
  have hBefore : (head ++ flagBytes flags).length = 10 + (flags.length + 7) / 8 := by
    rw [List.length_append, hHead, hBitmap]
  have hLong : 10 + (flags.length + 7) / 8 + 1 ≤ (head ++ flagBytes flags ++ [0] ++ data).length := by
    simp only [List.length_append, List.length_cons, hHead, hBitmap]
    omega
  have hNullBits : ((head ++ flagBytes flags ++ [0] ++ data).drop 10).take
      ((flags.length + 7) / 8) = flagBytes flags := by
    rw [List.append_assoc, List.append_assoc, List.drop_left' hHead, List.take_left' hBitmap]
  have hBound : byteAt (head ++ flagBytes flags ++ [0] ++ data) (10 + (flags.length + 7) / 8) = 0 := by
    rw [List.append_assoc, ← hBefore, byteAt_append_zero]
    rfl
  have hStart : (head ++ flagBytes flags ++ [0]).length = 10 + (flags.length + 7) / 8 + 1 := by
    rw [List.length_append, hBefore, List.length_singleton]
  rw [parseExecuteParams]
  simp only [hNullBits, hBound]
  rw [if_neg (by omega), if_neg (by omega), if_neg (by omega), ← hStart]

/-- The first ten bytes: the command, the statement, no cursor, one iteration. -/
theorem length_executeHead (stmtId : Nat) : ((0x17 : UInt8) :: toLe 4 stmtId ++ 0 :: toLe 4 1).length = 10 := by
  simp only [List.cons_append, List.length_cons, List.length_append, length_toLe]

/-- **Parameters.** What was sent in one packet is what is read. -/
theorem parseExecuteParams_executePayload {stmtId : Nat} {ps : List SentParam}
    (hShort : (executePayload stmtId ps).length < 2 ^ 24) :
    parseExecuteParams (executePayload stmtId ps) ps.length = ps.map SentParam.value := by
  have hLength : (ps.map SentParam.isNull).length = ps.length := List.length_map ..
  have hTypes := length_pairs SentParam.typeByte SentParam.flag ps
  by_cases hNone : ps.length = 0
  · obtain rfl := List.eq_nil_of_length_eq_zero hNone
    rfl
  · rw [executePayload, nullBitmapOf_eq] at hShort ⊢
    have hTyped := parseExecuteParams_typed _ (ps.flatMap SentParam.data)
      (length_executeHead stmtId) (by rw [hLength, hTypes]) (by rwa [hLength])
    rw [hLength] at hTyped
    rw [hTyped]
    refine readParams_data _ _ _ ps 0 _ rfl hShort fun j p hAt => ?_
    have hType := byteAt_pairs SentParam.typeByte SentParam.flag ps hAt (ps.flatMap SentParam.data)
    rw [Nat.zero_add]
    exact ⟨flagBytes_bit _ (by rw [List.getElem?_map, hAt]; rfl), hType⟩

end RunAlexDb
