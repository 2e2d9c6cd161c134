import Mathlib.Data.List.Forall2
import RunAlexDb.Lib.Digits
import RunAlexDb.Model.Concrete
import RunAlexDb.Session.BinaryParams
import RunAlexDb.Session.ResultPackets

/-!
# ParamTypes — parameters of every type

What a client encodes for a parameter of each type, the text that stands for its
value, and which of them `parse_execute_params` reads as that text. It reads
every integer as signed, drops microseconds, takes a TIME for a DATETIME, and
knows no length prefix of eight bytes.

Main result: `params_shown_iff`.
-/

set_option linter.unusedSectionVars false

namespace RunAlexDb

open Text Platform

-- ---------------------------------------------------------------------------
-- Parameters as the protocol defines them
-- ---------------------------------------------------------------------------

inductive IntType
  | tiny | short | long | longlong
deriving DecidableEq

def IntType.code : IntType → UInt8
  | .tiny => 0x01
  | .short => 0x02
  | .long => 0x03
  | .longlong => 0x08

def IntType.size : IntType → Nat
  | .tiny => 1
  | .short => 2
  | .long => 4
  | .longlong => 8

/-- The number that `n` bytes stand for in two's complement. -/
def signedOf (n bits : Nat) : Int :=
  if 2 ^ (8 * n - 1) ≤ bits then (bits : Int) - 2 ^ (8 * n) else bits

/-- VARCHAR, the BLOB types, VAR_STRING and STRING. -/
def StringType (code : UInt8) : Prop :=
  code = 0x0f ∨ code = 0xf9 ∨ code = 0xfa ∨ code = 0xfb ∨ code = 0xfc ∨ code = 0xfd ∨ code = 0xfe

structure DateTime where
  year : UInt16
  month : UInt8
  day : UInt8
  hour : UInt8
  minute : UInt8
  second : UInt8
  micro : UInt32
deriving DecidableEq

/-- Microseconds behind the seconds, where there are some. -/
def fraction (micro : UInt32) : Str := if micro = 0 then [] else "." ++ padZero 6 micro.toNat

def DateTime.dateText (v : DateTime) : Str :=
  padZero 4 v.year.toNat ++ "-" ++ padZero 2 v.month.toNat ++ "-" ++ padZero 2 v.day.toNat

/-- To the second. -/
def DateTime.secondText (v : DateTime) : Str :=
  v.dateText ++ " " ++ padZero 2 v.hour.toNat ++ ":" ++ padZero 2 v.minute.toNat ++ ":" ++
    padZero 2 v.second.toNat

def DateTime.text (v : DateTime) : Str := v.secondText ++ fraction v.micro

/-- How much of a date and time goes on the wire. -/
inductive Parts
  | nothing | date | seconds | micros
deriving DecidableEq

def DateTime.dateBytes (v : DateTime) : Bytes := toLe 2 v.year.toNat ++ [v.month, v.day]

def DateTime.data (v : DateTime) : Parts → Bytes
  | .nothing => [0]
  | .date => 4 :: v.dateBytes
  | .seconds => 7 :: (v.dateBytes ++ [v.hour, v.minute, v.second])
  | .micros => 11 :: (v.dateBytes ++ [v.hour, v.minute, v.second] ++ toLe 4 v.micro.toNat)

/-- What is left out is zero. -/
def DateTime.Covered (v : DateTime) : Parts → Prop
  | .nothing => v = ⟨0, 0, 0, 0, 0, 0, 0⟩
  | .date => v.hour = 0 ∧ v.minute = 0 ∧ v.second = 0 ∧ v.micro = 0
  | .seconds => v.micro = 0
  | .micros => True

inductive DateType
  | date | datetime | timestamp
deriving DecidableEq

def DateType.code : DateType → UInt8
  | .date => 0x0a
  | .datetime => 0x0c
  | .timestamp => 0x07

/-- A DATE is no more than a date. -/
def DateType.Fits (t : DateType) (v : DateTime) : Prop :=
  t = .date → v.hour = 0 ∧ v.minute = 0 ∧ v.second = 0 ∧ v.micro = 0

def DateType.text (t : DateType) (v : DateTime) : Str :=
  match t with
  | .date => v.dateText
  | .datetime | .timestamp => v.text

structure Time where
  negative : Bool
  days : UInt32
  hour : UInt8
  minute : UInt8
  second : UInt8
  micro : UInt32
deriving DecidableEq

/-- Hours count on through the days. -/
def Time.text (v : Time) : Str :=
  (if v.negative then "-" else "") ++ padZero 2 (24 * v.days.toNat + v.hour.toNat) ++ ":" ++
    padZero 2 v.minute.toNat ++ ":" ++ padZero 2 v.second.toNat ++ fraction v.micro

/-- How much of a time goes on the wire. -/
inductive TimeParts
  | nothing | seconds | micros
deriving DecidableEq

def Time.data (v : Time) : TimeParts → Bytes
  | .nothing => [0]
  | .seconds => 8 :: (UInt8.ofNat v.negative.toNat :: toLe 4 v.days.toNat ++
      [v.hour, v.minute, v.second])
  | .micros => 12 :: (UInt8.ofNat v.negative.toNat :: toLe 4 v.days.toNat ++
      [v.hour, v.minute, v.second] ++ toLe 4 v.micro.toNat)

def Time.Covered (v : Time) : TimeParts → Prop
  | .nothing => v = ⟨false, 0, 0, 0, 0, 0⟩
  | .seconds => v.micro = 0
  | .micros => True

/-- A parameter with its type bytes. -/
inductive WireParam
  | null (code flag : UInt8)
  | int (t : IntType) (unsigned : Bool) (bits : Nat) (inRange : bits < 256 ^ t.size)
  | string (code flag : UInt8) (isString : StringType code) (b : Bytes)
  | date (t : DateType) (flag : UInt8) (parts : Parts) (v : DateTime) (covered : v.Covered parts)
      (fits : t.Fits v)
  | time (flag : UInt8) (parts : TimeParts) (v : Time) (covered : v.Covered parts)

namespace WireParam

def isNull : WireParam → Bool
  | .null .. => true
  | .int .. | .string .. | .date .. | .time .. => false

def code : WireParam → UInt8
  | .null code _ => code
  | .int t .. => t.code
  | .string code .. => code
  | .date t .. => t.code
  | .time .. => 0x0b

def flag : WireParam → UInt8
  | .null _ flag => flag
  | .int _ unsigned .. => if unsigned then 0x80 else 0
  | .string _ flag .. => flag
  | .date _ flag .. => flag
  | .time flag .. => flag

def data : WireParam → Bytes
  | .null .. => []
  | .int t _ bits _ => toLe t.size bits
  | .string _ _ _ b => putLenenc b.length ++ b
  | .date _ _ parts v .. => v.data parts
  | .time _ parts v _ => v.data parts

/-- The text is the value of the parameter. -/
def Shows : WireParam → Option Str → Prop
  | .null .., shown => shown = none
  | .int t unsigned bits _, shown =>
    shown = some (intText (if unsigned then (bits : Int) else signedOf t.size bits))
  | .string _ _ _ b, shown => ∃ s, shown = some s ∧ bytes s = b
  | .date t _ _ v .., shown => shown = some (t.text v)
  | .time _ _ v _, shown => shown = some v.text

/-- The parameters that arrive as what they are. -/
def Decodes : WireParam → Prop
  | .null .. => True
  | .int t unsigned bits _ => unsigned = true → bits < 2 ^ (8 * t.size - 1)
  | .string _ _ _ b => (∃ s, bytes s = b) ∧ b.length < 2 ^ 24
  | .date _ _ _ v .. => v.micro = 0
  | .time .. => False

end WireParam

/-- COM_STMT_EXECUTE with parameters of any type. -/
def wirePayload (stmtId : Nat) (ps : List WireParam) : Bytes :=
  (0x17 :: toLe 4 stmtId ++ 0 :: toLe 4 1) ++ flagBytes (ps.map WireParam.isNull) ++
    (1 :: ps.flatMap fun p => [p.code, p.flag]) ++ ps.flatMap WireParam.data

-- ---------------------------------------------------------------------------
-- Integers
-- ---------------------------------------------------------------------------

section ParamTypes

variable [Platform]

theorem readFixed_data {data : Bytes} {n : Nat} (hSize : data.length = n) (before after : Bytes)
    (show_ : Bytes → Str) :
    readFixed (before ++ (data ++ after)) before.length n show_ = (show_ data, before.length + n) := by
  unfold readFixed
  rw [if_neg (by simp only [List.length_append]; omega), List.drop_left, List.take_left' hSize]

theorem signedLe_toLe {n bits : Nat} (h : bits < 256 ^ n) : signedLe n (toLe n bits) = signedOf n bits := by
  have hTake := take_toLe n bits []
  rw [List.append_nil] at hTake
  unfold signedLe signedOf
  simp only [hTake, leNat_toLe, Nat.mod_eq_of_lt h]

theorem readBinaryParam_int (t : IntType) {bits : Nat} (h : bits < 256 ^ t.size) (before after : Bytes) :
    readBinaryParam (before ++ (toLe t.size bits ++ after)) before.length t.code.toNat =
      (intText (signedOf t.size bits), before.length + t.size) := by
  have hSize := length_toLe t.size bits
  have hRead := readFixed_data hSize before after fun b => intText (signedLe t.size b)
  have hPos : 0 < t.size := by rcases t with _ | _ | _ | _ <;> decide
  rw [signedLe_toLe h] at hRead
  unfold readBinaryParam
  rw [if_neg (by simp only [List.length_append]; omega), ← hRead]
  rcases t with _ | _ | _ | _ <;> rfl

theorem intText_neg {i : Int} (h : i < 0) : ∃ s, intText i = '-' :: s :=
  ⟨_, if_pos h⟩

/-- A number below zero is not shown as one that is not. -/
theorem intText_ne {i : Int} (n : Nat) (h : i < 0) : intText i ≠ intText n := by
  obtain ⟨s, hMinus⟩ := intText_neg h
  obtain ⟨c, r, hText, hNoSign, -⟩ := natToString_cons n
  have hPlain : intText (n : Int) = natToString n := if_neg (by omega)
  rw [hMinus, hPlain, hText]
  intro hSame
  exact hNoSign (List.cons.inj hSame).1.symm

/-- Read as signed, a number has the value of its bits if and only if the top bit
is clear. -/
theorem intText_signedOf {n bits : Nat} (hRange : bits < 256 ^ n) :
    intText (signedOf n bits) = intText bits ↔ bits < 2 ^ (8 * n - 1) := by
  have hPow : (256 : Nat) ^ n = 2 ^ (8 * n) := by
    rw [Nat.pow_mul]
  unfold signedOf
  constructor
  · intro hSame
    by_contra hTop
    have hNegative : (bits : Int) - 2 ^ (8 * n) < 0 := by
      rw [hPow] at hRange
      have hCast : (bits : Int) < ((2 ^ (8 * n) : Nat) : Int) := Int.ofNat_lt.2 hRange
      rw [Int.natCast_pow] at hCast
      exact Int.sub_neg_of_lt hCast
    rw [if_pos (by omega)] at hSame
    exact intText_ne bits hNegative hSame
  · intro hLow
    rw [if_neg (by omega)]

-- ---------------------------------------------------------------------------
-- Strings
-- ---------------------------------------------------------------------------

theorem readBinaryParam_string {code : UInt8} (h : StringType code) {payload : Bytes} {pos : Nat}
    (hInside : pos < payload.length) :
    readBinaryParam payload pos code.toNat = readLenencBytesAsStr payload pos := by
  unfold readBinaryParam
  rw [if_neg (by omega)]
  rcases h with rfl | rfl | rfl | rfl | rfl | rfl | rfl <;> rfl

theorem length_go (n : Nat) (b : Bytes) : (fromUtf8Lossy.go n b).length ≤ n := by
  induction n generalizing b with
  | zero => exact Nat.le_refl 0
  | succ n ih =>
    rcases b with _ | ⟨x, rest⟩
    · exact Nat.zero_le _
    · unfold fromUtf8Lossy.go
      split
      · exact Nat.succ_le_succ (ih _)
      · simp only []
        split <;> exact Nat.succ_le_succ (ih _)

/-- A string is no longer in characters than in bytes. -/
theorem length_fromUtf8Lossy (b : Bytes) : (fromUtf8Lossy b).length ≤ b.length := length_go _ b

/-- A prefix of eight bytes is taken for the length 254. -/
theorem byteLen_longPrefix {payload : Bytes} {pos : Nat} (h : byteAt payload pos = 0xfe) :
    byteLen (readLenencBytesAsStr payload pos).1 ≤ 1016 := by
  have hBytes := byteLen_le (readLenencBytesAsStr payload pos).1
  have hChars : (readLenencBytesAsStr payload pos).1.length ≤ 254 := by
    unfold readLenencBytesAsStr
    by_cases hEnd : payload.length ≤ pos
    · rw [if_pos hEnd]
      exact Nat.zero_le _
    · rw [if_neg hEnd]
      simp only [h]
      rw [if_neg (by omega), if_neg (by omega), if_neg (by omega)]
      split
      · exact Nat.zero_le _
      · have hTaken := length_fromUtf8Lossy ((payload.drop (pos + 1)).take 0xfe)
        have hLess := List.length_take_le 0xfe (payload.drop (pos + 1))
        exact Nat.le_trans hTaken hLess
  omega

-- ---------------------------------------------------------------------------
-- Dates and times
-- ---------------------------------------------------------------------------

theorem leNat_year (v : DateTime) : leNat (toLe 2 v.year.toNat) = v.year.toNat := by
  have hRange := v.year.toNat_lt
  rw [leNat_toLe]
  exact Nat.mod_eq_of_lt (by omega)

/-- The date behind the length byte. -/
theorem dateText_data (v : DateTime) (before : Bytes) (size : UInt8) (rest : Bytes) :
    dateText (before ++ (size :: v.dateBytes ++ rest)) (before.length + 1) = v.dateText := by
  have hYear : ((before ++ (size :: v.dateBytes ++ rest)).drop (before.length + 1)).take 2 =
      toLe 2 v.year.toNat := by
    rw [drop_append_add]
    rfl
  have hMonth : byteAt (before ++ (size :: v.dateBytes ++ rest)) (before.length + 1 + 2) =
      v.month.toNat := byteAt_append before _ 3
  have hDay : byteAt (before ++ (size :: v.dateBytes ++ rest)) (before.length + 1 + 3) =
      v.day.toNat := byteAt_append before _ 4
  unfold dateText DateTime.dateText
  rw [hYear, hMonth, hDay, leNat_year]

/-- Any of the forms of a DATE is read as the date. -/
theorem readBinaryDate_data {v : DateTime} {parts : Parts} (hCovered : v.Covered parts)
    (before after : Bytes) :
    readBinaryDate (before ++ (v.data parts ++ after)) before.length =
      (v.dateText, before.length + (v.data parts).length) := by
  have hLong : ∀ (size : UInt8) (rest : Bytes), 4 ≤ size.toNat → size.toNat = 4 + rest.length →
      readBinaryDate (before ++ (size :: v.dateBytes ++ (rest ++ after))) before.length =
        (v.dateText, before.length + (size :: v.dateBytes ++ rest).length) := by
    intro size rest hFour hSize
    have hByte : byteAt (before ++ (size :: v.dateBytes ++ (rest ++ after))) before.length = size.toNat :=
      byteAt_append_zero ..
    have hDate : v.dateBytes.length = 4 := rfl
    unfold readBinaryDate
    rw [if_neg (by simp only [List.length_append, List.length_cons]; omega)]
    simp only [hByte]
    rw [if_neg (by simp only [List.length_append, List.length_cons, hDate]; omega), dateText_data]
    simp only [List.length_append, List.length_cons, hDate, Prod.mk.injEq, true_and]
    omega
  rcases parts with _ | _ | _ | _
  · rw [show v = ⟨0, 0, 0, 0, 0, 0, 0⟩ from hCovered]
    have hByte : byteAt (before ++ ([0] ++ after)) before.length = 0 := byteAt_append_zero ..
    show readBinaryDate (before ++ ([0] ++ after)) before.length = _
    unfold readBinaryDate
    rw [if_neg (by simp only [List.length_append, List.length_singleton]; omega)]
    simp only [hByte]
    rw [if_pos (.inl (by omega))]
    rfl
  · exact hLong 4 [] (by decide) rfl
  · have hRead := hLong 7 [v.hour, v.minute, v.second] (by decide) rfl
    simpa only [DateTime.data, List.cons_append, List.append_assoc] using hRead
  · have hRead := hLong 11 ([v.hour, v.minute, v.second] ++ toLe 4 v.micro.toNat) (by decide) rfl
    simpa only [DateTime.data, List.cons_append, List.append_assoc] using hRead

/-- Any of the forms of a DATETIME is read to the second. -/
theorem readBinaryDatetime_data {v : DateTime} {parts : Parts} (hCovered : v.Covered parts)
    (before after : Bytes) :
    readBinaryDatetime (before ++ (v.data parts ++ after)) before.length =
      (v.secondText, before.length + (v.data parts).length) := by
  have hDate : v.dateBytes.length = 4 := rfl
  have hLong : ∀ (size : UInt8) (rest : Bytes), 7 ≤ size.toNat → size.toNat = 7 + rest.length →
      readBinaryDatetime (before ++ (size :: v.dateBytes ++
          ([v.hour, v.minute, v.second] ++ (rest ++ after)))) before.length =
        (v.secondText, before.length +
          (size :: v.dateBytes ++ [v.hour, v.minute, v.second] ++ rest).length) := by
    intro size rest hSeven hSize
    have hByte : byteAt (before ++ (size :: v.dateBytes ++ ([v.hour, v.minute, v.second] ++
        (rest ++ after)))) before.length = size.toNat := byteAt_append_zero ..
    have hHour : byteAt (before ++ (size :: v.dateBytes ++ ([v.hour, v.minute, v.second] ++
        (rest ++ after)))) (before.length + 1 + 4) = v.hour.toNat := byteAt_append before _ 5
    have hMinute : byteAt (before ++ (size :: v.dateBytes ++ ([v.hour, v.minute, v.second] ++
        (rest ++ after)))) (before.length + 1 + 5) = v.minute.toNat := byteAt_append before _ 6
    have hSecond : byteAt (before ++ (size :: v.dateBytes ++ ([v.hour, v.minute, v.second] ++
        (rest ++ after)))) (before.length + 1 + 6) = v.second.toNat := byteAt_append before _ 7
    unfold readBinaryDatetime
    rw [if_neg (by simp only [List.length_append, List.length_cons]; omega)]
    simp only [hByte, hHour, hMinute, hSecond]
    rw [if_neg (by simp only [List.length_append, List.length_cons, hDate, List.length_nil]; omega),
      dateText_data, if_pos hSeven, if_pos hSeven, if_pos hSeven]
    simp only [List.length_append, List.length_cons, List.length_nil, hDate, Prod.mk.injEq]
    refine ⟨rfl, by omega⟩
  rcases parts with _ | _ | _ | _
  · rw [show v = ⟨0, 0, 0, 0, 0, 0, 0⟩ from hCovered]
    have hByte : byteAt (before ++ ([0] ++ after)) before.length = 0 := byteAt_append_zero ..
    show readBinaryDatetime (before ++ ([0] ++ after)) before.length = _
    unfold readBinaryDatetime
    rw [if_neg (by simp only [List.length_append, List.length_singleton]; omega)]
    simp only [hByte]
    rw [if_pos (.inl (by omega))]
    rfl
  · obtain ⟨hHour, hMinute, hSecond, -⟩ := hCovered
    have hByte : byteAt (before ++ (4 :: v.dateBytes ++ after)) before.length = 4 :=
      byteAt_append_zero ..
    have hZero : ¬ 7 ≤ 4 := by omega
    show readBinaryDatetime (before ++ (4 :: v.dateBytes ++ after)) before.length = _
    unfold readBinaryDatetime
    rw [if_neg (by simp only [List.length_append, List.length_cons]; omega)]
    simp only [hByte]
    rw [if_neg (by simp only [List.length_append, List.length_cons, hDate]; omega), dateText_data,
      if_neg hZero]
    unfold DateTime.secondText
    rw [hHour, hMinute, hSecond]
    rfl
  · have hRead := hLong 7 [] (by decide) rfl
    simpa only [DateTime.data, List.cons_append, List.append_assoc, List.append_nil,
      List.nil_append] using hRead
  · have hRead := hLong 11 (toLe 4 v.micro.toNat) (by decide) rfl
    simpa only [DateTime.data, List.cons_append, List.append_assoc] using hRead

theorem readBinaryParam_date (t : DateType) {payload : Bytes} {pos : Nat} (hInside : pos < payload.length) :
    readBinaryParam payload pos t.code.toNat =
      if t = .date then readBinaryDate payload pos else readBinaryDatetime payload pos := by
  unfold readBinaryParam
  rw [if_neg (by omega)]
  rcases t with _ | _ | _ <;> rfl

/-- What is read as a DATETIME has a blank in it. -/
theorem blank_mem_readBinaryDatetime (payload : Bytes) (pos : Nat) :
    ' ' ∈ (readBinaryDatetime payload pos).1 := by
  have hZero : ' ' ∈ ("0000-00-00 00:00:00" : Str) := by decide
  unfold readBinaryDatetime
  split
  · exact hZero
  · simp only []
    split
    · exact hZero
    · simp only [List.mem_append]
      exact .inl (.inl (.inl (.inl (.inl (.inr (by decide))))))

/-- The text of a TIME has none. -/
theorem blank_notMem_text (v : Time) : ' ' ∉ v.text := by
  have hDigits : ∀ width n : Nat, ' ' ∉ padZero width n := by
    intro width n h
    exact absurd (isDigit_padZero h) (by decide)
  unfold Time.text fraction
  simp only [List.mem_append, not_or]
  refine ⟨⟨⟨⟨⟨⟨?_, hDigits _ _⟩, by decide⟩, hDigits _ _⟩, by decide⟩, hDigits _ _⟩, ?_⟩
  · split <;> decide
  · split
    · decide
    · simp only [List.mem_append, not_or]
      exact ⟨by decide, hDigits _ _⟩

-- ---------------------------------------------------------------------------
-- One parameter
-- ---------------------------------------------------------------------------

namespace WireParam

theorem length_putLenenc_pos (n : Nat) : 0 < (putLenenc n).length := by
  unfold putLenenc
  split
  · exact Nat.one_pos
  · split
    · exact Nat.succ_pos _
    · split <;> exact Nat.succ_pos _

theorem length_data_pos {p : WireParam} (h : p.isNull = false) : 0 < p.data.length := by
  rcases p with ⟨code, flag⟩ | ⟨t, unsigned, bits, hRange⟩ | ⟨code, flag, hString, b⟩ |
    ⟨t, flag, parts, v, hCovered, hFits⟩ | ⟨flag, parts, v, hCovered⟩
  · exact absurd h.symm Bool.false_ne_true
  · rcases t with _ | _ | _ | _ <;> exact Nat.succ_pos _
  · have hPrefix := length_putLenenc_pos b.length
    show 0 < (putLenenc b.length ++ b).length
    rw [List.length_append]
    omega
  · rcases parts with _ | _ | _ | _ <;> exact Nat.succ_pos _
  · rcases parts with _ | _ | _ <;> exact Nat.succ_pos _

/-- A parameter that arrives is read to its end. -/
theorem read_of_decodes {p : WireParam} (hValue : p.isNull = false) (h : p.Decodes)
    (before after : Bytes) :
    ∃ s, p.Shows (some s) ∧
      readBinaryParam (before ++ (p.data ++ after)) before.length p.code.toNat =
        (s, before.length + p.data.length) := by
  have hPos := length_data_pos hValue
  have hInside : before.length < (before ++ (p.data ++ after)).length := by
    simp only [List.length_append]
    omega
  rcases p with ⟨code, flag⟩ | ⟨t, unsigned, bits, hRange⟩ | ⟨code, flag, hString, b⟩ |
    ⟨t, flag, parts, v, hCovered, hFits⟩ | ⟨flag, parts, v, hCovered⟩
  · exact absurd hValue.symm Bool.false_ne_true
  · refine ⟨intText (signedOf t.size bits), ?_, ?_⟩
    · by_cases hUnsigned : unsigned = true
      · simp only [Shows, if_pos hUnsigned, (intText_signedOf hRange).2 (h hUnsigned)]
      · simp only [Shows, if_neg hUnsigned]
    · have hRead := readBinaryParam_int t hRange before after
      simp only [data, code, hRead, length_toLe]
  · obtain ⟨⟨s, rfl⟩, hShort⟩ := h
    rw [length_bytes] at hShort
    have hRead := readLenencBytesAsStr_putLenencStr before after hShort
    have hData : putLenenc (bytes s).length ++ bytes s = putLenencStr s := by
      rw [length_bytes]
      rfl
    refine ⟨s, ⟨s, rfl, rfl⟩, ?_⟩
    have hString' := readBinaryParam_string hString hInside
    simp only [data, hData, hRead] at hString' ⊢
    exact hString'
  · refine ⟨t.text v, rfl, ?_⟩
    have hMicro : v.micro = 0 := h
    have hText : v.text = v.secondText := by
      unfold DateTime.text fraction
      rw [if_pos hMicro, List.append_nil]
    have hDate := readBinaryDate_data hCovered before after
    have hSeconds := readBinaryDatetime_data hCovered before after
    have hRead := readBinaryParam_date t hInside
    simp only [data, code] at hRead ⊢
    rw [hRead]
    rcases t with _ | _ | _
    · rw [if_pos rfl, hDate]
      rfl
    · rw [if_neg (by decide), hSeconds, ← hText]
      rfl
    · rw [if_neg (by decide), hSeconds, ← hText]
      rfl
  · exact h.elim

/-- Another is read as something else. -/
theorem not_shows_of_not_decodes {p : WireParam} (h : ¬ p.Decodes) (before after : Bytes) :
    ¬ p.Shows (some (readBinaryParam (before ++ (p.data ++ after)) before.length p.code.toNat).1) := by
  rcases p with ⟨code, flag⟩ | ⟨t, unsigned, bits, hRange⟩ | ⟨code, flag, hString, b⟩ |
    ⟨t, flag, parts, v, hCovered, hFits⟩ | ⟨flag, parts, v, hCovered⟩
  · exact absurd trivial h
  · -- an unsigned number with its top bit set
    have hRead := readBinaryParam_int t hRange before after
    obtain ⟨hUnsigned, hTop⟩ := Classical.not_imp.1 h
    simp only [Shows, data, code, hRead, if_pos hUnsigned]
    intro hSame
    exact hTop ((intText_signedOf hRange).1 (Option.some.inj hSame))
  · -- bytes that are no text, or a length prefix of eight bytes
    rintro ⟨s, hSome, hBytes⟩
    refine h ⟨⟨s, hBytes⟩, ?_⟩
    by_contra hLong
    have hPrefix : putLenenc b.length = 0xfe :: toLe 8 b.length := by
      unfold putLenenc
      rw [if_neg (by omega), if_neg (by omega), if_neg (by omega)]
    have hPos := length_data_pos (p := .string code flag hString b) rfl
    have hInside : before.length < (before ++ ((putLenenc b.length ++ b) ++ after)).length := by
      simp only [List.length_append, hPrefix, List.length_cons]
      omega
    have hByte : byteAt (before ++ ((putLenenc b.length ++ b) ++ after)) before.length = 0xfe := by
      rw [hPrefix]
      exact byteAt_append_zero ..
    have hShort := byteLen_longPrefix hByte
    have hSame : (readLenencBytesAsStr (before ++ ((putLenenc b.length ++ b) ++ after)) before.length).1 =
        s := by
      rw [← readBinaryParam_string hString hInside]
      exact Option.some.inj hSome
    rw [hSame, ← length_bytes, hBytes] at hShort
    omega
  · -- microseconds are dropped
    have hMicro : v.micro ≠ 0 := h
    have hNoDate : t ≠ .date := fun hDate => hMicro (hFits hDate).2.2.2
    have hPos := length_data_pos (p := .date t flag parts v hCovered hFits) rfl
    have hInside : before.length < (before ++ (v.data parts ++ after)).length := by
      have hData : 0 < (v.data parts).length := hPos
      simp only [List.length_append]
      omega
    have hRead := readBinaryParam_date t hInside
    have hText : t.text v = v.secondText ++ fraction v.micro := by
      rcases t with _ | _ | _
      · exact absurd rfl hNoDate
      · rfl
      · rfl
    rw [if_neg hNoDate, readBinaryDatetime_data hCovered] at hRead
    simp only [Shows, data, code, hRead, hText]
    intro hSame
    have hNone := List.self_eq_append_right.1 (Option.some.inj hSame)
    unfold fraction at hNone
    rw [if_neg hMicro] at hNone
    exact absurd hNone (List.cons_ne_nil _ _)
  · -- a TIME is read as a DATETIME
    have hPos := length_data_pos (p := .time flag parts v hCovered) rfl
    have hInside : before.length < (before ++ (v.data parts ++ after)).length := by
      have hData : 0 < (v.data parts).length := hPos
      simp only [List.length_append]
      omega
    have hRead : readBinaryParam (before ++ (v.data parts ++ after)) before.length 0x0b =
        readBinaryDatetime (before ++ (v.data parts ++ after)) before.length := by
      unfold readBinaryParam
      rw [if_neg (by omega)]
      rfl
    have hBlank := blank_mem_readBinaryDatetime (before ++ (v.data parts ++ after)) before.length
    intro hSame
    have hText : (readBinaryParam (before ++ (v.data parts ++ after)) before.length 0x0b).1 = v.text :=
      Option.some.inj hSame
    rw [hRead] at hText
    rw [hText] at hBlank
    exact blank_notMem_text v hBlank

end WireParam

-- ---------------------------------------------------------------------------
-- All parameters
-- ---------------------------------------------------------------------------

/-- One cursor goes over the values: up to the first that is read wrongly it
stands where the next one begins. -/
theorem readParams_shows_iff (payload nullBitmap : Bytes) (typeOf : Nat → Nat) (ps : List WireParam) :
    ∀ (i : Nat) (before : Bytes), payload = before ++ ps.flatMap WireParam.data →
      (∀ j p, ps[j]? = some p →
        (byteAt nullBitmap ((i + j) / 8) / 2 ^ ((i + j) % 8) % 2 = 1 ↔ p.isNull = true) ∧
          typeOf (i + j) = p.code.toNat) →
      (List.Forall₂ WireParam.Shows ps
          (readParams payload nullBitmap typeOf ps.length i before.length) ↔
        ∀ p ∈ ps, p.Decodes) := by
  induction ps with
  | nil =>
    intro i before _ _
    exact ⟨fun _ p hp => absurd hp List.not_mem_nil, fun _ => .nil⟩
  | cons p ps ih =>
    intro i before hPayload hHead
    obtain ⟨hNull, hType⟩ := hHead 0 p rfl
    rw [Nat.add_zero] at hNull hType
    have hRest := ih (i + 1) (before ++ p.data)
      (by rw [hPayload, List.flatMap_cons, List.append_assoc]) fun j q hj => by
        have hAt := hHead (j + 1) q hj
        rwa [show i + (j + 1) = i + 1 + j by omega] at hAt
    rw [List.length_append] at hRest
    rw [List.length_cons, readParams, List.forall_mem_cons]
    rcases hIs : p.isNull with _ | _
    · rw [if_neg (by rw [hNull, hIs]; exact Bool.false_ne_true), hType, hPayload, List.flatMap_cons]
      by_cases hDecodes : p.Decodes
      · obtain ⟨s, hShows, hRead⟩ := WireParam.read_of_decodes hIs hDecodes before
          (ps.flatMap WireParam.data)
        rw [hRead]
        simp only []
        rw [← List.flatMap_cons, ← hPayload, List.forall₂_cons, hRest]
        exact ⟨fun hBoth => ⟨hDecodes, hBoth.2⟩, fun hBoth => ⟨hShows, hBoth.2⟩⟩
      · have hWrong := WireParam.not_shows_of_not_decodes hDecodes before (ps.flatMap WireParam.data)
        rw [List.forall₂_cons]
        exact ⟨fun hBoth => absurd hBoth.1 hWrong, fun hBoth => absurd hBoth.1 hDecodes⟩
    · rcases p with ⟨code, flag⟩ | _ | _ | _ | _
      · rw [if_pos (hNull.2 hIs), List.forall₂_cons]
        have hHere : (WireParam.null code flag).Decodes := trivial
        exact and_congr ⟨fun _ => hHere, fun _ => rfl⟩ hRest
      all_goals exact absurd hIs Bool.false_ne_true

/-- **Parameters of every type.** The texts that are read for a list of
parameters are their values if and only if each of them is one that arrives: no
TIME, no unsigned number with its top bit set, no date with microseconds, no
string that is not UTF-8 or takes 16 MiB or more. -/
theorem params_shown_iff (stmtId : Nat) (ps : List WireParam) :
    List.Forall₂ WireParam.Shows ps (parseExecuteParams (wirePayload stmtId ps) ps.length) ↔
      ∀ p ∈ ps, p.Decodes := by
  have hLength : (ps.map WireParam.isNull).length = ps.length := List.length_map ..
  by_cases hNone : ps.length = 0
  · obtain rfl := List.eq_nil_of_length_eq_zero hNone
    exact ⟨fun _ p hp => absurd hp List.not_mem_nil, fun _ => .nil⟩
  · have hTyped := parseExecuteParams_typed (ps.map WireParam.isNull)
      (ps.flatMap WireParam.data) (length_executeHead stmtId)
      (by rw [hLength]; exact length_pairs WireParam.code WireParam.flag ps) (by rwa [hLength])
    rw [hLength] at hTyped
    unfold wirePayload
    rw [hTyped]
    refine readParams_shows_iff _ _ _ ps 0 _ rfl fun j p hAt => ?_
    have hType := byteAt_pairs WireParam.code WireParam.flag ps hAt (ps.flatMap WireParam.data)
    rw [Nat.zero_add]
    exact ⟨flagBytes_bit _ (by rw [List.getElem?_map, hAt]; rfl), hType⟩

end ParamTypes

-- ---------------------------------------------------------------------------
-- An unsigned number
-- ---------------------------------------------------------------------------

section Unsigned

local instance paramTypesPlatform : Platform := tablePlatform []

/-- An unsigned TINY 200 is read as -56. -/
theorem not_params_shown :
    ¬ ∀ (stmtId : Nat) (ps : List WireParam),
      List.Forall₂ WireParam.Shows ps (parseExecuteParams (wirePayload stmtId ps) ps.length) := by
  intro hAll
  have hShown := hAll 1 [.int .tiny true 200 (by decide)]
  have hRead : parseExecuteParams (wirePayload 1 [.int .tiny true 200 (by decide)]) 1 =
      [some ("-56" : Str)] := by decide +kernel
  rw [List.length_singleton, hRead] at hShown
  obtain ⟨hValue, -⟩ := List.forall₂_cons.1 hShown
  have hText : (some ("-56" : Str)) = some (intText 200) := hValue
  exact absurd hText (by decide +kernel)

end Unsigned

end RunAlexDb
