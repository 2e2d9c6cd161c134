import RunAlexDb.Lib.Cursors
import RunAlexDb.Model.Protocol

/-!
# ParamBounds — the parameters of COM_STMT_EXECUTE, every access checked

The decoders of a parameter list with their reads as the source makes them: an
index or a slice out of range panics, which is `none` here. None of them does, from
any cursor and on any bytes, and the cursor never moves back.

Main results: `parseExecuteParams_checked` and `parseExecuteParams_bounds`.
-/

set_option linter.unusedSectionVars false

namespace RunAlexDb

open Text Platform Cursors

variable [Platform]

-- ---------------------------------------------------------------------------
-- The decoders
-- ---------------------------------------------------------------------------

namespace Checked

def readLenencBytesAsStr (payload : Bytes) (pos : Nat) : Option (Str × Nat) :=
  if payload.length ≤ pos then some ([], pos)
  else do
    let c := (← payload[pos]?).toNat
    let body (len inc : Nat) : Option (Str × Nat) :=
      if payload.length < pos + inc + len then some ([], pos + inc)
      else do
        let s ← slice payload (pos + inc) (pos + inc + len)
        return (fromUtf8Lossy s, pos + inc + len)
    if c = 0xfb then return ([], pos + 1)
    else if c = 0xfc then
      if payload.length ≤ pos + 2 then return ([], pos)
      else
        let b1 ← payload[pos + 1]?
        let b2 ← payload[pos + 2]?
        body (leNat [b1, b2]) 3
    else if c = 0xfd then
      if payload.length ≤ pos + 3 then return ([], pos)
      else
        let b1 ← payload[pos + 1]?
        let b2 ← payload[pos + 2]?
        let b3 ← payload[pos + 3]?
        body (leNat [b1, b2, b3]) 4
    else body c 1

/-- Year, month and day at the cursor. -/
def dateText (payload : Bytes) (pos : Nat) : Option Str := do
  let y0 ← payload[pos]?
  let y1 ← payload[pos + 1]?
  let m ← payload[pos + 2]?
  let d ← payload[pos + 3]?
  return padZero 4 (leNat [y0, y1]) ++ "-" ++ padZero 2 m.toNat ++ "-" ++ padZero 2 d.toNat

def readBinaryDate (payload : Bytes) (pos : Nat) : Option (Str × Nat) :=
  if payload.length ≤ pos then some ("0000-00-00", pos)
  else do
    let len := (← payload[pos]?).toNat
    if len < 4 ∨ payload.length < pos + 1 + 4 then return ("0000-00-00", pos + 1 + len)
    else
      let date ← dateText payload (pos + 1)
      return (date, pos + 1 + len)

def readBinaryDatetime (payload : Bytes) (pos : Nat) : Option (Str × Nat) :=
  if payload.length ≤ pos then some ("0000-00-00 00:00:00", pos)
  else do
    let len := (← payload[pos]?).toNat
    if len < 4 ∨ payload.length < pos + 1 + len then return ("0000-00-00 00:00:00", pos + 1 + len)
    else
      let date ← dateText payload (pos + 1)
      let field (i : Nat) : Option Str :=
        if 7 ≤ len then do
          let b ← payload[pos + 1 + i]?
          return padZero 2 b.toNat
        else some (padZero 2 0)
      let h ← field 4
      let mi ← field 5
      let s ← field 6
      return (date ++ " " ++ h ++ ":" ++ mi ++ ":" ++ s, pos + 1 + len)

/-- `n` bytes at the cursor, cut out as one slice. -/
def readFixed (payload : Bytes) (pos n : Nat) (show_ : Bytes → Str) : Option (Str × Nat) :=
  if payload.length < pos + n then some ([], pos)
  else do
    let b ← slice payload pos (pos + n)
    return (show_ b, pos + n)

/-- The one byte of a TINY, which is read without a check of its own. -/
def readTiny (payload : Bytes) (pos : Nat) : Option (Str × Nat) := do
  let b ← payload[pos]?
  return (intText (signedLe 1 [b]), pos + 1)

/-- The two bytes of a SHORT, read one by one. -/
def readShort (payload : Bytes) (pos : Nat) : Option (Str × Nat) :=
  if payload.length < pos + 2 then some ([], pos)
  else do
    let b0 ← payload[pos]?
    let b1 ← payload[pos + 1]?
    return (intText (signedLe 2 [b0, b1]), pos + 2)

def readBinaryParam (payload : Bytes) (pos typeByte : Nat) : Option (Str × Nat) :=
  if payload.length ≤ pos then some ([], pos)
  else if typeByte = 0x01 then readTiny payload pos
  else if typeByte = 0x02 ∨ typeByte = 0x82 then readShort payload pos
  else if typeByte = 0x03 ∨ typeByte = 0x09 then
    readFixed payload pos 4 fun b => intText (signedLe 4 b)
  else if typeByte = 0x04 then
    readFixed payload pos 4 fun b => f32ToString (UInt32.ofNat (leNat b))
  else if typeByte = 0x05 then
    readFixed payload pos 8 fun b => f64ToString ⟨UInt64.ofNat (leNat b)⟩
  else if typeByte = 0x08 then readFixed payload pos 8 fun b => intText (signedLe 8 b)
  else if typeByte = 0x0a ∨ typeByte = 0x0e then readBinaryDate payload pos
  else if typeByte = 0x07 ∨ typeByte = 0x0b ∨ typeByte = 0x0c then readBinaryDatetime payload pos
  else readLenencBytesAsStr payload pos

/-- A type byte and its flag. -/
def readType (payload : Bytes) (pos : Nat) : Option ((UInt8 × Bool) × Nat) := do
  let t ← payload[pos]?
  let flag ← payload[pos + 1]?
  return ((t, flag != 0), pos + 2)

/-- The flag in front of the types, 0 where it is missing. -/
def readNewBound (payload : Bytes) (pos : Nat) : Option UInt8 :=
  if pos < payload.length then payload[pos]? else some 0

/-- The types when they are sent and all there, else strings; the cursor behind each. -/
def readTypes (payload : Bytes) (newBound : UInt8) (n pos : Nat) :
    Option (List ((UInt8 × Bool) × Nat)) :=
  if newBound = 1 ∧ pos + n * 2 ≤ payload.length then
    readAll (List.replicate n (readType payload)) pos
  else some (List.replicate n ((0xfd, false), pos))

/-- One round of the loop over the parameters. -/
def readParam (payload nullBitmap : Bytes) (types : List (UInt8 × Bool)) (i pos : Nat) :
    Option (Option Str × Nat) := do
  let b ← nullBitmap[i / 8]?
  if b.toNat / 2 ^ (i % 8) % 2 = 1 then return (none, pos)
  else
    let t ← types[i]?
    let val ← readBinaryParam payload pos t.1.toNat
    return (some val.1, val.2)

/-- The parameters, and the positions the cursor goes through. -/
def parseExecuteParams (payload : Bytes) (numParams : Nat) : Option (List (Option Str) × List Nat) :=
  let n := numParams
  let bitmapLen := (n + 7) / 8
  if n = 0 ∨ payload.length < 10 then some ([], [])
  else if payload.length < 10 + bitmapLen then some (List.replicate n none, [])
  else do
    let nullBitmap ← slice payload 10 (10 + bitmapLen)
    let pos := 10 + bitmapLen
    let newBound ← readNewBound payload pos
    let start := pos + 1
    let types ← readTypes payload newBound n start
    let cursors := pos :: start :: types.map Prod.snd
    let params ← readAll ((List.range n).map (readParam payload nullBitmap (types.map Prod.fst)))
      (cursors.getLastD start)
    return (params.map Prod.fst, cursors ++ params.map Prod.snd)

end Checked

-- ---------------------------------------------------------------------------
-- No decoder reads out of range
-- ---------------------------------------------------------------------------

theorem index_eq {b : Bytes} {i : Nat} (h : i < b.length) : b[i]? = some (b.getD i 0) :=
  getElem?_eq_getD h 0

theorem take_two {b : Bytes} {i : Nat} (h : i + 2 ≤ b.length) :
    (b.drop i).take 2 = [b.getD i 0, b.getD (i + 1) 0] := by
  rw [take_drop_succ (by omega) 1 0, take_drop_succ (by omega) 0 0, List.take_zero]

/-- The text behind the length. -/
theorem body_checked {payload : Bytes} (start len : Nat) :
    (if payload.length < start + len then some (([] : Str), start)
      else (slice payload start (start + len)).bind fun s => some (fromUtf8Lossy s, start + len)) =
      some (if payload.length < start + len then ([], start)
        else (fromUtf8Lossy ((payload.drop start).take len), start + len)) := by
  split
  · rfl
  · rw [slice_eq (by omega)]
    rfl

theorem readLenencBytesAsStr_checked (payload : Bytes) (pos : Nat) :
    Checked.readLenencBytesAsStr payload pos = some (readLenencBytesAsStr payload pos) := by
  unfold Checked.readLenencBytesAsStr readLenencBytesAsStr
  by_cases hEnd : payload.length ≤ pos
  · rw [if_pos hEnd, if_pos hEnd]
  rw [if_neg hEnd, if_neg hEnd, index_eq (by omega)]
  simp only [Option.bind_eq_bind, Option.bind_some, Option.pure_def, body_checked]
  have hByte : (payload.getD pos 0).toNat = byteAt payload pos := rfl
  rw [hByte]
  by_cases hNull : byteAt payload pos = 0xfb
  · rw [if_pos hNull, if_pos hNull]
  rw [if_neg hNull, if_neg hNull]
  by_cases hTwo : byteAt payload pos = 0xfc
  · rw [if_pos hTwo, if_pos hTwo]
    by_cases hCut : payload.length ≤ pos + 2
    · rw [if_pos hCut, if_pos hCut]
    · rw [if_neg hCut, if_neg hCut, index_eq (i := pos + 1) (by omega),
        index_eq (i := pos + 2) (by omega), take_two (by omega)]
      rfl
  rw [if_neg hTwo, if_neg hTwo]
  by_cases hThree : byteAt payload pos = 0xfd
  · rw [if_pos hThree, if_pos hThree]
    by_cases hCut : payload.length ≤ pos + 3
    · rw [if_pos hCut, if_pos hCut]
    · rw [if_neg hCut, if_neg hCut, index_eq (i := pos + 1) (by omega),
        index_eq (i := pos + 2) (by omega), index_eq (i := pos + 3) (by omega),
        take_drop_succ (i := pos + 1) (by omega) 2 0, take_two (i := pos + 2) (by omega)]
      rfl
  · rw [if_neg hThree, if_neg hThree]

theorem dateText_checked {payload : Bytes} {pos : Nat} (h : pos + 4 ≤ payload.length) :
    Checked.dateText payload pos = some (dateText payload pos) := by
  unfold Checked.dateText dateText
  rw [index_eq (i := pos) (by omega), index_eq (i := pos + 1) (by omega),
    index_eq (i := pos + 2) (by omega), index_eq (i := pos + 3) (by omega), take_two (by omega)]
  rfl

theorem readBinaryDate_checked (payload : Bytes) (pos : Nat) :
    Checked.readBinaryDate payload pos = some (readBinaryDate payload pos) := by
  unfold Checked.readBinaryDate readBinaryDate
  by_cases hEnd : payload.length ≤ pos
  · rw [if_pos hEnd, if_pos hEnd]
  rw [if_neg hEnd, if_neg hEnd, index_eq (by omega)]
  have hByte : (payload.getD pos 0).toNat = byteAt payload pos := rfl
  simp only [Option.bind_eq_bind, Option.bind_some, Option.pure_def, hByte]
  by_cases hCut : byteAt payload pos < 4 ∨ payload.length < pos + 1 + 4
  · rw [if_pos hCut, if_pos hCut]
  · rw [if_neg hCut, if_neg hCut, dateText_checked (by omega)]
    rfl

theorem readBinaryDatetime_checked (payload : Bytes) (pos : Nat) :
    Checked.readBinaryDatetime payload pos = some (readBinaryDatetime payload pos) := by
  unfold Checked.readBinaryDatetime readBinaryDatetime
  by_cases hEnd : payload.length ≤ pos
  · rw [if_pos hEnd, if_pos hEnd]
  rw [if_neg hEnd, if_neg hEnd, index_eq (by omega)]
  have hByte : (payload.getD pos 0).toNat = byteAt payload pos := rfl
  simp only [Option.bind_eq_bind, Option.bind_some, Option.pure_def, hByte]
  by_cases hCut : byteAt payload pos < 4 ∨ payload.length < pos + 1 + byteAt payload pos
  · rw [if_pos hCut, if_pos hCut]
  · rw [if_neg hCut, if_neg hCut, dateText_checked (by omega)]
    by_cases hTime : 7 ≤ byteAt payload pos
    · simp only [if_pos hTime]
      rw [index_eq (i := pos + 1 + 4) (by omega), index_eq (i := pos + 1 + 5) (by omega),
        index_eq (i := pos + 1 + 6) (by omega)]
      rfl
    · simp only [if_neg hTime]
      rfl

theorem readFixed_checked (payload : Bytes) (pos n : Nat) (show_ : Bytes → Str) :
    Checked.readFixed payload pos n show_ = some (readFixed payload pos n show_) := by
  unfold Checked.readFixed readFixed
  by_cases hCut : payload.length < pos + n
  · rw [if_pos hCut, if_pos hCut]
  · rw [if_neg hCut, if_neg hCut, slice_eq (by omega)]
    rfl

theorem readTiny_checked {payload : Bytes} {pos : Nat} (h : pos < payload.length) :
    Checked.readTiny payload pos =
      some (readFixed payload pos 1 fun b => intText (signedLe 1 b)) := by
  unfold Checked.readTiny readFixed
  rw [if_neg (by omega), index_eq h, take_drop_succ h 0 0, List.take_zero]
  rfl

theorem readShort_checked (payload : Bytes) (pos : Nat) :
    Checked.readShort payload pos =
      some (readFixed payload pos 2 fun b => intText (signedLe 2 b)) := by
  unfold Checked.readShort readFixed
  by_cases hCut : payload.length < pos + 2
  · rw [if_pos hCut, if_pos hCut]
  · rw [if_neg hCut, if_neg hCut, index_eq (i := pos) (by omega), index_eq (i := pos + 1) (by omega),
      take_two (by omega)]
    rfl

/-- No decoder reads out of range, whatever the type byte. -/
theorem readBinaryParam_checked (payload : Bytes) (pos typeByte : Nat) :
    Checked.readBinaryParam payload pos typeByte = some (readBinaryParam payload pos typeByte) := by
  unfold Checked.readBinaryParam readBinaryParam
  by_cases hEnd : payload.length ≤ pos
  · rw [if_pos hEnd, if_pos hEnd]
  rw [if_neg hEnd, if_neg hEnd, readTiny_checked (by omega), readShort_checked, readFixed_checked,
    readFixed_checked, readFixed_checked, readFixed_checked, readBinaryDate_checked,
    readBinaryDatetime_checked, readLenencBytesAsStr_checked]
  simp only [apply_ite some]

-- ---------------------------------------------------------------------------
-- No decoder moves the cursor back
-- ---------------------------------------------------------------------------

/-- The cursor moves forward, and ends at most a length byte behind the payload. -/
def Forward (payload : Bytes) (pos next : Nat) : Prop :=
  pos ≤ next ∧ (pos ≤ payload.length + 255 → next ≤ payload.length + 255)

theorem forward_refl (payload : Bytes) (pos : Nat) : Forward payload pos pos :=
  ⟨Nat.le_refl pos, id⟩

theorem byteAt_lt (payload : Bytes) (pos : Nat) : byteAt payload pos < 256 :=
  (payload.getD pos 0).toNat_lt

theorem forward_readFixed (payload : Bytes) (pos n : Nat) (show_ : Bytes → Str) :
    Forward payload pos (readFixed payload pos n show_).2 := by
  unfold readFixed Forward
  split
  · exact forward_refl payload pos
  · exact ⟨Nat.le_add_right pos n, fun _ => by omega⟩

theorem forward_readBinaryDate (payload : Bytes) (pos : Nat) :
    Forward payload pos (readBinaryDate payload pos).2 := by
  have hByte := byteAt_lt payload pos
  unfold readBinaryDate Forward
  dsimp only
  split_ifs with hEnd
  · exact forward_refl payload pos
  · exact ⟨by omega, fun _ => by omega⟩
  · exact ⟨by omega, fun _ => by omega⟩

theorem forward_readBinaryDatetime (payload : Bytes) (pos : Nat) :
    Forward payload pos (readBinaryDatetime payload pos).2 := by
  have hByte := byteAt_lt payload pos
  unfold readBinaryDatetime Forward
  dsimp only
  split
  · exact forward_refl payload pos
  · split
    · exact ⟨by omega, fun _ => by omega⟩
    · exact ⟨by omega, fun _ => by omega⟩

theorem forward_readLenencBytesAsStr (payload : Bytes) (pos : Nat) :
    Forward payload pos (readLenencBytesAsStr payload pos).2 := by
  have hByte := byteAt_lt payload pos
  unfold readLenencBytesAsStr Forward
  dsimp only
  -- a text is stepped over only when all of it is there
  split_ifs <;> exact ⟨by omega, fun _ => by omega⟩

theorem forward_readBinaryParam (payload : Bytes) (pos typeByte : Nat) :
    Forward payload pos (readBinaryParam payload pos typeByte).2 := by
  unfold readBinaryParam
  split_ifs
  · exact forward_refl payload pos
  · exact forward_readFixed ..
  · exact forward_readFixed ..
  · exact forward_readFixed ..
  · exact forward_readFixed ..
  · exact forward_readFixed ..
  · exact forward_readFixed ..
  · exact forward_readBinaryDate ..
  · exact forward_readBinaryDatetime ..
  · exact forward_readLenencBytesAsStr ..

-- ---------------------------------------------------------------------------
-- The loop over the parameters
-- ---------------------------------------------------------------------------

/-- One round of the loop, its reads unchecked. -/
def paramReader (payload nullBitmap : Bytes) (typeOf : Nat → Nat) (i pos : Nat) : Option Str × Nat :=
  if byteAt nullBitmap (i / 8) / 2 ^ (i % 8) % 2 = 1 then (none, pos)
  else ((some (readBinaryParam payload pos (typeOf i)).1), (readBinaryParam payload pos (typeOf i)).2)

theorem readParams_eq_runAll (payload nullBitmap : Bytes) (typeOf : Nat → Nat) (n i pos : Nat) :
    readParams payload nullBitmap typeOf n i pos =
      (runAll ((List.range' i n).map (paramReader payload nullBitmap typeOf)) pos).map Prod.fst := by
  induction n generalizing i pos with
  | zero => rfl
  | succ n ih =>
    rw [readParams, List.range'_succ, List.map_cons, runAll, List.map_cons]
    by_cases hNull : byteAt nullBitmap (i / 8) / 2 ^ (i % 8) % 2 = 1
    · have hHere : paramReader payload nullBitmap typeOf i pos = (none, pos) := if_pos hNull
      rw [if_pos hNull, hHere, ih]
    · have hHere : paramReader payload nullBitmap typeOf i pos = (_, _) := if_neg hNull
      rw [if_neg hNull, hHere]
      exact congrArg _ (ih (i + 1) _)

theorem forward_paramReader (payload nullBitmap : Bytes) (typeOf : Nat → Nat) (i pos : Nat) :
    Forward payload pos (paramReader payload nullBitmap typeOf i pos).2 := by
  unfold paramReader
  split
  · exact forward_refl payload pos
  · exact forward_readBinaryParam payload pos (typeOf i)

theorem readParam_checked {payload nullBitmap : Bytes} {types : List (UInt8 × Bool)} {typeOf : Nat → Nat}
    {i : Nat} {t : UInt8 × Bool} (hBit : i / 8 < nullBitmap.length) (hType : types[i]? = some t)
    (hTypeOf : typeOf i = t.1.toNat) (pos : Nat) :
    Checked.readParam payload nullBitmap types i pos =
      some (paramReader payload nullBitmap typeOf i pos) := by
  have hByte : (nullBitmap.getD (i / 8) 0).toNat = byteAt nullBitmap (i / 8) := rfl
  unfold Checked.readParam paramReader
  rw [index_eq hBit, hType, hTypeOf]
  simp only [Option.bind_eq_bind, Option.bind_some, Option.pure_def, hByte, readBinaryParam_checked,
    apply_ite some]

theorem readType_checked {payload : Bytes} {pos : Nat} (h : pos + 2 ≤ payload.length) :
    Checked.readType payload pos =
      some ((payload.getD pos 0, payload.getD (pos + 1) 0 != 0), pos + 2) := by
  unfold Checked.readType
  rw [index_eq (by omega), index_eq (by omega)]
  rfl

theorem readNewBound_checked (payload : Bytes) (pos : Nat) :
    Checked.readNewBound payload pos = some (payload.getD pos 0) := by
  unfold Checked.readNewBound
  split
  · exact index_eq (by assumption)
  · rw [List.getD_eq_getElem?_getD, List.getElem?_eq_none (by omega)]
    rfl

/-- The types as the parameters use them, and the cursors up to `last` that read them. -/
structure TypesRead (payload : Bytes) (types : List ((UInt8 × Bool) × Nat)) (typeOf : Nat → Nat)
    (n pos last : Nat) : Prop where
  typed : ∀ i < n, ∃ t, (types.map Prod.fst)[i]? = some t ∧ typeOf i = t.1.toNat
  ends : ∃ before, pos :: (pos + 1) :: types.map Prod.snd = before ++ [last]
  order : (pos :: (pos + 1) :: types.map Prod.snd).Pairwise (· ≤ ·)
  inside : ∀ q ∈ pos :: (pos + 1) :: types.map Prod.snd, q ≤ payload.length + 255

/-- Types that are sent. -/
theorem readTypes_sent {payload : Bytes} {n pos : Nat} (hSome : n ≠ 0)
    (h : payload.getD pos 0 = 1 ∧ pos + 1 + n * 2 ≤ payload.length) :
    ∃ types, Checked.readTypes payload (payload.getD pos 0) n (pos + 1) = some types ∧
      TypesRead payload types (fun i => byteAt payload (pos + 1 + 2 * i)) n pos (pos + 1 + 2 * n) := by
  have hRead := readAll_replicate (fun q hq => readType_checked hq) n h.2
  have hCursors : ∀ q ∈ (List.range n).map (fun i => pos + 1 + 2 * (i + 1)),
      pos + 1 ≤ q ∧ q ≤ payload.length + 255 := by
    intro q hq
    obtain ⟨i, hi, rfl⟩ := List.mem_map.1 hq
    have hLt := List.mem_range.1 hi
    exact ⟨by omega, by omega⟩
  unfold Checked.readTypes
  rw [if_pos h, hRead]
  refine ⟨_, rfl, ?_, ?_, ?_, ?_⟩
  · intro i hi
    rw [List.map_map, List.getElem?_map, List.getElem?_range hi]
    exact ⟨_, rfl, rfl⟩
  · rw [List.map_map]
    obtain ⟨m, rfl⟩ : ∃ m, n = m + 1 := ⟨n - 1, by omega⟩
    rw [List.range_succ, List.map_append]
    exact ⟨pos :: (pos + 1) :: (List.range m).map _, rfl⟩
  · rw [List.map_map]
    refine List.pairwise_cons.2 ⟨?_, List.pairwise_cons.2 ⟨fun q hq => (hCursors q hq).1, ?_⟩⟩
    · intro q hq
      rcases List.mem_cons.1 hq with rfl | hq
      · exact Nat.le_succ pos
      · exact Nat.le_of_succ_le (hCursors q hq).1
    · refine List.pairwise_map.2 (List.pairwise_lt_range.imp fun hij => ?_)
      show pos + 1 + 2 * (_ + 1) ≤ pos + 1 + 2 * (_ + 1)
      omega
  · rw [List.map_map]
    intro q hq
    rcases List.mem_cons.1 hq with rfl | hq
    · omega
    · rcases List.mem_cons.1 hq with rfl | hq
      · omega
      · exact (hCursors q hq).2

/-- Types that are not sent, or not all of them. -/
theorem readTypes_default {payload : Bytes} {n pos : Nat} (hPos : pos ≤ payload.length)
    (h : ¬ (payload.getD pos 0 = 1 ∧ pos + 1 + n * 2 ≤ payload.length)) :
    ∃ types, Checked.readTypes payload (payload.getD pos 0) n (pos + 1) = some types ∧
      TypesRead payload types (fun _ => 0xfd) n pos (pos + 1) := by
  unfold Checked.readTypes
  rw [if_neg h]
  refine ⟨_, rfl, ?_, ?_, ?_, ?_⟩
  · intro i hi
    rw [List.map_replicate, List.getElem?_replicate_of_lt hi]
    exact ⟨_, rfl, rfl⟩
  · rw [List.map_replicate]
    exact ⟨pos :: List.replicate n (pos + 1), by
      rw [List.cons_append, ← List.replicate_succ', List.replicate_succ]⟩
  · rw [List.map_replicate, ← List.replicate_succ]
    refine List.pairwise_cons.2 ⟨fun q hq => ?_, List.pairwise_replicate.2 (.inr (Nat.le_refl _))⟩
    rw [List.eq_of_mem_replicate hq]
    exact Nat.le_succ pos
  · rw [List.map_replicate, ← List.replicate_succ]
    intro q hq
    rcases List.mem_cons.1 hq with rfl | hq
    · omega
    · rw [List.eq_of_mem_replicate hq]
      omega

/-- The loop reads what `read_params` reads, in range and forward. -/
theorem readParams_checked {payload nullBitmap : Bytes} {types : List (UInt8 × Bool)}
    {typeOf : Nat → Nat} {n : Nat} (hBits : (n + 7) / 8 ≤ nullBitmap.length)
    (hTypes : ∀ i < n, ∃ t, types[i]? = some t ∧ typeOf i = t.1.toNat) {pos : Nat}
    (hPos : pos ≤ payload.length + 255) :
    ∃ run, readAll ((List.range n).map (Checked.readParam payload nullBitmap types)) pos = some run ∧
      run.map Prod.fst = readParams payload nullBitmap typeOf n 0 pos ∧
      (pos :: run.map Prod.snd).Pairwise (· ≤ ·) ∧
      ∀ q ∈ run.map Prod.snd, q ≤ payload.length + 255 := by
  have hChecked : ∀ i ∈ List.range n, ∀ q, Checked.readParam payload nullBitmap types i q =
      some (paramReader payload nullBitmap typeOf i q) := by
    intro i hi q
    have hLt := List.mem_range.1 hi
    obtain ⟨t, hType, hTypeOf⟩ := hTypes i hLt
    exact readParam_checked (by omega) hType hTypeOf q
  have hForwards : ∀ reader ∈ (List.range n).map (paramReader payload nullBitmap typeOf),
      ∀ q ≤ payload.length + 255, q ≤ (reader q).2 ∧ (reader q).2 ≤ payload.length + 255 := by
    intro reader hReader q hq
    obtain ⟨i, -, rfl⟩ := List.mem_map.1 hReader
    obtain ⟨hForward, hLimit⟩ := forward_paramReader payload nullBitmap typeOf i q
    exact ⟨hForward, hLimit hq⟩
  refine ⟨_, readAll_eq hChecked pos, ?_, cursors_runAll hForwards hPos⟩
  rw [readParams_eq_runAll, List.range_eq_range']

-- ---------------------------------------------------------------------------
-- The whole payload
-- ---------------------------------------------------------------------------

theorem length_readParams (payload nullBitmap : Bytes) (typeOf : Nat → Nat) (n i pos : Nat) :
    (readParams payload nullBitmap typeOf n i pos).length = n := by
  rw [readParams_eq_runAll, List.length_map, length_runAll, List.length_map, List.length_range']

/-- Entry `j` is NULL exactly when its bit is set. -/
theorem readParams_null (payload nullBitmap : Bytes) (typeOf : Nat → Nat) (n i pos : Nat) {j : Nat}
    (hj : j < n) : (readParams payload nullBitmap typeOf n i pos)[j]? = some none ↔
      byteAt nullBitmap ((i + j) / 8) / 2 ^ ((i + j) % 8) % 2 = 1 := by
  induction n generalizing i pos j with
  | zero => omega
  | succ n ih =>
    rw [readParams]
    cases j with
    | zero =>
      rw [Nat.add_zero]
      split
      · rename_i hNull
        exact ⟨fun _ => hNull, fun _ => rfl⟩
      · rename_i hNull
        exact ⟨fun hNone => (nomatch Option.some.inj hNone), fun hSet => absurd hSet hNull⟩
    | succ j =>
      rw [show i + (j + 1) = i + 1 + j by omega]
      split
      · rw [List.getElem?_cons_succ]
        exact ih (i + 1) pos (by omega)
      · exact ih (i + 1) _ (by omega)

/-- Bit `i` of the NULL bitmap, which follows the ten bytes of the header. -/
def nullBit (payload : Bytes) (i : Nat) : Bool := (byteAt payload (10 + i / 8)).testBit (i % 8)

theorem nullBit_eq_true {payload : Bytes} {i n : Nat} (hi : i < n) :
    nullBit payload i = true ↔
      byteAt ((payload.drop 10).take ((n + 7) / 8)) (i / 8) / 2 ^ (i % 8) % 2 = 1 := by
  have hByte : byteAt ((payload.drop 10).take ((n + 7) / 8)) (i / 8) = byteAt payload (10 + i / 8) := by
    unfold byteAt
    rw [List.getD_eq_getElem?_getD, List.getD_eq_getElem?_getD,
      List.getElem?_take_of_lt (by omega), List.getElem?_drop]
  rw [hByte, nullBit, Nat.testBit_eq_decide_div_mod_eq, decide_eq_true_iff]

/-- The parameters behind their types. -/
theorem paramsBehind_checked {payload nullBitmap : Bytes} {types : List ((UInt8 × Bool) × Nat)}
    {typeOf : Nat → Nat} {n pos last : Nat} (hBits : (n + 7) / 8 ≤ nullBitmap.length)
    (hTypes : TypesRead payload types typeOf n pos last) :
    ∃ cursors, ((readAll ((List.range n).map (Checked.readParam payload nullBitmap (types.map Prod.fst)))
        ((pos :: (pos + 1) :: types.map Prod.snd).getLastD (pos + 1))).bind fun params =>
          some (params.map Prod.fst, pos :: (pos + 1) :: types.map Prod.snd ++ params.map Prod.snd)) =
        some (readParams payload nullBitmap typeOf n 0 last, cursors) ∧
      cursors.Pairwise (· ≤ ·) ∧ ∀ q ∈ cursors, q ≤ payload.length + 255 := by
  obtain ⟨before, hEnds⟩ := hTypes.ends
  have hOrder := hTypes.order
  have hInside := hTypes.inside
  rw [hEnds] at hOrder hInside ⊢
  obtain ⟨run, hRun, hValues, hRunOrder, hRunInside⟩ := readParams_checked hBits hTypes.typed
    (hInside last (List.mem_append_right _ (List.mem_singleton.2 rfl)))
  rw [List.getLastD_concat, hRun, ← hValues]
  refine ⟨_, rfl, pairwise_append_last hOrder hRunOrder, fun q hq => ?_⟩
  rcases List.mem_append.1 hq with hq | hq
  · exact hInside q hq
  · exact hRunInside q hq

/-- The checked code returns what the model of the code does. -/
theorem parseExecuteParams_checked (payload : Bytes) (numParams : Nat) :
    ∃ cursors, Checked.parseExecuteParams payload numParams =
        some (parseExecuteParams payload numParams, cursors) ∧
      cursors.Pairwise (· ≤ ·) ∧ ∀ pos ∈ cursors, pos ≤ payload.length + 255 := by
  unfold Checked.parseExecuteParams parseExecuteParams
  dsimp only
  by_cases hShort : numParams = 0 ∨ payload.length < 10
  · rw [if_pos hShort, if_pos hShort]
    exact ⟨[], rfl, List.Pairwise.nil, fun pos hPos => absurd hPos List.not_mem_nil⟩
  rw [if_neg hShort, if_neg hShort]
  by_cases hCut : payload.length < 10 + (numParams + 7) / 8
  · rw [if_pos hCut, if_pos hCut]
    exact ⟨[], rfl, List.Pairwise.nil, fun pos hPos => absurd hPos List.not_mem_nil⟩
  rw [if_neg hCut, if_neg hCut, slice_eq (by omega)]
  have hBits : (numParams + 7) / 8 ≤ ((payload.drop 10).take ((numParams + 7) / 8)).length := by
    rw [List.length_take, List.length_drop]
    omega
  have hSome : numParams ≠ 0 := fun hZero => hShort (.inl hZero)
  have hPos : 10 + (numParams + 7) / 8 ≤ payload.length := by omega
  simp only [Option.bind_eq_bind, Option.bind_some, Option.pure_def, readNewBound_checked]
  generalize 10 + (numParams + 7) / 8 = pos at hPos
  have hByte : byteAt payload pos = 1 ↔ payload.getD pos 0 = 1 := by
    unfold byteAt
    rw [← UInt8.toNat_inj]
    rfl
  by_cases hTyped : payload.getD pos 0 = 1 ∧ pos + 1 + numParams * 2 ≤ payload.length
  · obtain ⟨types, hRead, hTypes⟩ := readTypes_sent hSome hTyped
    rw [if_pos (hTyped.imp_left hByte.2), hRead]
    exact paramsBehind_checked hBits hTypes
  · obtain ⟨types, hRead, hTypes⟩ := readTypes_default hPos hTyped
    rw [if_neg fun hBoth => hTyped (hBoth.imp_left hByte.1), hRead]
    exact paramsBehind_checked hBits hTypes

/-- From a whole bitmap on there is an entry for each parameter. -/
theorem parseExecuteParams_whole {payload : Bytes} {n : Nat} (h : 10 + (n + 7) / 8 ≤ payload.length) :
    (parseExecuteParams payload n).length = n ∧
      ∀ i < n, (parseExecuteParams payload n)[i]? = some none ↔ nullBit payload i = true := by
  unfold parseExecuteParams
  dsimp only
  by_cases hZero : n = 0
  · rw [if_pos (.inl hZero)]
    exact ⟨hZero.symm, fun i hi => by omega⟩
  rw [if_neg (by omega), if_neg (by omega)]
  split
  · refine ⟨length_readParams .., fun i hi => ?_⟩
    rw [readParams_null _ _ _ _ _ _ hi, Nat.zero_add, nullBit_eq_true hi]
  · refine ⟨length_readParams .., fun i hi => ?_⟩
    rw [readParams_null _ _ _ _ _ _ hi, Nat.zero_add, nullBit_eq_true hi]

/-- **Parameters.** Whatever the payload and the number of parameters, no access is out of
range, the cursor never moves back nor farther than a length byte behind the payload, and the
entries are those of the NULL bitmap. -/
theorem parseExecuteParams_bounds (payload : Bytes) (numParams : Nat) :
    ∃ params cursors, Checked.parseExecuteParams payload numParams = some (params, cursors) ∧
      params = parseExecuteParams payload numParams ∧
      cursors.Pairwise (· ≤ ·) ∧ (∀ pos ∈ cursors, pos ≤ payload.length + 255) ∧
      (payload.length < 10 → params = []) ∧
      (10 ≤ payload.length → payload.length < 10 + (numParams + 7) / 8 →
        params = List.replicate numParams none) ∧
      (10 + (numParams + 7) / 8 ≤ payload.length → params.length = numParams ∧
        ∀ i < numParams, params[i]? = some none ↔ nullBit payload i = true) := by
  obtain ⟨cursors, hRun, hOrder, hInside⟩ := parseExecuteParams_checked payload numParams
  refine ⟨_, cursors, hRun, rfl, hOrder, hInside, ?_, ?_, parseExecuteParams_whole⟩
  · intro hShort
    unfold parseExecuteParams
    exact if_pos (.inr hShort)
  · intro hHead hCut
    unfold parseExecuteParams
    dsimp only
    rw [if_neg (by omega), if_pos hCut]

end RunAlexDb
