import RunAlexDb.Lib.Trace
import RunAlexDb.Model.Concrete
import RunAlexDb.Model.Server
import RunAlexDb.Session.BinaryParams

/-!
# BoundTypes — parameter types sent once

A client may send the types of a statement's parameters with the first execution
only. The session keeps no types from one execution to the next: where a packet
brings none, every value is read as a string.

Main result: `bound_types_iff`.
-/

set_option linter.unusedSectionVars false

namespace RunAlexDb

open Text Platform
open Prog (Moves)

-- ---------------------------------------------------------------------------
-- Executions of one statement
-- ---------------------------------------------------------------------------

/-- One COM_STMT_EXECUTE: with or without the types, which parameters are NULL,
and the bytes of the others. -/
structure Execution where
  now : Nat
  rebound : Bool
  nulls : List Bool
  data : Bytes

/-- What stands before the values. -/
def Execution.before (id : Nat) (types : List (UInt8 × UInt8)) (x : Execution) : Bytes :=
  (0x17 :: toLe 4 id ++ 0 :: toLe 4 1) ++ flagBytes x.nulls ++
    (if x.rebound then 1 :: types.flatMap fun t => [t.1, t.2] else [0])

def Execution.packet (id : Nat) (types : List (UInt8 × UInt8)) (x : Execution) : Bytes :=
  x.before id types ++ x.data

/-- The type of parameter `i`. -/
def typeAt (types : List (UInt8 × UInt8)) (i : Nat) : Nat := (types[i]?.map fun t => t.1.toNat).getD 0

/-- The first execution brings the types, the later ones do not. -/
structure TypesOnce (types : List (UInt8 × UInt8)) (xs : List Execution) : Prop where
  first : ∀ x, xs.head? = some x → x.rebound = true
  later : ∀ x ∈ xs.tail, x.rebound = false
  nulls : ∀ x ∈ xs, x.nulls.length = types.length

section BoundTypes

variable [Platform]

/-- The values read with the given types. -/
def Execution.values (id : Nat) (types : List (UInt8 × UInt8)) (x : Execution) : List (Option Str) :=
  readParams (x.packet id types) (flagBytes x.nulls) (typeAt types) x.nulls.length 0
    (x.before id types).length

/-- The session takes the packet. -/
def executeStep (id : Nat) (types : List (UInt8 × UInt8)) (c : Conn) (x : Execution) : Conn :=
  if c.phase = .command then c.run (handleCommand x.now (x.packet id types)) else c

/-- What the session decodes for the statement is what the types say. -/
def DecodesAs (id : Nat) (types : List (UInt8 × UInt8)) (c : Conn) (x : Execution) : Prop :=
  ∀ stmtId stmt, parseCommand (x.packet id types) = .stmtExecute stmtId →
    c.stmtCache.get stmtId = some stmt →
      parseExecuteParams (x.packet id types) stmt.numParams = x.values id types

/-- The types whose values are read as strings: all but the numbers, dates and
times. -/
def ReadAsString (code : Nat) : Prop :=
  code ∉ [0x01, 0x02, 0x82, 0x03, 0x09, 0x04, 0x05, 0x08, 0x0a, 0x0e, 0x07, 0x0b, 0x0c]

-- ---------------------------------------------------------------------------
-- The decoder
-- ---------------------------------------------------------------------------

theorem readBinaryParam_readAsString {code : Nat} (h : ReadAsString code) (payload : Bytes) (pos : Nat) :
    readBinaryParam payload pos code = readBinaryParam payload pos 0xfd := by
  unfold ReadAsString at h
  simp only [List.mem_cons, List.not_mem_nil, or_false, not_or] at h
  obtain ⟨h1, h2, h82, h3, h9, h4, h5, h8, ha, he, h7, hb, hc⟩ := h
  unfold readBinaryParam
  by_cases hEnd : payload.length ≤ pos
  · rw [if_pos hEnd, if_pos hEnd]
  · rw [if_neg hEnd, if_neg hEnd, if_neg h1, if_neg (not_or.2 ⟨h2, h82⟩), if_neg (not_or.2 ⟨h3, h9⟩),
      if_neg h4, if_neg h5, if_neg h8, if_neg (not_or.2 ⟨ha, he⟩), if_neg (not_or.2 ⟨h7, not_or.2 ⟨hb, hc⟩⟩)]
    rfl

/-- The types decide only as far as they tell apart how a value is read. -/
theorem readParams_congr {payload nullBitmap : Bytes} {typeOf typeOf' : Nat → Nat} (n : Nat) :
    ∀ (i pos : Nat), (∀ j, i ≤ j → j < i + n → ∀ at_,
        readBinaryParam payload at_ (typeOf j) = readBinaryParam payload at_ (typeOf' j)) →
      readParams payload nullBitmap typeOf n i pos = readParams payload nullBitmap typeOf' n i pos := by
  induction n with
  | zero => exact fun _ _ _ => rfl
  | succ n ih =>
    intro i pos hSame
    have hHere := hSame i (Nat.le_refl i) (by omega) pos
    have hRest := fun next => ih (i + 1) next fun j hLow hHigh => hSame j (by omega) (by omega)
    unfold readParams
    rw [hHere, hRest]
    simp only [hRest]

/-- Behind NULLs the first value is read where the values begin. -/
theorem readParams_behindNulls (payload : Bytes) {nullBitmap : Bytes} (typeOf : Nat → Nat) (n : Nat) :
    ∀ (i pos k : Nat), k < n →
      (∀ j < k, byteAt nullBitmap ((i + j) / 8) / 2 ^ ((i + j) % 8) % 2 = 1) →
      byteAt nullBitmap ((i + k) / 8) / 2 ^ ((i + k) % 8) % 2 ≠ 1 →
      (readParams payload nullBitmap typeOf n i pos)[k]? =
        some (some (readBinaryParam payload pos (typeOf (i + k))).1) := by
  induction n with
  | zero => exact fun _ _ _ h => absurd h (Nat.not_lt_zero _)
  | succ n ih =>
    intro i pos k hk hNulls hValue
    unfold readParams
    rcases k with _ | k
    · rw [Nat.add_zero] at hValue ⊢
      rw [if_neg hValue]
      rfl
    · have hNull := hNulls 0 (by omega)
      rw [Nat.add_zero] at hNull
      rw [if_pos hNull, List.getElem?_cons_succ, ih (i + 1) pos k (by omega)]
      · rw [show i + 1 + k = i + (k + 1) by omega]
      · intro j hj
        rw [show i + 1 + j = i + (j + 1) by omega]
        exact hNulls (j + 1) (by omega)
      · rwa [show i + 1 + k = i + (k + 1) by omega]

/-- With the types in the packet they are the ones it is read with. -/
theorem parse_rebound {id : Nat} {types : List (UInt8 × UInt8)} {x : Execution}
    (hRebound : x.rebound = true) (hNulls : x.nulls.length = types.length) :
    parseExecuteParams (x.packet id types) types.length = x.values id types := by
  by_cases hNone : types.length = 0
  · unfold Execution.values
    rw [hNulls, hNone]
    rfl
  · have hPairs := length_pairs (fun t : UInt8 × UInt8 => t.1) (fun t => t.2) types
    have hTyped := parseExecuteParams_typed x.nulls x.data (length_executeHead id)
      (by rw [hNulls]; exact hPairs) (by rwa [hNulls])
    unfold Execution.values Execution.packet Execution.before
    simp only [hRebound, if_true]
    rw [← hNulls, hTyped]
    refine readParams_congr _ 0 _ fun j _ hj at_ => ?_
    have hInside : j < types.length := by omega
    have hAt := List.getElem?_eq_getElem hInside
    generalize types[j] = t at hAt
    have hType := byteAt_pairs (fun t : UInt8 × UInt8 => t.1) (fun t => t.2) types hAt x.data
    rw [hType]
    unfold typeAt
    rw [hAt]
    rfl

/-- Without them every value is read as a string. -/
theorem parse_later (id : Nat) (types : List (UInt8 × UInt8)) {x : Execution}
    (hLater : x.rebound = false) (hSome : x.nulls.length ≠ 0) :
    parseExecuteParams (x.packet id types) x.nulls.length =
      readParams (x.packet id types) (flagBytes x.nulls) (fun _ => 0xfd) x.nulls.length 0
        (x.before id types).length := by
  have hUntyped := parseExecuteParams_untyped x.nulls x.data (length_executeHead id) hSome
  unfold Execution.packet Execution.before
  simp only [hLater, Bool.false_eq_true, if_false]
  exact hUntyped

-- ---------------------------------------------------------------------------
-- Data that tell a type from a string
-- ---------------------------------------------------------------------------

theorem readString {s : Str} (hShort : byteLen s < 2 ^ 24) (before after : Bytes) :
    (readBinaryParam (before ++ (putLenencStr s ++ after)) before.length 0xfd).1 = s := by
  have hRead := readLenencBytesAsStr_putLenencStr before after hShort
  have hPrefix : 0 < (putLenencStr s ++ after).length := by
    unfold putLenencStr putLenenc
    simp only [List.length_append]
    split
    · simp only [List.length_singleton]; omega
    · split
      · simp only [List.length_cons]; omega
      · split <;> (simp only [List.length_cons]; omega)
  unfold readBinaryParam
  rw [if_neg (by simp only [List.length_append] at hPrefix ⊢; omega)]
  exact congrArg Prod.fst hRead

/-- Eight zero bytes, which as a string are an empty one. -/
def zeros : Bytes := putLenencStr [] ++ List.replicate 7 0

theorem readFixed_take {data : Bytes} {n : Nat} (h : n ≤ data.length) (before : Bytes)
    (show_ : Bytes → Str) :
    (readFixed (before ++ data) before.length n show_).1 = show_ (data.take n) := by
  unfold readFixed
  rw [if_neg (by simp only [List.length_append]; omega), List.drop_left]

theorem readZeros (before : Bytes) :
    (readBinaryParam (before ++ zeros) before.length 0xfd).1 = [] :=
  readString (by decide) before (List.replicate 7 0)

/-- How the values of the other types are read: as a number of fixed width, which
for an integer is 0 in zero bytes, or as a date. -/
theorem readBinaryParam_otherwise {code : Nat} (h : ¬ ReadAsString code) :
    (∃ n ≤ 8, intText (signedLe n (zeros.take n)) = "0" ∧ ∀ {payload : Bytes} {pos : Nat},
      pos < payload.length →
        readBinaryParam payload pos code = readFixed payload pos n fun b => intText (signedLe n b)) ∨
    (∃ n ≤ 8, ∃ show_, ∀ {payload : Bytes} {pos : Nat}, pos < payload.length →
      readBinaryParam payload pos code = readFixed payload pos n show_) ∨
    (∀ {payload : Bytes} {pos : Nat}, pos < payload.length →
      readBinaryParam payload pos code = readBinaryDate payload pos) ∨
    ∀ {payload : Bytes} {pos : Nat}, pos < payload.length →
      readBinaryParam payload pos code = readBinaryDatetime payload pos := by
  have hOpen : ∀ {payload : Bytes} {pos : Nat} {read : Str × Nat}, pos < payload.length →
      (if payload.length ≤ pos then ([], pos) else read) = read := by
    intro payload pos read hInside
    rw [if_neg (by omega)]
  unfold ReadAsString at h
  simp only [List.mem_cons, List.not_mem_nil, or_false, not_not] at h
  rcases h with rfl | rfl | rfl | rfl | rfl | rfl | rfl | rfl | rfl | rfl | rfl | rfl | rfl
  · exact .inl ⟨1, by omega, by decide, hOpen⟩
  · exact .inl ⟨2, by omega, by decide, hOpen⟩
  · exact .inl ⟨2, by omega, by decide, hOpen⟩
  · exact .inl ⟨4, by omega, by decide, hOpen⟩
  · exact .inl ⟨4, by omega, by decide, hOpen⟩
  · exact .inr (.inl ⟨4, by omega, fun b => f32ToString (UInt32.ofNat (leNat b)), hOpen⟩)
  · exact .inr (.inl ⟨8, by omega, fun b => f64ToString ⟨UInt64.ofNat (leNat b)⟩, hOpen⟩)
  · exact .inl ⟨8, by omega, by decide, hOpen⟩
  · exact .inr (.inr (.inl hOpen))
  · exact .inr (.inr (.inl hOpen))
  · exact .inr (.inr (.inr hOpen))
  · exact .inr (.inr (.inr hOpen))
  · exact .inr (.inr (.inr hOpen))

/-- Of each other type some bytes are read otherwise than as a string. -/
theorem exists_readOtherwise {code : Nat} (h : ¬ ReadAsString code) (before : Bytes) :
    ∃ data, (readBinaryParam (before ++ data) before.length code).1 ≠
      (readBinaryParam (before ++ data) before.length 0xfd).1 := by
  have hInside : ¬ (before ++ zeros).length ≤ before.length := by
    rw [List.length_append, show zeros.length = 8 from rfl]
    omega
  have hNumber : ∀ n, n ≤ 8 → intText (signedLe n (zeros.take n)) = "0" →
      (readFixed (before ++ zeros) before.length n fun b => intText (signedLe n b)).1 ≠
        (readBinaryParam (before ++ zeros) before.length 0xfd).1 := by
    intro n hn hZero
    rw [readZeros, readFixed_take (show n ≤ zeros.length from hn), hZero]
    decide
  have hFloat : ∀ n, n ≤ 8 → ∀ show_ : Bytes → Str, ∃ data : Bytes,
      before.length < (before ++ data).length ∧
        (readFixed (before ++ data) before.length n show_).1 ≠
          (readBinaryParam (before ++ data) before.length 0xfd).1 := by
    -- two strings that begin alike cannot both be the text of one number
    intro n hn show_
    by_contra hAll
    have hSame : ∀ s : Str, byteLen s = 9 → show_ ((putLenencStr s).take n) = s := by
      intro s hNine
      have hLength : (putLenencStr s).length = 10 := by
        unfold putLenencStr putLenenc
        rw [hNine, if_pos (by omega), List.length_append, length_bytes, hNine]
        rfl
      have hRead := readString (show byteLen s < 2 ^ 24 by omega) before []
      rw [List.append_nil] at hRead
      by_contra hOther
      refine hAll ⟨putLenencStr s, by rw [List.length_append, hLength]; omega, ?_⟩
      rw [hRead, readFixed_take (by omega)]
      exact hOther
    have hFirst := hSame "aaaaaaaaa" (by decide)
    have hSecond := hSame "aaaaaaaab" (by decide)
    have hFront : (putLenencStr ("aaaaaaaab" : Str)).take n = (putLenencStr ("aaaaaaaaa" : Str)).take n := by
      have hEight : (putLenencStr ("aaaaaaaab" : Str)).take 8 =
          (putLenencStr ("aaaaaaaaa" : Str)).take 8 := by decide
      have hTaken := congrArg (List.take n) hEight
      rwa [List.take_take, List.take_take, Nat.min_eq_left hn] at hTaken
    rw [hFront, hFirst] at hSecond
    exact absurd hSecond (by decide)
  have hByte : byteAt (before ++ zeros) before.length = 0 := byteAt_append_zero ..
  have hDate : (readBinaryDate (before ++ zeros) before.length).1 ≠
      (readBinaryParam (before ++ zeros) before.length 0xfd).1 := by
    rw [readZeros]
    unfold readBinaryDate
    rw [if_neg hInside]
    simp only [hByte]
    rw [if_pos (.inl (by omega))]
    exact show ("0000-00-00" : Str) ≠ [] by decide
  have hDatetime : (readBinaryDatetime (before ++ zeros) before.length).1 ≠
      (readBinaryParam (before ++ zeros) before.length 0xfd).1 := by
    rw [readZeros]
    unfold readBinaryDatetime
    rw [if_neg hInside]
    simp only [hByte]
    rw [if_pos (.inl (by omega))]
    exact show ("0000-00-00 00:00:00" : Str) ≠ [] by decide
  rcases readBinaryParam_otherwise h with
    ⟨n, hn, hZero, hRead⟩ | ⟨n, hn, show_, hRead⟩ | hRead | hRead
  · refine ⟨zeros, ?_⟩
    rw [hRead (by omega)]
    exact hNumber n hn hZero
  · obtain ⟨data, hBehind, hOther⟩ := hFloat n hn show_
    refine ⟨data, ?_⟩
    rwa [hRead hBehind]
  · refine ⟨zeros, ?_⟩
    rwa [hRead (by omega)]
  · refine ⟨zeros, ?_⟩
    rwa [hRead (by omega)]

-- ---------------------------------------------------------------------------
-- Runs
-- ---------------------------------------------------------------------------

theorem parseCommand_packet {id : Nat} (hId : id < 2 ^ 32) (types : List (UInt8 × UInt8))
    (x : Execution) : parseCommand (x.packet id types) = .stmtExecute id := by
  have hShape : ∃ rest, x.packet id types = 0x17 :: (toLe 4 id ++ rest) := by
    unfold Execution.packet Execution.before
    exact ⟨_, by rw [List.cons_append, List.cons_append, List.cons_append, List.cons_append,
      List.append_assoc, List.append_assoc, List.append_assoc]⟩
  obtain ⟨rest, hPacket⟩ := hShape
  have hLong : 4 ≤ (toLe 4 id ++ rest).length := by
    rw [List.length_append, length_toLe]
    omega
  have hRead : leNat (toLe 4 id) = id := by
    rw [leNat_toLe]
    exact Nat.mod_eq_of_lt hId
  rw [hPacket]
  show idCommand 0x17 (toLe 4 id ++ rest) .stmtExecute = _
  unfold idCommand
  rw [if_pos hLong, take_toLe, hRead]

/-- The prepared statements are the same. -/
def SameStmts (c c' : Conn) : Prop := c'.stmtCache = c.stmtCache

instance : Std.Refl SameStmts := ⟨fun _ => rfl⟩

instance : IsTrans Conn SameStmts := ⟨fun _ _ _ h h' => h'.trans h⟩

theorem sameStmts_handleStmtExecute (now : Nat) (payload : Bytes) (id : Nat) :
    Moves SameStmts (handleStmtExecute now payload id) := by
  have hSend : ∀ out, Moves SameStmts (send out) := fun _ => Moves.modify fun _ => rfl
  refine Moves.bind Moves.get fun c => ?_
  split
  · exact hSend _
  · exact Moves.bind (Moves.modify fun _ => rfl) fun _ =>
      Moves.bind (fun _ => rfl) fun _ => hSend _

/-- An execution leaves the prepared statements alone. -/
theorem stmtCache_executeStep {id : Nat} (hId : id < 2 ^ 32) (types : List (UInt8 × UInt8)) (c : Conn)
    (x : Execution) : (executeStep id types c x).stmtCache = c.stmtCache := by
  have hKept := sameStmts_handleStmtExecute x.now (x.packet id types) id c
  have hCommand : handleCommand x.now (x.packet id types) =
      handleStmtExecute x.now (x.packet id types) id := by
    unfold handleCommand
    rw [parseCommand_packet hId]
  unfold executeStep
  split
  · rw [hCommand]
    unfold Conn.run
    rcases hExec : (handleStmtExecute x.now (x.packet id types) id).exec c with ⟨_ | _, c'⟩ <;>
      (rw [hExec] at hKept; exact hKept)
  · rfl

theorem typeAt_of_getElem? {types : List (UInt8 × UInt8)} {i : Nat} {t : UInt8 × UInt8}
    (h : types[i]? = some t) : typeAt types i = t.1.toNat := by
  unfold typeAt
  rw [h]
  rfl

/-- Where all types are read as strings, a packet is read as they say. -/
theorem decodesAs_of_strings {id : Nat} (hId : id < 2 ^ 32) {types : List (UInt8 × UInt8)} {c : Conn}
    {stmt : PreparedStmt} (hStmt : c.stmtCache.get id = some stmt) (hCount : stmt.numParams = types.length)
    (hStrings : ∀ t ∈ types, ReadAsString t.1.toNat) {x : Execution}
    (hNulls : x.nulls.length = types.length) : DecodesAs id types c x := by
  intro stmtId stmt' hParsed hStmt'
  rw [parseCommand_packet hId] at hParsed
  obtain rfl := Command.stmtExecute.inj hParsed
  obtain rfl := Option.some.inj (hStmt.symm.trans hStmt')
  rw [hCount]
  rcases hRebound : x.rebound with _ | _
  · by_cases hNone : types.length = 0
    · unfold Execution.values
      rw [hNulls, hNone]
      rfl
    · rw [← hNulls] at hNone ⊢
      rw [parse_later _ _ hRebound hNone]
      refine readParams_congr _ 0 _ fun j _ hj at_ => ?_
      have hInside : j < types.length := by omega
      rw [typeAt_of_getElem? (List.getElem?_eq_getElem hInside)]
      exact (readBinaryParam_readAsString (hStrings _ (List.getElem_mem _)) _ at_).symm
  · exact parse_rebound hRebound hNulls

/-- Where one is not, some packet without types is read otherwise. -/
theorem exists_not_decodesAs {id : Nat} (hId : id < 2 ^ 32) {types : List (UInt8 × UInt8)}
    {t : UInt8 × UInt8} (hIn : t ∈ types) (hOther : ¬ ReadAsString t.1.toNat) :
    ∃ x : Execution, x.rebound = false ∧ x.nulls.length = types.length ∧
      ∀ (c : Conn) stmt, c.stmtCache.get id = some stmt → stmt.numParams = types.length →
        ¬ DecodesAs id types c x := by
  obtain ⟨k, hInside, hAt⟩ := List.mem_iff_getElem.1 hIn
  have hAt? : types[k]? = some t := by rw [List.getElem?_eq_getElem hInside, hAt]
  let nulls := (List.range types.length).map fun j => decide (j ≠ k)
  have hLength : nulls.length = types.length := by simp [nulls]
  have hNulls : ∀ j, j < types.length → nulls[j]? = some (decide (j ≠ k)) := by
    intro j hj
    simp [nulls, hj]
  obtain ⟨data, hData⟩ := exists_readOtherwise hOther
    (Execution.before id types ⟨0, false, nulls, []⟩)
  refine ⟨⟨0, false, nulls, data⟩, rfl, hLength, fun c stmt hStmt hCount hDecodes => hData ?_⟩
  have hRead := hDecodes id stmt (parseCommand_packet hId types _) hStmt
  have hNone : nulls.length ≠ 0 := by omega
  have hBefore : ∀ j < k, byteAt (flagBytes nulls) ((0 + j) / 8) / 2 ^ ((0 + j) % 8) % 2 = 1 := by
    intro j hj
    rw [Nat.zero_add, flagBytes_bit nulls (hNulls j (by omega))]
    exact decide_eq_true (by omega)
  have hHere : byteAt (flagBytes nulls) ((0 + k) / 8) / 2 ^ ((0 + k) % 8) % 2 ≠ 1 := by
    rw [Nat.zero_add, ne_eq, flagBytes_bit nulls (hNulls k hInside)]
    simp
  have hAsString := readParams_behindNulls (Execution.packet id types ⟨0, false, nulls, data⟩) (fun _ => 0xfd)
    types.length 0 (Execution.before id types ⟨0, false, nulls, data⟩).length k hInside hBefore hHere
  have hAsType := readParams_behindNulls (Execution.packet id types ⟨0, false, nulls, data⟩) (typeAt types)
    types.length 0 (Execution.before id types ⟨0, false, nulls, data⟩).length k hInside hBefore hHere
  have hLater := @parse_later _ id types ⟨0, false, nulls, data⟩ rfl hNone
  rw [hCount, ← hLength, hLater] at hRead
  unfold Execution.values at hRead
  simp only [hLength] at hRead
  rw [hRead, hAsType, Nat.zero_add, typeAt_of_getElem? hAt?] at hAsString
  exact Option.some.inj (Option.some.inj hAsString)

/-- **Types sent once.** For a statement of the session and types for its
parameters: all sequences of executions that bring the types with the first
packet only are decoded with these types if and only if all of them are read as
strings. -/
theorem bound_types_iff {id : Nat} (hId : id < 2 ^ 32) (types : List (UInt8 × UInt8)) {c : Conn}
    {stmt : PreparedStmt} (hStmt : c.stmtCache.get id = some stmt)
    (hCount : stmt.numParams = types.length) :
    (∀ xs, TypesOnce types xs → Trace.Along (executeStep id types) (DecodesAs id types) c xs) ↔
      ∀ t ∈ types, ReadAsString t.1.toNat := by
  constructor
  · intro hAll t hIn
    by_contra hOther
    obtain ⟨x, hLater, hNulls, hNot⟩ := exists_not_decodesAs hId hIn hOther
    have hRun := hAll [⟨0, true, List.replicate types.length true, []⟩, x] {
      first := fun y hy => Option.some.inj hy ▸ rfl
      later := by
        intro y hy
        obtain rfl := List.mem_singleton.1 hy
        exact hLater
      nulls := by
        intro y hy
        rcases List.mem_pair.1 hy with rfl | rfl
        · exact List.length_replicate ..
        · exact hNulls }
    refine hNot _ stmt ?_ hCount hRun.2.1
    rwa [stmtCache_executeStep hId]
  · intro hStrings xs hOnce
    have hNulls := hOnce.nulls
    clear hOnce
    induction xs generalizing c with
    | nil => trivial
    | cons x xs ih =>
      refine ⟨decodesAs_of_strings hId hStmt hCount hStrings (hNulls x (List.mem_cons_self ..)),
        ih ?_ fun y hy => hNulls y (List.mem_cons_of_mem x hy)⟩
      rwa [stmtCache_executeStep hId]

end BoundTypes

-- ---------------------------------------------------------------------------
-- A number whose type is not sent again
-- ---------------------------------------------------------------------------

section TinyOnce

local instance boundTypesPlatform : Platform := tablePlatform []

/-- A session that has prepared `SELECT ?`. -/
def preparedOne : Conn :=
  { Conn.start ⟨[]⟩ [] (Engine.fresh []) [] with
    phase := .command, stmtCache := HashMap.empty.insert 1 ⟨"SELECT ?", 1⟩ }

/-- A string bound once. -/
theorem bound_types_iff_string :
    (∀ xs, TypesOnce [(0xfd, 0)] xs →
        Trace.Along (executeStep 1 [(0xfd, 0)]) (DecodesAs 1 [(0xfd, 0)]) preparedOne xs) ↔
      ∀ t ∈ [((0xfd : UInt8), (0 : UInt8))], ReadAsString t.1.toNat :=
  @bound_types_iff _ 1 (by omega) [(0xfd, 0)] preparedOne ⟨"SELECT ?", 1⟩ rfl rfl

/-- A TINY 0 of the second execution is read as an empty string. -/
theorem not_bound_types :
    ¬ ∀ (id : Nat) (types : List (UInt8 × UInt8)) (c : Conn) (stmt : PreparedStmt), id < 2 ^ 32 →
      c.stmtCache.get id = some stmt → stmt.numParams = types.length →
        ∀ xs, TypesOnce types xs →
          Trace.Along (executeStep id types) (DecodesAs id types) c xs := by
  intro hAll
  have hRun := hAll 1 [(0x01, 0)] preparedOne ⟨"SELECT ?", 1⟩ (by omega) rfl rfl
    [⟨0, true, [false], [0]⟩, ⟨0, false, [false], [0]⟩] {
      first := fun y hy => Option.some.inj hy ▸ rfl
      later := by
        intro y hy
        obtain rfl := List.mem_singleton.1 hy
        rfl
      nulls := by
        intro y hy
        rcases List.mem_pair.1 hy with rfl | rfl <;> rfl }
  have hDecoded := hRun.2.1 1 ⟨"SELECT ?", 1⟩ (by decide +kernel)
    (by rw [stmtCache_executeStep (by omega)]; rfl)
  exact absurd hDecoded (by decide +kernel)

end TinyOnce

end RunAlexDb
