import RunAlexDb.Model.Concrete
import RunAlexDb.Model.Execute
import RunAlexDb.Session.BinaryParams
import RunAlexDb.Session.ResultPackets

/-!
# ResultFraming — what a client reads of a result set

A client takes packets off the answer: the column count first, then the
definitions, EOF, the rows and EOF. The count is written as one byte whatever it
is, and a packet of 16 MiB or more tells the length of another.

Main result: `readable_iff`.
-/

set_option linter.unusedSectionVars false

namespace RunAlexDb

open Text Platform

-- ---------------------------------------------------------------------------
-- The client's side
-- ---------------------------------------------------------------------------

/-- A length-encoded integer at the front of a payload. -/
def readLenenc : Bytes → Option Nat
  | [] => none
  | c :: rest =>
    if c.toNat < 251 then some c.toNat
    else if c = 0xfc ∧ 2 ≤ rest.length then some (leNat (rest.take 2))
    else if c = 0xfd ∧ 3 ≤ rest.length then some (leNat (rest.take 3))
    else if c = 0xfe ∧ 8 ≤ rest.length then some (leNat (rest.take 8))
    else none

/-- The payload begins as OK, ERR or LOCAL INFILE does. -/
def OtherAnswer (payload : Bytes) : Prop :=
  ∃ c ∈ payload.head?, c = 0x00 ∨ c = 0xff ∨ c = 0xfb

/-- The bytes split into `1 + C + 1 + R + 1` packets with consecutive numbers,
and the first tells `C` and nothing else. -/
structure SplitsLike (columns rows : Nat) (seq : UInt8) (out : Bytes) : Prop where
  whole : (packetStream.drain out).2 = []
  count : (packetStream.drain out).1.length = 1 + columns + 1 + rows + 1
  numbers : ∀ i p, (packetStream.drain out).1[i]? = some p → p.2 = seq + UInt8.ofNat i
  first : ∀ p, (packetStream.drain out).1.head? = some p →
    readLenenc p.1 = some columns ∧ ¬ OtherAnswer p.1

/-- The payloads of a result set, in order. -/
def resultPayloads (columns : List Str) (rows : List Bytes) : List Bytes :=
  [UInt8.ofNat columns.length] :: (columns.map (fun c => columnDef "" "" c 0xfd 0) ++
    eofPacket :: (rows ++ [eofPacket]))

/-- And the packets are the column count, the definitions, EOF, the rows and EOF. -/
structure Readable (columns : List Str) (rows : List Bytes) (seq : UInt8) (out : Bytes) : Prop
    extends SplitsLike columns.length rows.length seq out where
  payloads : (packetStream.drain out).1.map Prod.fst = resultPayloads columns rows

/-- The column count fits the byte and each packet its header. -/
structure Fits (columns : List Str) (rows : List Bytes) : Prop where
  some : 1 ≤ columns.length
  few : columns.length ≤ 250
  definitions : ∀ c ∈ columns, (columnDef "" "" c 0xfd 0).length < 2 ^ 24
  rows : ∀ r ∈ rows, r.length < 2 ^ 24

/-- One byte tells the count from 1 to 250 and no other. -/
theorem readLenenc_count (n : Nat) :
    readLenenc [UInt8.ofNat n] = some n ∧ ¬ OtherAnswer [UInt8.ofNat n] ↔ 1 ≤ n ∧ n ≤ 250 := by
  have hByte : (UInt8.ofNat n).toNat = n % 256 := UInt8.toNat_ofNat'
  constructor
  · rintro ⟨hRead, hOnly⟩
    simp only [readLenenc] at hRead
    by_cases hSmall : (UInt8.ofNat n).toNat < 251
    · rw [if_pos hSmall] at hRead
      have hSame := Option.some.inj hRead
      have hPos : n ≠ 0 := by
        rintro rfl
        exact hOnly ⟨0, rfl, .inl rfl⟩
      omega
    · have hShort : ∀ k, 2 ≤ k → ¬ k ≤ ([] : Bytes).length := by
        intro k hk hLe
        rw [List.length_nil] at hLe
        omega
      rw [if_neg hSmall, if_neg (fun h => hShort 2 (by omega) h.2),
        if_neg (fun h => hShort 3 (by omega) h.2), if_neg (fun h => hShort 8 (by omega) h.2)] at hRead
      exact absurd hRead.symm (Option.some_ne_none n)
  · rintro ⟨hSome, hFew⟩
    refine ⟨?_, ?_⟩
    · simp only [readLenenc]
      rw [if_pos (by omega), hByte, Nat.mod_eq_of_lt (by omega)]
    · rintro ⟨c, hHead, hOther⟩
      obtain rfl := Option.some.inj hHead
      rcases hOther with hOther | hOther | hOther <;>
      · have hNat := congrArg UInt8.toNat hOther
        rw [hByte, Nat.mod_eq_of_lt (by omega)] at hNat
        exact absurd hNat (by simp only [UInt8.reduceToNat]; omega)

section Reading

variable [Platform]

-- ---------------------------------------------------------------------------
-- Numbered packets through the stream
-- ---------------------------------------------------------------------------

/-- Payloads with consecutive numbers. -/
def stamped (seq : UInt8) (payloads : List Bytes) : List (Bytes × UInt8) :=
  payloads.zipIdx.map fun p => (p.1, seq + UInt8.ofNat p.2)

theorem numbered_stamped (seq : UInt8) (payloads : List Bytes) :
    numbered encodePacket seq payloads = (stamped seq payloads).flatMap fun p => encodePacket p.1 p.2 := by
  unfold numbered stamped
  rw [List.flatMap_map]

theorem map_fst_stamped (seq : UInt8) (payloads : List Bytes) :
    (stamped seq payloads).map Prod.fst = payloads := by
  unfold stamped
  rw [List.map_map]
  exact List.zipIdx_map_fst 0 payloads

theorem number_stamped {seq : UInt8} {payloads : List Bytes} {i : Nat} {p : Bytes × UInt8}
    (h : (stamped seq payloads)[i]? = some p) : p.2 = seq + UInt8.ofNat i := by
  unfold stamped at h
  rw [List.getElem?_map, List.getElem?_zipIdx, Option.map_map] at h
  obtain ⟨payload, -, rfl⟩ := Option.map_eq_some_iff.1 h
  show seq + UInt8.ofNat (0 + i) = _
  rw [Nat.zero_add]

theorem drain_numbered {seq : UInt8} {payloads : List Bytes} (h : ∀ p ∈ payloads, p.length < 2 ^ 24) :
    packetStream.drain (numbered encodePacket seq payloads) = (stamped seq payloads, []) := by
  rw [numbered_stamped]
  refine Framing.drain_flatMap fun p hp rest => packetStream_encodePacket (h p.1 ?_) rest
  rw [← map_fst_stamped seq payloads]
  exact List.mem_map_of_mem hp

/-- What comes off the stream is shorter than 16 MiB. -/
theorem length_of_mem_drain {out : Bytes} {p : Bytes × UInt8} (h : p ∈ (packetStream.drain out).1) :
    p.1.length < 2 ^ 24 := by
  obtain ⟨front, rest, hDecode⟩ := Framing.exists_decode_of_mem_drain h
  exact length_of_decodePacket (decodePacketIn_some_iff.1 hDecode)

theorem drain_head {payload rest : Bytes} {seq : UInt8} (h : payload.length < 2 ^ 24) :
    (packetStream.drain (encodePacket payload seq ++ rest)).1.head? = some (payload, seq) := by
  rw [Framing.drain_some (packetStream_encodePacket (p := (payload, seq)) h rest)]
  rfl

-- ---------------------------------------------------------------------------
-- Result sets
-- ---------------------------------------------------------------------------

theorem length_resultPayloads (columns : List Str) (rows : List Bytes) :
    (resultPayloads columns rows).length = 1 + columns.length + 1 + rows.length + 1 := by
  unfold resultPayloads
  simp only [List.length_cons, List.length_append, List.length_map, List.length_nil]
  omega

theorem resultSet_numbered {ρ : Type} (columns : List Str) (rows : List ρ) (row : ρ → Bytes)
    (seq : UInt8) :
    resultSet columns rows row seq =
      numbered encodePacket seq (resultPayloads columns (rows.map row)) := by
  unfold resultSet resultPayloads
  simp only [numbered_cons, numbered_append, numbered_map, numbered_nil, List.length_map,
    List.append_nil, List.append_assoc]
  rfl

theorem splitsLike_range {ρ : Type} {columns : List Str} {rows : List ρ} {row : ρ → Bytes} {seq : UInt8}
    (h : SplitsLike columns.length rows.length seq (resultSet columns rows row seq)) :
    1 ≤ columns.length ∧ columns.length ≤ 250 := by
  have hHead : (packetStream.drain (resultSet columns rows row seq)).1.head? =
      some ([UInt8.ofNat columns.length], seq) := by
    rw [resultSet_numbered, resultPayloads, numbered_cons]
    exact drain_head (by rw [List.length_singleton]; omega)
  exact (readLenenc_count columns.length).1 (h.first _ hHead)

theorem readable_resultSet {ρ : Type} (columns : List Str) (rows : List ρ) (row : ρ → Bytes)
    (seq : UInt8) :
    Readable columns (rows.map row) seq (resultSet columns rows row seq) ↔
      Fits columns (rows.map row) := by
  constructor
  · intro h
    have hSplits := h.toSplitsLike
    rw [List.length_map] at hSplits
    obtain ⟨hSome, hFew⟩ := splitsLike_range hSplits
    have hShort : ∀ payload ∈ resultPayloads columns (rows.map row), payload.length < 2 ^ 24 := by
      intro payload hIn
      rw [← h.payloads] at hIn
      obtain ⟨p, hp, rfl⟩ := List.mem_map.1 hIn
      exact length_of_mem_drain hp
    refine ⟨hSome, hFew, fun c hc => hShort _ ?_, fun r hr => hShort _ ?_⟩
    · exact List.mem_cons_of_mem _ (List.mem_append_left _ (List.mem_map_of_mem hc))
    · exact List.mem_cons_of_mem _ (List.mem_append_right _
        (List.mem_cons_of_mem _ (List.mem_append_left _ hr)))
  · intro h
    have hShort : ∀ payload ∈ resultPayloads columns (rows.map row), payload.length < 2 ^ 24 := by
      intro payload hIn
      unfold resultPayloads at hIn
      rcases List.mem_cons.1 hIn with rfl | hIn
      · rw [List.length_singleton]
        omega
      · rcases List.mem_append.1 hIn with hIn | hIn
        · obtain ⟨c, hc, rfl⟩ := List.mem_map.1 hIn
          exact h.definitions c hc
        · rcases List.mem_cons.1 hIn with rfl | hIn
          · decide
          · rcases List.mem_append.1 hIn with hIn | hIn
            · exact h.rows payload hIn
            · obtain rfl := List.mem_singleton.1 hIn
              decide
    have hDrain : packetStream.drain (resultSet columns rows row seq) =
        (stamped seq (resultPayloads columns (rows.map row)), []) := by
      rw [resultSet_numbered]
      exact drain_numbered hShort
    have hPayloads := map_fst_stamped seq (resultPayloads columns (rows.map row))
    refine ⟨⟨by rw [hDrain], ?_, ?_, ?_⟩, by rw [hDrain, hPayloads]⟩
    · rw [hDrain, ← length_resultPayloads, ← hPayloads, List.length_map]
      exact congrArg List.length (by rw [hPayloads])
    · rw [hDrain]
      exact fun i p hAt => number_stamped hAt
    · rw [hDrain]
      intro p hHead
      have hFirst : p.1 = [UInt8.ofNat columns.length] := by
        have hMap : ((stamped seq (resultPayloads columns (rows.map row))).map Prod.fst).head? =
            some p.1 := by
          rw [List.head?_map, hHead]
          rfl
        rw [hPayloads] at hMap
        exact (Option.some.inj hMap).symm
      rw [hFirst]
      exact (readLenenc_count columns.length).2 ⟨h.some, h.few⟩

/-- **Reading a result set.** The bytes of a result with these columns split into
its packets, the first of which tells the column count and nothing else, if and
only if there are between 1 and 250 columns and each definition and each row is
shorter than 16 MiB. Outside that range of columns the bytes do not even split
into the right number of packets behind a first one that is read so. -/
theorem readable_iff (columns : List Str) (seq : UInt8) :
    (∀ rows : List (List (Option Str)),
      (Readable columns (rows.map textRow) seq (buildResultInto [] (.rows columns rows) seq) ↔
        Fits columns (rows.map textRow)) ∧
      (SplitsLike columns.length rows.length seq (buildResultInto [] (.rows columns rows) seq) →
        1 ≤ columns.length ∧ columns.length ≤ 250)) ∧
    ∀ rows : List Row,
      (Readable columns (rows.map fun r => r.flatMap valueText) seq
          (buildResultInto [] (.valueRows columns rows) seq) ↔
        Fits columns (rows.map fun r => r.flatMap valueText)) ∧
      (SplitsLike columns.length rows.length seq (buildResultInto [] (.valueRows columns rows) seq) →
        1 ≤ columns.length ∧ columns.length ≤ 250) := by
  refine ⟨fun rows => ?_, fun rows => ?_⟩
  · rw [buildResultInto_eq]
    exact ⟨readable_resultSet columns rows textRow seq, splitsLike_range⟩
  · rw [buildResultInto_eq]
    exact ⟨readable_resultSet columns rows (fun r => r.flatMap valueText) seq, splitsLike_range⟩

end Reading

-- ---------------------------------------------------------------------------
-- A projection that names no column
-- ---------------------------------------------------------------------------

section NoColumn

set_option maxRecDepth 2000

local instance resultFramingPlatform : Platform := tablePlatform [
  ("CREATE TABLE t (a INT)", [.createTable {
    name := [⟨"t", none⟩], columns := [⟨⟨"a", none⟩, .int, []⟩]
    ifNotExists := false, query := none }]),
  ("SELECT b FROM t", [.query (.mk (.select (.mk none [.unnamedExpr (.identifier ⟨"b", none⟩)]
    [.mk (.table [⟨"t", none⟩] []) []] none (.expressions []) none)) none none none)])]

/-- The engine after texts of root. -/
def afterTexts (e : Engine) (texts : List Str) : Engine :=
  texts.foldl (fun e sql => ((execute 0 sql none "root").exec e).2) e

/-- Selecting a column that the table does not have: the column count 0 is read
as OK. -/
theorem not_splitsLike :
    ¬ ∀ (rootPassword : Str) (texts : List Str) (sql : Str) (columns : List Str) (rows : List Row),
      ((execute 0 sql none "root").exec (afterTexts (Engine.fresh rootPassword) texts)).1 =
          .ok (.valueRows columns rows) →
        SplitsLike columns.length rows.length 1 (buildResultInto [] (.valueRows columns rows) 1) := by
  intro hAll
  have hNone := hAll [] ["CREATE TABLE t (a INT)"] "SELECT b FROM t" [] [] (by decide +kernel)
  rw [buildResultInto_eq] at hNone
  have hRange : 1 ≤ ([] : List Str).length ∧ ([] : List Str).length ≤ 250 := splitsLike_range hNone
  exact absurd hRange.1 (by decide)

end NoColumn

end RunAlexDb
