import RunAlexDb.Lib.Framing
import RunAlexDb.Model.Wire

/-!
# PacketStream — packets through a byte stream

`decode_packet` as a decoder of the stream: it leaves the buffer alone until a
packet is whole, then takes exactly that packet.

Main result: `decode_chunks`.
-/

namespace RunAlexDb

-- ---------------------------------------------------------------------------
-- What decode_packet does to its buffer
-- ---------------------------------------------------------------------------

/-- The packet and the rest, as `decodePacket` gives them. -/
theorem decodePacketIn_eq (buf : Bytes) : decodePacketIn buf =
    (decodePacket buf).elim (none, buf) fun p => (some (p.1, p.2.1), p.2.2) := by
  match buf with
  | [] | [_] | [_, _] | [_, _, _] => rfl
  | b0 :: b1 :: b2 :: seq :: rest =>
    have hLen : (b0 :: b1 :: b2 :: seq :: rest).length = rest.length + 4 := rfl
    unfold decodePacketIn decodePacket
    rw [if_neg (by omega)]
    simp only [hLen, List.take_succ_cons, List.take_zero, List.drop_succ_cons, List.drop_zero,
      List.headD_cons]
    by_cases hShort : rest.length < leNat [b0, b1, b2]
    · rw [if_pos (by omega), if_pos hShort]
      rfl
    · rw [if_neg (by omega), if_neg hShort]
      rfl

theorem decodePacketIn_none {buf : Bytes} (h : (decodePacketIn buf).1 = none) :
    (decodePacketIn buf).2 = buf := by
  unfold decodePacketIn at h ⊢
  by_cases hHeader : buf.length < 4
  · rw [if_pos hHeader]
  · rw [if_neg hHeader] at h ⊢
    by_cases hBody : buf.length < 4 + leNat (buf.take 3)
    · simp only [if_pos hBody]
    · simp only [if_neg hBody] at h
      exact absurd h (Option.some_ne_none _)

/-- A packet is its header and as many bytes as the header tells. -/
theorem decodePacket_eq_some_iff {buf payload rest : Bytes} {seq : UInt8} :
    decodePacket buf = some (payload, seq, rest) ↔
      ∃ b0 b1 b2, buf = b0 :: b1 :: b2 :: seq :: (payload ++ rest) ∧
        leNat [b0, b1, b2] = payload.length := by
  constructor
  · intro h
    match buf, h with
    | b0 :: b1 :: b2 :: seq' :: rest', h =>
      unfold decodePacket at h
      by_cases hShort : rest'.length < leNat [b0, b1, b2]
      · simp only [if_pos hShort] at h
        exact absurd h.symm (Option.some_ne_none _)
      · simp only [if_neg hShort] at h
        obtain ⟨rfl, hTail⟩ := Prod.mk.inj (Option.some.inj h)
        obtain ⟨rfl, rfl⟩ := Prod.mk.inj hTail
        refine ⟨b0, b1, b2, by rw [List.take_append_drop], ?_⟩
        rw [List.length_take]
        omega
  · rintro ⟨b0, b1, b2, rfl, hLen⟩
    unfold decodePacket
    simp only [hLen, List.length_append]
    rw [if_neg (by omega), List.take_left, List.drop_left]

theorem decodePacketIn_some_iff {buf payload rest : Bytes} {seq : UInt8} :
    decodePacketIn buf = (some (payload, seq), rest) ↔
      decodePacket buf = some (payload, seq, rest) := by
  rw [decodePacketIn_eq]
  rcases decodePacket buf with _ | ⟨payload', seq', rest'⟩
  · simp
  · simp [and_assoc]

/-- The packets of the byte stream. -/
def packetStream : Framing UInt8 (Bytes × UInt8) where
  decode := decodePacketIn
  keeps := decodePacketIn_none
  shrinks := by
    intro buf x rest h
    obtain ⟨b0, b1, b2, rfl, -⟩ := decodePacket_eq_some_iff.1 (decodePacketIn_some_iff.1 h)
    simp only [List.length_cons, List.length_append]
    omega
  stable := by
    intro buf x rest h more
    obtain ⟨b0, b1, b2, rfl, hLen⟩ := decodePacket_eq_some_iff.1 (decodePacketIn_some_iff.1 h)
    exact decodePacketIn_some_iff.2 (decodePacket_eq_some_iff.2
      ⟨b0, b1, b2, by rw [List.cons_append, List.cons_append, List.cons_append, List.cons_append,
        List.append_assoc], hLen⟩)

/-- The bytes of a packet come off the front of the stream. -/
theorem packetStream_encodePacket {p : Bytes × UInt8} (hLen : p.1.length < 2 ^ 24) (rest : Bytes) :
    packetStream.decode (encodePacket p.1 p.2 ++ rest) = (some p, rest) :=
  decodePacketIn_some_iff.2 (decodePacket_encodePacket hLen p.2 rest)

-- ---------------------------------------------------------------------------
-- Reads
-- ---------------------------------------------------------------------------

/-- **Reads of any size.** However the bytes of packets are cut into chunks,
decoding after each chunk until no packet is left gives these packets and leaves
nothing; and a buffer without a whole packet is left alone. -/
theorem decode_chunks (packets : List (Bytes × UInt8)) (hShort : ∀ p ∈ packets, p.1.length < 2 ^ 24)
    (chunks : List Bytes) (hCut : chunks.flatten = packets.flatMap fun p => encodePacket p.1 p.2) :
    packetStream.feed [] chunks = (packets, []) ∧
      ∀ buf, (decodePacketIn buf).1 = none → (decodePacketIn buf).2 = buf := by
  refine ⟨?_, fun _ hNone => decodePacketIn_none hNone⟩
  have hWhole := Framing.feed_eq_drain (F := packetStream) Framing.decode_nil chunks
  rw [hWhole, List.nil_append, hCut]
  exact Framing.drain_flatMap fun p hp rest => packetStream_encodePacket (hShort p hp) rest

/-- Two packets, cut inside the header of the first and inside that of the second. -/
theorem decode_chunks_two :
    packetStream.feed [] [[2, 0], [0, 0, 7, 8, 1], [0, 0, 1, 9]] = ([([7, 8], 0), ([9], 1)], []) ∧
      ∀ buf, (decodePacketIn buf).1 = none → (decodePacketIn buf).2 = buf :=
  decode_chunks [([7, 8], 0), ([9], 1)] (by decide) [[2, 0], [0, 0, 7, 8, 1], [0, 0, 1, 9]] (by decide)

end RunAlexDb
