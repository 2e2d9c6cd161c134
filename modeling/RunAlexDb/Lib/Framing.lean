import Mathlib.Data.List.Basic

/-!
# Framing — records cut out of a stream

A decoder takes the first record off the front of a buffer, or leaves the buffer
alone while it holds no whole record. What it takes does not depend on what
follows, so it does not matter how a stream is cut into reads.

Main results: `feed_eq_drain` (reads of any size) and `drain_flatMap` (what was
encoded is what comes out).
-/

/-- A decoder that works on the front of its buffer. -/
structure Framing (β ρ : Type) where
  decode : List β → Option ρ × List β
  keeps : ∀ {buf}, (decode buf).1 = none → (decode buf).2 = buf
  shrinks : ∀ {buf x rest}, decode buf = (some x, rest) → rest.length < buf.length
  stable : ∀ {buf x rest}, decode buf = (some x, rest) → ∀ more,
    decode (buf ++ more) = (some x, rest ++ more)

namespace Framing

variable {β ρ : Type} (F : Framing β ρ)

/-- Decode until no whole record is left: the records and the rest. -/
def drain (buf : List β) : List ρ × List β :=
  match h : F.decode buf with
  | (none, left) => ([], left)
  | (some x, rest) =>
    have := F.shrinks h
    (x :: (drain rest).1, (drain rest).2)
termination_by buf.length

/-- Read chunk after chunk, draining the buffer after each. -/
def feed (buf : List β) : List (List β) → List ρ × List β
  | [] => ([], buf)
  | chunk :: chunks =>
    ((F.drain (buf ++ chunk)).1 ++ (feed (F.drain (buf ++ chunk)).2 chunks).1,
      (feed (F.drain (buf ++ chunk)).2 chunks).2)

variable {F}

theorem drain_none {buf : List β} (h : (F.decode buf).1 = none) : F.drain buf = ([], buf) := by
  have hKeeps := F.keeps h
  unfold drain
  split
  · rename_i left hDecode
    rw [hDecode] at hKeeps
    obtain rfl := hKeeps
    rfl
  · rename_i x rest hDecode
    rw [hDecode] at h
    exact absurd h (Option.some_ne_none x)

theorem drain_some {buf rest : List β} {x : ρ} (h : F.decode buf = (some x, rest)) :
    F.drain buf = (x :: (F.drain rest).1, (F.drain rest).2) := by
  conv_lhs => unfold drain
  split
  · rename_i left hDecode
    rw [hDecode] at h
    obtain ⟨hNone, -⟩ := Prod.mk.inj h
    exact absurd hNone.symm (Option.some_ne_none x)
  · rename_i y rest' hDecode
    rw [hDecode] at h
    obtain ⟨hSome, rfl⟩ := Prod.mk.inj h
    obtain rfl := Option.some.inj hSome
    rfl

theorem decode_nil : (F.decode []).1 = none := by
  rcases hDecode : F.decode [] with ⟨_ | x, rest⟩
  · rfl
  · have hLess := F.shrinks hDecode
    exact absurd hLess (Nat.not_lt_zero _)

/-- A drained buffer holds no whole record. -/
theorem decode_drained (buf : List β) : (F.decode (F.drain buf).2).1 = none := by
  induction hSize : buf.length using Nat.strongRecOn generalizing buf with
  | ind n ih =>
    rcases hDecode : F.decode buf with ⟨_ | x, rest⟩
    · rw [drain_none (by rw [hDecode]), hDecode]
    · have hLess := F.shrinks hDecode
      rw [drain_some hDecode]
      exact ih rest.length (by omega) rest rfl

/-- Draining in two goes is draining in one. -/
theorem drain_append (buf more : List β) :
    F.drain (buf ++ more) = ((F.drain buf).1 ++ (F.drain ((F.drain buf).2 ++ more)).1,
      (F.drain ((F.drain buf).2 ++ more)).2) := by
  induction hSize : buf.length using Nat.strongRecOn generalizing buf with
  | ind n ih =>
    rcases hDecode : F.decode buf with ⟨_ | x, rest⟩
    · rw [drain_none (show (F.decode buf).1 = none by rw [hDecode]), List.nil_append]
    · have hLess := F.shrinks hDecode
      rw [drain_some hDecode, drain_some (F.stable hDecode more), ih rest.length (by omega) rest rfl]
      rfl

/-- **Reads of any size.** Reading chunk by chunk gives the records of the whole
stream and leaves the same rest. -/
theorem feed_eq_drain {buf : List β} (h : (F.decode buf).1 = none) (chunks : List (List β)) :
    F.feed buf chunks = F.drain (buf ++ chunks.flatten) := by
  induction chunks generalizing buf with
  | nil =>
    rw [List.flatten_nil, List.append_nil, drain_none h]
    rfl
  | cons chunk chunks ih =>
    have hRest := ih (decode_drained (F := F) (buf ++ chunk))
    rw [List.flatten_cons, ← List.append_assoc, drain_append (buf ++ chunk) chunks.flatten, ← hRest]
    rfl

/-- **Round trip.** Records that are each read back off the front are all read
back. -/
theorem drain_flatMap {encode : ρ → List β} {xs : List ρ}
    (hTake : ∀ x ∈ xs, ∀ rest, F.decode (encode x ++ rest) = (some x, rest)) :
    F.drain (xs.flatMap encode) = (xs, []) := by
  induction xs with
  | nil => exact drain_none decode_nil
  | cons x xs ih =>
    have hHead := hTake x (List.mem_cons_self ..) (xs.flatMap encode)
    have hTail := ih fun y hy => hTake y (List.mem_cons_of_mem x hy)
    rw [List.flatMap_cons, drain_some hHead, hTail]

/-- Each record was decoded off the front of some buffer. -/
theorem exists_decode_of_mem_drain {buf : List β} {x : ρ} (hx : x ∈ (F.drain buf).1) :
    ∃ front rest, F.decode front = (some x, rest) := by
  induction hSize : buf.length using Nat.strongRecOn generalizing buf with
  | ind n ih =>
    rcases hDecode : F.decode buf with ⟨_ | y, rest⟩
    · rw [drain_none (by rw [hDecode])] at hx
      exact absurd hx List.not_mem_nil
    · have hLess := F.shrinks hDecode
      rw [drain_some hDecode] at hx
      rcases List.mem_cons.1 hx with rfl | hx
      · exact ⟨buf, rest, hDecode⟩
      · exact ih rest.length (by omega) hx rfl

end Framing
