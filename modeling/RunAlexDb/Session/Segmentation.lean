import RunAlexDb.Session.AuthGate
import RunAlexDb.Session.PacketStream

/-!
# Segmentation — the same bytes in other reads

A session served read by read, with the packets it takes. In the command loop the
cuts between the reads do not matter. The handshake loop reads into an empty
buffer only: on part of a packet it turns round for ever. And whatever stands
behind a TLS request in the first read is dropped.

Main result: `segmentation_iff`.
-/

set_option linter.unusedSectionVars false

namespace RunAlexDb

open Text Platform
open Prog (Moves Agree)

-- ---------------------------------------------------------------------------
-- Serving reads
-- ---------------------------------------------------------------------------

/-- What goes on around a session: when it takes its `n`-th packet, and what
other sessions did to the engine by then. -/
structure Surroundings where
  clock : Nat → Nat
  others : Nat → Engine → Engine

/-- A session and the packets it took. -/
structure Intake where
  conn : Conn
  packets : List (Bytes × UInt8)

section Intakes

variable [Platform]

/-- Take a packet out of the buffer, if a whole one is there. -/
def Intake.take (w : Surroundings) (s : Intake) : Intake :=
  match decodePacket s.conn.buf with
  | none => s
  | some (payload, q, _) =>
    if s.conn.phase = .closed then s
    else
      let n := s.packets.length
      ⟨(s.conn.step (.world (w.others n s.conn.engine))).step (.tick (w.clock n)),
        s.packets ++ [(payload, q)]⟩

/-- Take packets until the session waits for its client. The buffer holds no
more packets than bytes. -/
def settle (w : Surroundings) : Nat → Intake → Intake
  | 0, s => s
  | n + 1, s => settle w n (s.take w)

/-- The session's next read, if it reads at all. -/
def Intake.read (w : Surroundings) (s : Intake) (chunk : Bytes) : Intake :=
  settle w (s.conn.buf ++ chunk).length { s with conn := s.conn.step (.data chunk) }

/-- `handle_connection` on the reads its client's bytes come in. -/
def serve (cfg : Config) (scramble : Bytes) (engine : Engine) (tls : Bool) (w : Surroundings) :
    List Bytes → Intake
  | [] => ⟨Conn.accept cfg scramble engine tls [], []⟩
  | first :: rest =>
    let request := if tls && isSslRequest first then
      (decodePacket first).elim [] fun p => [(p.1, p.2.1)] else []
    rest.foldl (Intake.read w)
      (settle w first.length ⟨Conn.accept cfg scramble engine tls first, request⟩)

/-- The packets and what the session did with them, the replies among it. -/
def Intake.seen (s : Intake) : List (Bytes × UInt8) × List Event := (s.packets, s.conn.events)

/-- The reads are pieces of the stream. -/
structure Cuts (stream : Bytes) (reads : List Bytes) : Prop where
  whole : reads.flatten = stream
  nonempty : ∀ chunk ∈ reads, chunk ≠ []

/-- The first read holds the whole first packet; if that is a TLS request,
nothing else, and the next read holds the whole packet behind it. -/
def FirstWhole (tls : Bool) (reads : List Bytes) : Prop :=
  ∀ first rest, reads = first :: rest → ∃ payload q left,
    decodePacket first = some (payload, q, left) ∧
      ((tls && isSslRequest first) = true →
        left = [] ∧ ∀ second, rest.head? = some second → decodePacket second ≠ none)

-- ---------------------------------------------------------------------------
-- No handler looks at the buffer
-- ---------------------------------------------------------------------------

/-- Two sessions that differ in their buffers only. -/
structure SameButBuf (b b' : Bytes) (c c' : Conn) : Prop where
  left : c.buf = b
  right : c' = { c with buf := b' }

/-- The program neither looks at the buffer nor touches it. -/
def IgnoresBuf {α : Type} (m : ConnM α) : Prop := ∀ b b', Agree (SameButBuf b b') m m

theorem IgnoresBuf.modify {f : Conn → Conn}
    (h : ∀ c b, f { c with buf := b } = { f c with buf := b } ∧ (f c).buf = c.buf) :
    IgnoresBuf (modify f : ConnM Unit) := by
  refine fun b b' => Agree.modify fun c c' hSame => ?_
  obtain ⟨rfl, rfl⟩ := hSame
  obtain ⟨hMove, hKeep⟩ := h c b'
  exact ⟨hKeep, hMove⟩

theorem IgnoresBuf.get_bind {α : Type} {f : Conn → ConnM α} (hSame : ∀ c b, f { c with buf := b } = f c)
    (h : ∀ c, IgnoresBuf (f c)) : IgnoresBuf (get >>= f) := by
  refine fun b b' => Agree.get_bind fun c c' hBut => ?_
  obtain ⟨rfl, rfl⟩ := hBut
  rw [hSame c b']
  exact h c _ _

theorem IgnoresBuf.bind {α β : Type} {m : ConnM α} {f : α → ConnM β} (hm : IgnoresBuf m)
    (hf : ∀ a, IgnoresBuf (f a)) : IgnoresBuf (m >>= f) :=
  fun b b' => Agree.bind (hm b b') fun a => hf a b b'

theorem IgnoresBuf.pure {α : Type} (a : α) : IgnoresBuf (Pure.pure a) := fun _ _ => Agree.pure a

theorem IgnoresBuf.ofExcept {α : Type} (x : Except Fault α) : IgnoresBuf (Prog.ofExcept x) :=
  fun _ _ => Agree.ofExcept x

theorem ignoresBuf_emit (ev : Event) : IgnoresBuf (emit ev) := .modify fun _ _ => ⟨rfl, rfl⟩

theorem ignoresBuf_send (out : Bytes) : IgnoresBuf (send out) := ignoresBuf_emit _

theorem ignoresBuf_onEngine {α : Type} (m : EngineM α) : IgnoresBuf (onEngine m) := by
  intro b b' c c' hSame
  obtain ⟨rfl, rfl⟩ := hSame
  exact ⟨rfl, rfl, rfl⟩

theorem ignoresBuf_login (h : Handshake) : IgnoresBuf (login h) := by
  refine .bind (ignoresBuf_emit _) fun _ => .bind ?_ fun _ =>
    .bind (.modify fun _ _ => ⟨rfl, rfl⟩) fun _ => ignoresBuf_emit _
  exact fun b b' => Agree.forEach fun db _ => ignoresBuf_onEngine _ b b'

theorem ignoresBuf_handleHandshake (payload : Bytes) : IgnoresBuf (handleHandshake payload) := by
  unfold handleHandshake
  split
  · exact .modify fun _ _ => ⟨rfl, rfl⟩
  · refine .bind (.ofExcept _) fun h => .bind (.modify fun _ _ => ⟨rfl, rfl⟩) fun _ =>
      .get_bind (fun _ _ => rfl) fun c => ?_
    split
    · exact ignoresBuf_login h
    · exact .bind (ignoresBuf_emit _) fun _ => .modify fun _ _ => ⟨rfl, rfl⟩

theorem ignoresBuf_handleTxn (t : TxnControl) : IgnoresBuf (handleTxn t) := by
  rcases t with _ | _ | _
  · exact .bind (.modify fun _ _ => ⟨rfl, rfl⟩) fun _ => ignoresBuf_send _
  · exact .bind (.modify fun _ _ => ⟨rfl, rfl⟩) fun _ => ignoresBuf_send _
  · refine .bind (.modify fun c b => ?_) fun _ => ignoresBuf_send _
    rcases hSnap : c.txnSnapshot with _ | snap
    · simp [Conn.rollback, hSnap]
    · simp [Conn.rollback, hSnap]

theorem ignoresBuf_takeUse (sql : Str) : IgnoresBuf (takeUse sql) := by
  refine .bind (.ofExcept _) fun target => ?_
  rcases target with _ | db
  · exact .pure _
  · exact .modify fun _ _ => ⟨rfl, rfl⟩

theorem ignoresBuf_executeAndCache (now : Nat) (sql : Str) : IgnoresBuf (executeAndCache now sql) := by
  have hCall : IgnoresBuf (callExecute now sql) :=
    .get_bind (fun _ _ => rfl) fun c => .bind (ignoresBuf_emit _) fun _ => ignoresBuf_onEngine _
  refine .bind hCall fun result => .bind (ignoresBuf_send _) fun _ => ?_
  split
  · exact .modify fun _ _ => ⟨rfl, rfl⟩
  · exact .pure _

theorem ignoresBuf_handleQuery (now : Nat) (sql : Str) : IgnoresBuf (handleQuery now sql) := by
  have hAnswer : IgnoresBuf (answerQuery now sql) := by
    refine .get_bind (fun _ _ => rfl) fun c => ?_
    split
    · exact ignoresBuf_send _
    · exact ignoresBuf_executeAndCache now sql
  unfold handleQuery
  split
  · exact ignoresBuf_send _
  · refine .bind (ignoresBuf_takeUse sql) fun _ => ?_
    split
    · exact ignoresBuf_handleTxn _
    · exact hAnswer

theorem ignoresBuf_handleStmtPrepare (sql : Str) : IgnoresBuf (handleStmtPrepare sql) := by
  intro b b' c c' hSame
  obtain ⟨rfl, rfl⟩ := hSame
  exact ⟨rfl, rfl, rfl⟩

theorem ignoresBuf_handleStmtExecute (now : Nat) (payload : Bytes) (id : Nat) :
    IgnoresBuf (handleStmtExecute now payload id) := by
  refine .get_bind (fun _ _ => rfl) fun c => ?_
  split
  · exact ignoresBuf_send _
  · exact .bind (ignoresBuf_emit _) fun _ => .bind (ignoresBuf_onEngine _) fun _ => ignoresBuf_send _

theorem ignoresBuf_handleCommand (now : Nat) (payload : Bytes) :
    IgnoresBuf (handleCommand now payload) := by
  unfold handleCommand
  rcases parseCommand payload with sql | _ | _ | name | name | sql | id | id | id | c
  · exact ignoresBuf_handleQuery now sql
  · exact ignoresBuf_send _
  · exact .modify fun _ _ => ⟨rfl, rfl⟩
  · exact .bind (.modify fun _ _ => ⟨rfl, rfl⟩) fun _ => ignoresBuf_send _
  · exact ignoresBuf_send _
  · exact ignoresBuf_handleStmtPrepare sql
  · exact ignoresBuf_handleStmtExecute now payload id
  · exact .modify fun _ _ => ⟨rfl, rfl⟩
  · exact .get_bind (fun _ _ => rfl) fun c => ignoresBuf_send _
  · exact ignoresBuf_send _

/-- A handler gives the same session whatever is in the buffer, and leaves that. -/
theorem IgnoresBuf.run {m : ConnM Unit} (h : IgnoresBuf m) (c : Conn) (b : Bytes) :
    Conn.run { c with buf := b } m = { c.run m with buf := b } := by
  obtain ⟨hOut, hKept, hEnd⟩ := h c.buf b c { c with buf := b } ⟨rfl, rfl⟩
  unfold Conn.run
  rcases hRun : m.exec c with ⟨out, c1⟩
  rcases hRun' : m.exec { c with buf := b } with ⟨out', c2⟩
  rw [hRun, hRun'] at hOut hEnd
  obtain rfl := hOut
  obtain rfl := hEnd
  rcases out with _ | _ <;> rfl

-- ---------------------------------------------------------------------------
-- Packet by packet
-- ---------------------------------------------------------------------------

/-- The session with another buffer. -/
def Intake.withBuf (b : Bytes) (s : Intake) : Intake := ⟨{ s.conn with buf := b }, s.packets⟩

/-- What a packet does, whatever else is in the buffer. -/
def Intake.handle (w : Surroundings) (s : Intake) (p : Bytes × UInt8) : Intake :=
  if s.conn.phase = .closed then s
  else
    let c := { s.conn with engine := w.others s.packets.length s.conn.engine }
    ⟨if c.phase = .handshake then c.run (handleHandshake p.1)
      else c.run (handleCommand (w.clock s.packets.length) p.1), s.packets ++ [p]⟩

/-- Once closed, a session takes no packet. -/
theorem foldl_closed {w : Surroundings} {s : Intake} (h : s.conn.phase = .closed)
    (ps : List (Bytes × UInt8)) : ps.foldl (Intake.handle w) s = s := by
  induction ps with
  | nil => rfl
  | cons p ps ih =>
    have hHandle : s.handle w p = s := if_pos h
    rw [List.foldl_cons, hHandle, ih]

theorem handle_withBuf (w : Surroundings) (s : Intake) (b : Bytes) (p : Bytes × UInt8) :
    (s.withBuf b).handle w p = (s.handle w p).withBuf b := by
  have hHandshake := (ignoresBuf_handleHandshake p.1).run
    { s.conn with engine := w.others s.packets.length s.conn.engine } b
  have hCommand := (ignoresBuf_handleCommand (w.clock s.packets.length) p.1).run
    { s.conn with engine := w.others s.packets.length s.conn.engine } b
  unfold Intake.handle Intake.withBuf
  by_cases hClosed : s.conn.phase = .closed
  · rw [if_pos hClosed, if_pos hClosed]
  · rw [if_neg hClosed, if_neg hClosed]
    by_cases hPhase : s.conn.phase = .handshake
    · simp only [if_pos hPhase]
      rw [hHandshake]
    · simp only [if_neg hPhase]
      rw [hCommand]

/-- Taking a packet out of the buffer is handling it and keeping the rest. -/
theorem take_some {w : Surroundings} {s : Intake} {payload rest : Bytes} {q : UInt8}
    (hDecode : decodePacket s.conn.buf = some (payload, q, rest)) (hOpen : s.conn.phase ≠ .closed) :
    s.take w = (s.handle w (payload, q)).withBuf rest := by
  have hHandshake := (ignoresBuf_handleHandshake payload).run
    { s.conn with engine := w.others s.packets.length s.conn.engine } rest
  have hCommand := (ignoresBuf_handleCommand (w.clock s.packets.length) payload).run
    { s.conn with engine := w.others s.packets.length s.conn.engine } rest
  unfold Intake.take Intake.handle Intake.withBuf
  simp only [hDecode, if_neg hOpen, Conn.step, Conn.tick]
  rcases hPhase : s.conn.phase with _ | _ | _
  · simp only [hPhase] at hHandshake ⊢
    rw [hHandshake]
    rfl
  · simp only [hPhase] at hCommand ⊢
    rw [hCommand]
    rfl
  · exact absurd hPhase hOpen

theorem take_idle {w : Surroundings} {s : Intake}
    (h : decodePacket s.conn.buf = none ∨ s.conn.phase = .closed) : s.take w = s := by
  unfold Intake.take
  rcases hDecode : decodePacket s.conn.buf with _ | ⟨payload, q, rest⟩
  · rfl
  · rcases h with h | h
    · rw [hDecode] at h
      exact absurd h (Option.some_ne_none _)
    · exact if_pos h

theorem settle_idle {w : Surroundings} {s : Intake}
    (h : decodePacket s.conn.buf = none ∨ s.conn.phase = .closed) (n : Nat) : settle w n s = s := by
  induction n with
  | zero => rfl
  | succ n ih => rw [settle, take_idle h, ih]

/-- Settling handles the packets of the buffer one after the other. -/
theorem settle_eq (w : Surroundings) (n : Nat) :
    ∀ (s : Intake) (b : Bytes), b.length ≤ n → ∃ left,
      settle w n (s.withBuf b) = ((packetStream.drain b).1.foldl (Intake.handle w) s).withBuf left ∧
        (((packetStream.drain b).1.foldl (Intake.handle w) s).conn.phase ≠ .closed →
          left = (packetStream.drain b).2) := by
  induction n with
  | zero =>
    intro s b hLength
    obtain rfl := List.eq_nil_of_length_eq_zero (Nat.le_zero.1 hLength)
    have hNil : packetStream.drain [] = ([], []) := Framing.drain_none Framing.decode_nil
    rw [hNil]
    exact ⟨[], rfl, fun _ => rfl⟩
  | succ n ih =>
    intro s b hLength
    rcases hDecode : decodePacket b with _ | ⟨payload, q, rest⟩
    · have hDrain : packetStream.drain b = ([], b) := by
        refine Framing.drain_none ?_
        show (decodePacketIn b).1 = none
        rw [decodePacketIn_eq, hDecode]
        rfl
      rw [settle_idle (.inl hDecode), hDrain]
      exact ⟨b, rfl, fun _ => rfl⟩
    · have hTaken := Framing.drain_some (F := packetStream) (decodePacketIn_some_iff.2 hDecode)
      by_cases hClosed : s.conn.phase = .closed
      · rw [settle_idle (s := s.withBuf b) (.inr hClosed), foldl_closed hClosed]
        exact ⟨b, rfl, fun hOpen => absurd hClosed hOpen⟩
      · have hShorter := packetStream.shrinks (decodePacketIn_some_iff.2 hDecode)
        have hTake : (s.withBuf b).take w = (s.handle w (payload, q)).withBuf rest := by
          rw [take_some (s := s.withBuf b) hDecode hClosed, handle_withBuf]
          rfl
        obtain ⟨left, hSettled, hLeft⟩ := ih (s.handle w (payload, q)) rest (by omega)
        rw [settle, hTake, hSettled, hTaken]
        exact ⟨left, rfl, hLeft⟩

/-- One packet ends the handshake loop, in one of three ways or by a panic. -/
theorem phase_handleHandshake (c : Conn) (payload : Bytes) :
    (c.run (handleHandshake payload)).phase ≠ .handshake := by
  unfold Conn.run handleHandshake
  by_cases hShort : payload.length < 33
  · rw [if_pos hShort]
    exact fun h => by cases h
  · rw [if_neg hShort]
    rcases hParse : parseHandshake payload with fault | h
    · exact fun h => by cases h
    · simp only [Prog.exec_bind, Prog.exec_ofExcept, Prog.exec_modify, Prog.exec_get]
      by_cases hAuth : authOk c.cfg c.engine c.scramble h = true
      · rw [if_pos hAuth, exec_login]
        exact fun h => by cases h
      · rw [if_neg hAuth]
        exact fun h => by cases h

/-- Behind the handshake loop a session does not go back into it. -/
theorem phase_handle (w : Surroundings) (s : Intake) (p : Bytes × UInt8) :
    (s.handle w p).conn.phase ≠ .handshake := by
  unfold Intake.handle
  by_cases hClosed : s.conn.phase = .closed
  · rw [if_pos hClosed, hClosed]
    decide
  · rw [if_neg hClosed]
    by_cases hPhase : s.conn.phase = .handshake
    · simp only [if_pos hPhase]
      exact phase_handleHandshake _ p.1
    · have hMove := moves_handleCommand (w.clock s.packets.length) p.1
        { s.conn with engine := w.others s.packets.length s.conn.engine }
      simp only [if_neg hPhase]
      unfold Conn.run
      rcases hExec : (handleCommand (w.clock s.packets.length) p.1).exec
        { s.conn with engine := w.others s.packets.length s.conn.engine } with ⟨_ | _, c'⟩
      · exact fun h => by cases h
      · rw [hExec] at hMove
        rcases hMove.phase with hKept | hShut
        · show c'.phase ≠ .handshake
          rw [hKept]
          exact hPhase
        · show c'.phase ≠ .handshake
          rw [hShut]
          exact fun h => by cases h

theorem phase_foldl {w : Surroundings} {s : Intake} (h : s.conn.phase ≠ .handshake)
    (ps : List (Bytes × UInt8)) : (ps.foldl (Intake.handle w) s).conn.phase ≠ .handshake := by
  induction ps generalizing s with
  | nil => exact h
  | cons p ps ih => exact ih (phase_handle w s p)

/-- **The command loop.** However what follows is cut, the session takes the
packets of the whole. -/
theorem foldl_read (w : Surroundings) (chunks : List Bytes) :
    ∀ (s : Intake) (b : Bytes), s.conn.phase ≠ .handshake →
      (s.conn.phase ≠ .closed → decodePacket b = none) → ∃ left,
        chunks.foldl (Intake.read w) (s.withBuf b) =
          ((packetStream.drain (b ++ chunks.flatten)).1.foldl (Intake.handle w) s).withBuf left := by
  induction chunks with
  | nil =>
    intro s b hPhase hDrained
    rw [List.flatten_nil, List.append_nil]
    by_cases hClosed : s.conn.phase = .closed
    · rw [foldl_closed hClosed]
      exact ⟨b, rfl⟩
    · have hDrain : packetStream.drain b = ([], b) := by
        refine Framing.drain_none ?_
        show (decodePacketIn b).1 = none
        rw [decodePacketIn_eq, hDrained hClosed]
        rfl
      rw [hDrain]
      exact ⟨b, rfl⟩
  | cons chunk chunks ih =>
    intro s b hPhase hDrained
    by_cases hClosed : s.conn.phase = .closed
    · -- a closed session reads no more
      have hRead : (s.withBuf b).read w chunk = s.withBuf b := by
        have hIgnored : (s.withBuf b).conn.step (.data chunk) = (s.withBuf b).conn := by
          show (if (s.withBuf b).conn.wantsRead then _ else (s.withBuf b).conn) = _
          have hNot : (s.withBuf b).conn.wantsRead = false := by
            unfold Conn.wantsRead
            rw [show (s.withBuf b).conn.phase = .closed from hClosed]
          rw [hNot]
          rfl
        unfold Intake.read
        rw [hIgnored]
        exact settle_idle (s := s.withBuf b) (.inr hClosed) _
      obtain ⟨left, hRest⟩ := ih s b hPhase hDrained
      rw [foldl_closed hClosed] at hRest
      rw [List.foldl_cons, hRead, hRest, foldl_closed hClosed]
      exact ⟨left, rfl⟩
    · have hRead : (s.withBuf b).read w chunk =
          settle w (b ++ chunk).length (s.withBuf (b ++ chunk)) := by
        have hCommand : s.conn.phase = .command := by
          rcases hKind : s.conn.phase with _ | _ | _
          · exact absurd hKind hPhase
          · rfl
          · exact absurd hKind hClosed
        have hWants : (s.withBuf b).conn.wantsRead = true := by
          unfold Conn.wantsRead
          rw [show (s.withBuf b).conn.phase = .command from hCommand]
          show (decodePacket b).isNone = true
          rw [hDrained hClosed]
          rfl
        have hTaken : (s.withBuf b).conn.step (.data chunk) = (s.withBuf (b ++ chunk)).conn := by
          show (if (s.withBuf b).conn.wantsRead then _ else _) = _
          rw [if_pos hWants]
          rfl
        unfold Intake.read
        rw [hTaken]
        rfl
      obtain ⟨left, hSettled, hLeft⟩ := settle_eq w (b ++ chunk).length s (b ++ chunk) (Nat.le_refl _)
      have hNext := ih ((packetStream.drain (b ++ chunk)).1.foldl (Intake.handle w) s) left
        (phase_foldl hPhase _) fun hOpen => by
          have hNone := Framing.decode_drained (F := packetStream) (b ++ chunk)
          rw [hLeft hOpen]
          rcases hDecode : decodePacket (packetStream.drain (b ++ chunk)).2 with _ | ⟨payload, q, rest⟩
          · rfl
          · have hSome := congrArg Prod.fst (decodePacketIn_some_iff.2 hDecode)
            exact absurd (hSome.symm.trans hNone) (Option.some_ne_none _)
      obtain ⟨left', hRest⟩ := hNext
      rw [List.foldl_cons, hRead, hSettled, hRest, List.flatten_cons, ← List.append_assoc,
        Framing.drain_append (b ++ chunk) chunks.flatten, List.foldl_append]
      by_cases hOpen : ((packetStream.drain (b ++ chunk)).1.foldl (Intake.handle w) s).conn.phase = .closed
      · rw [foldl_closed hOpen, foldl_closed hOpen]
        exact ⟨left', rfl⟩
      · rw [hLeft hOpen]
        exact ⟨left', rfl⟩

-- ---------------------------------------------------------------------------
-- The first read
-- ---------------------------------------------------------------------------

/-- A session at the start of the handshake loop, with the packets before it. -/
def Intake.start (cfg : Config) (scramble : Bytes) (engine : Engine) (packets : List (Bytes × UInt8)) :
    Intake :=
  ⟨Conn.start cfg scramble engine [], packets⟩

/-- From a buffer with a whole packet on, the cuts do not matter. -/
theorem foldl_settle (w : Surroundings) (s : Intake) {first : Bytes} (hWhole : decodePacket first ≠ none)
    (chunks : List Bytes) : ∃ left,
      chunks.foldl (Intake.read w) (settle w first.length (s.withBuf first)) =
        ((packetStream.drain (first ++ chunks.flatten)).1.foldl (Intake.handle w) s).withBuf left := by
  obtain ⟨left, hSettled, hLeft⟩ := settle_eq w first.length s first (Nat.le_refl _)
  have hPhase : ((packetStream.drain first).1.foldl (Intake.handle w) s).conn.phase ≠ .handshake := by
    rcases hDecode : decodePacket first with _ | ⟨payload, q, rest⟩
    · exact absurd hDecode hWhole
    · rw [Framing.drain_some (decodePacketIn_some_iff.2 hDecode), List.foldl_cons]
      exact phase_foldl (phase_handle w s (payload, q)) _
  obtain ⟨left', hRest⟩ := foldl_read w chunks
    ((packetStream.drain first).1.foldl (Intake.handle w) s) left hPhase fun hOpen => by
      have hNone := Framing.decode_drained (F := packetStream) first
      rw [hLeft hOpen]
      rcases hDecode : decodePacket (packetStream.drain first).2 with _ | ⟨payload, q, rest⟩
      · rfl
      · have hSome := congrArg Prod.fst (decodePacketIn_some_iff.2 hDecode)
        exact absurd (hSome.symm.trans hNone) (Option.some_ne_none _)
  rw [hSettled, hRest, Framing.drain_append first chunks.flatten, List.foldl_append]
  by_cases hOpen : ((packetStream.drain first).1.foldl (Intake.handle w) s).conn.phase = .closed
  · rw [foldl_closed hOpen, foldl_closed hOpen]
    exact ⟨left', rfl⟩
  · rw [hLeft hOpen]
    exact ⟨left', rfl⟩

/-- On part of a packet the handshake loop stands still. -/
theorem foldl_stuck {w : Surroundings} {s : Intake} (hPhase : s.conn.phase = .handshake)
    (hSome : s.conn.buf ≠ []) (hPart : decodePacket s.conn.buf = none) (chunks : List Bytes) :
    chunks.foldl (Intake.read w) s = s := by
  induction chunks with
  | nil => rfl
  | cons chunk chunks ih =>
    have hIgnored : s.conn.step (.data chunk) = s.conn := by
      have hNot : s.conn.wantsRead = false := by
        unfold Conn.wantsRead
        rw [hPhase]
        exact List.isEmpty_eq_false_iff.2 hSome
      show (if s.conn.wantsRead then _ else s.conn) = _
      rw [hNot]
      rfl
    have hRead : s.read w chunk = s := by
      unfold Intake.read
      rw [hIgnored]
      exact settle_idle (.inl hPart) _
    rw [List.foldl_cons, hRead, ih]

/-- The first packet of a stream is that of each beginning that holds it. -/
theorem decodePacket_append {b payload rest : Bytes} {q : UInt8}
    (h : decodePacket b = some (payload, q, rest)) (more : Bytes) :
    decodePacket (b ++ more) = some (payload, q, rest ++ more) :=
  decodePacketIn_some_iff.1 (packetStream.stable (decodePacketIn_some_iff.2 h) more)

theorem isSslRequest_append {b : Bytes} (h : decodePacket b ≠ none) (more : Bytes) :
    isSslRequest (b ++ more) = isSslRequest b := by
  rcases hDecode : decodePacket b with _ | ⟨payload, q, rest⟩
  · exact absurd hDecode h
  · unfold isSslRequest
    rw [decodePacket_append hDecode more, hDecode]

/-- What is seen of a session whose first read holds the whole first packet: the
packets of the stream, behind a TLS request those of the rest. -/
theorem seen_plain {cfg : Config} {scramble : Bytes} {engine : Engine} {tls : Bool} (w : Surroundings)
    {first : Bytes} {rest : List Bytes} (hWhole : decodePacket first ≠ none)
    (hPlain : (tls && isSslRequest first) = false) :
    (serve cfg scramble engine tls w (first :: rest)).seen =
      ((packetStream.drain (first :: rest).flatten).1.foldl (Intake.handle w)
        (.start cfg scramble engine [])).seen := by
  obtain ⟨left, hServed⟩ := foldl_settle w (.start cfg scramble engine []) hWhole rest
  unfold serve Conn.accept
  simp only [hPlain, Bool.false_eq_true, if_false]
  show (rest.foldl (Intake.read w)
    (settle w first.length ((Intake.start cfg scramble engine []).withBuf first))).seen = _
  rw [hServed, List.flatten_cons]
  rfl

theorem seen_tls {cfg : Config} {scramble : Bytes} {engine : Engine} {tls : Bool} (w : Surroundings)
    {first payload : Bytes} {q : UInt8} {rest : List Bytes}
    (hDecode : decodePacket first = some (payload, q, [])) (hSsl : (tls && isSslRequest first) = true)
    (hSecond : ∀ second, rest.head? = some second → decodePacket second ≠ none) :
    (serve cfg scramble engine tls w (first :: rest)).seen =
      ((packetStream.drain rest.flatten).1.foldl (Intake.handle w)
        (.start cfg scramble engine [(payload, q)])).seen := by
  unfold serve Conn.accept
  simp only [hSsl, if_true, hDecode, Option.elim_some]
  have hEmpty : settle w first.length (Intake.start cfg scramble engine [(payload, q)]) =
      Intake.start cfg scramble engine [(payload, q)] := settle_idle (.inl rfl) _
  show (rest.foldl (Intake.read w)
    (settle w first.length (Intake.start cfg scramble engine [(payload, q)]))).seen = _
  rw [hEmpty]
  rcases rest with _ | ⟨second, rest⟩
  · rw [List.flatten_nil, Framing.drain_none Framing.decode_nil]
    rfl
  · obtain ⟨left, hServed⟩ := foldl_settle w (.start cfg scramble engine [(payload, q)])
      (hSecond second rfl) rest
    have hRead : (Intake.start cfg scramble engine [(payload, q)]).read w second =
        settle w second.length ((Intake.start cfg scramble engine [(payload, q)]).withBuf second) := rfl
    rw [List.foldl_cons, hRead, hServed, List.flatten_cons]
    rfl

/-- Where the first read ends inside the first packet, nothing happens any more. -/
theorem seen_part {cfg : Config} {scramble : Bytes} {engine : Engine} {tls : Bool} (w : Surroundings)
    {first : Bytes} (rest : List Bytes) (hSome : first ≠ []) (hPart : decodePacket first = none) :
    (serve cfg scramble engine tls w (first :: rest)).seen = ([], []) := by
  have hNoSsl : isSslRequest first = false := by
    unfold isSslRequest
    rw [hPart]
  unfold serve Conn.accept
  simp only [hNoSsl, Bool.and_false, Bool.false_eq_true, if_false]
  rw [settle_idle (.inl hPart), foldl_stuck rfl hSome hPart]
  rfl

/-- A packet that is taken stays taken. -/
theorem length_foldl_handle (w : Surroundings) (s : Intake) (ps : List (Bytes × UInt8)) :
    s.packets.length ≤ (ps.foldl (Intake.handle w) s).packets.length := by
  induction ps generalizing s with
  | nil => exact Nat.le_refl _
  | cons p ps ih =>
    have hHere : s.packets.length ≤ (s.handle w p).packets.length := by
      unfold Intake.handle
      split
      · exact Nat.le_refl _
      · simp only [List.length_append]
        omega
    exact Nat.le_trans hHere (ih _)

/-- The stream served as it is to be: behind a TLS request from what follows it. -/
def Intake.whole (cfg : Config) (scramble : Bytes) (engine : Engine) (tls : Bool) (w : Surroundings)
    (stream : Bytes) : Intake :=
  if tls && isSslRequest stream then
    (packetStream.drain ((decodePacket stream).elim [] fun p => p.2.2)).1.foldl (Intake.handle w)
      (.start cfg scramble engine ((decodePacket stream).elim [] fun p => [(p.1, p.2.1)]))
  else (packetStream.drain stream).1.foldl (Intake.handle w) (.start cfg scramble engine [])

theorem seen_firstWhole {cfg : Config} {scramble : Bytes} {engine : Engine} {tls : Bool}
    (w : Surroundings) {stream : Bytes} {reads : List Bytes} (hCuts : Cuts stream reads)
    (hFirst : FirstWhole tls reads) :
    (serve cfg scramble engine tls w reads).seen = (Intake.whole cfg scramble engine tls w stream).seen := by
  obtain rfl := hCuts.whole
  rcases reads with _ | ⟨first, rest⟩
  · have hNoSsl : isSslRequest [] = false := rfl
    unfold Intake.whole
    rw [List.flatten_nil, hNoSsl, Bool.and_false, if_neg Bool.false_ne_true,
      Framing.drain_none Framing.decode_nil]
    unfold serve Conn.accept
    rw [hNoSsl, Bool.and_false, if_neg Bool.false_ne_true]
    rfl
  · obtain ⟨payload, q, left, hDecode, hTls⟩ := hFirst first rest rfl
    have hWhole : decodePacket first ≠ none := by
      rw [hDecode]
      exact Option.some_ne_none _
    have hStream := decodePacket_append hDecode rest.flatten
    unfold Intake.whole
    rw [List.flatten_cons, isSslRequest_append hWhole]
    rcases hSsl : tls && isSslRequest first with _ | _
    · rw [if_neg Bool.false_ne_true, seen_plain w hWhole hSsl]
      rfl
    · obtain ⟨rfl, hSecond⟩ := hTls hSsl
      rw [if_pos rfl, seen_tls w hDecode hSsl hSecond, hStream]
      rfl

/-- Without a whole packet in the stream nothing is taken, however it is cut. -/
theorem seen_noPacket {cfg : Config} {scramble : Bytes} {engine : Engine} {tls : Bool}
    (w : Surroundings) {stream : Bytes} (hNone : decodePacket stream = none) {reads : List Bytes}
    (hCuts : Cuts stream reads) : (serve cfg scramble engine tls w reads).seen = ([], []) := by
  rcases reads with _ | ⟨first, rest⟩
  · rfl
  · refine seen_part w rest (hCuts.nonempty first (List.mem_cons_self ..)) ?_
    rcases hDecode : decodePacket first with _ | ⟨payload, q, left⟩
    · rfl
    · have hStream := decodePacket_append hDecode rest.flatten
      rw [← List.flatten_cons, hCuts.whole, hNone] at hStream
      exact absurd hStream.symm (Option.some_ne_none _)

/-- In one read, the first packet of a stream is taken. -/
theorem seen_oneRead (cfg : Config) (scramble : Bytes) (engine : Engine) (tls : Bool)
    (w : Surroundings) {stream payload rest : Bytes} {q : UInt8}
    (hDecode : decodePacket stream = some (payload, q, rest)) :
    (serve cfg scramble engine tls w [stream]).seen.1 ≠ [] := by
  have hWhole : decodePacket stream ≠ none := by
    rw [hDecode]
    exact Option.some_ne_none _
  rcases hSsl : tls && isSslRequest stream with _ | _
  · have hStart : ((Intake.start cfg scramble engine []).handle w (payload, q)).packets =
        [(payload, q)] := rfl
    have hLength := length_foldl_handle w ((Intake.start cfg scramble engine []).handle w (payload, q))
      (packetStream.drain rest).1
    rw [seen_plain w hWhole hSsl, List.flatten_singleton,
      Framing.drain_some (decodePacketIn_some_iff.2 hDecode), List.foldl_cons]
    rw [hStart, List.length_singleton] at hLength
    exact List.ne_nil_of_length_pos hLength
  · unfold serve Conn.accept
    simp only [hSsl, if_true, hDecode, Option.elim_some, List.foldl_nil]
    have hIdle : settle w stream.length (Intake.start cfg scramble engine [(payload, q)]) =
        Intake.start cfg scramble engine [(payload, q)] := settle_idle (.inl rfl) _
    show (settle w stream.length (Intake.start cfg scramble engine [(payload, q)])).seen.1 ≠ []
    rw [hIdle]
    exact List.cons_ne_nil _ _

/-- **Segmentation.** The packets and replies are the same for all ways of
cutting a stream into reads if and only if the stream holds no whole packet. They
are the same for any two ways whose first read holds the whole first packet (a
TLS request alone, with the packet behind it whole in the next read). And a loop
that has part of a packet reads on, unless it is the handshake loop with
something in its buffer. -/
theorem segmentation_iff (cfg : Config) (scramble : Bytes) (engine : Engine) (tls : Bool)
    (w : Surroundings) (stream : Bytes) :
    ((∀ reads reads', Cuts stream reads → Cuts stream reads' →
        (serve cfg scramble engine tls w reads).seen = (serve cfg scramble engine tls w reads').seen) ↔
      decodePacket stream = none) ∧
    (∀ reads reads', Cuts stream reads → Cuts stream reads' → FirstWhole tls reads →
      FirstWhole tls reads' →
        (serve cfg scramble engine tls w reads).seen = (serve cfg scramble engine tls w reads').seen) ∧
    ∀ c : Conn, c.phase ≠ .closed → decodePacket c.buf = none →
      (c.wantsRead = true ↔ (c.phase = .handshake → c.buf = [])) := by
  refine ⟨⟨fun hAll => ?_, fun hNone reads reads' hCuts hCuts' => ?_⟩,
    fun reads reads' hCuts hCuts' hFirst hFirst' => ?_, fun c hOpen hPart => ?_⟩
  · by_contra hSome
    rcases hDecode : decodePacket stream with _ | ⟨payload, q, rest⟩
    · exact hSome hDecode
    · -- all in one read, and the first byte in a read of its own
      obtain ⟨b0, b1, b2, hBytes, -⟩ := decodePacket_eq_some_iff.1 hDecode
      have hOne : Cuts stream [stream] := by
        refine ⟨List.flatten_singleton .., fun chunk hIn => ?_⟩
        obtain rfl := List.mem_singleton.1 hIn
        rw [hBytes]
        exact List.cons_ne_nil _ _
      have hTwo : Cuts stream [[b0], b1 :: b2 :: q :: (payload ++ rest)] := by
        refine ⟨by rw [List.flatten_cons, List.flatten_singleton, hBytes]; rfl, fun chunk hIn => ?_⟩
        rcases List.mem_pair.1 hIn with rfl | rfl <;> exact List.cons_ne_nil _ _
      have hSame := hAll _ _ hOne hTwo
      have hTaken := seen_oneRead cfg scramble engine tls w hDecode
      rw [seen_part w _ (List.cons_ne_nil _ _) rfl] at hSame
      exact hTaken (congrArg Prod.fst hSame)
  · rw [seen_noPacket w hNone hCuts, seen_noPacket w hNone hCuts']
  · rw [seen_firstWhole w hCuts hFirst, seen_firstWhole w hCuts' hFirst']
  · unfold Conn.wantsRead
    rcases hPhase : c.phase with _ | _ | _
    · exact ⟨fun hEmpty _ => List.isEmpty_iff.1 hEmpty, fun hEmpty => List.isEmpty_iff.2 (hEmpty rfl)⟩
    · simp only [hPart, Option.isNone_none]
      exact ⟨fun _ hHand => (by cases hHand), fun _ => trivial⟩
    · exact absurd hPhase hOpen

end Intakes

-- ---------------------------------------------------------------------------
-- A handshake response in two reads
-- ---------------------------------------------------------------------------

section TwoReads

local instance segmentationPlatform : Platform := tablePlatform []

/-- A handshake response of 34 bytes in one read, and with its first byte in a
read of its own. -/
theorem not_segmentation :
    ¬ ∀ (cfg : Config) (scramble : Bytes) (engine : Engine) (tls : Bool) (w : Surroundings)
      (stream : Bytes) (reads reads' : List Bytes), Cuts stream reads → Cuts stream reads' →
        (serve cfg scramble engine tls w reads).seen = (serve cfg scramble engine tls w reads').seen := by
  intro hAll
  have hStream : encodePacket (List.replicate 34 0) 1 =
      34 :: (toLe 2 0 ++ 1 :: List.replicate 34 0) := by decide +kernel
  have hSame := hAll ⟨[]⟩ [] (Engine.fresh []) false ⟨fun _ => 0, fun _ e => e⟩
    (encodePacket (List.replicate 34 0) 1)
    [encodePacket (List.replicate 34 0) 1] [[34], toLe 2 0 ++ 1 :: List.replicate 34 0]
    ⟨by decide +kernel, by decide +kernel⟩ ⟨by decide +kernel, by decide +kernel⟩
  have hDecode := @decodePacket_encodePacket (List.replicate 34 0) (by decide) 1 []
  rw [List.append_nil] at hDecode
  have hTaken := seen_oneRead ⟨[]⟩ [] (Engine.fresh []) false
    ⟨fun _ => 0, fun _ e => e⟩ hDecode
  rw [seen_part _ _ (List.cons_ne_nil _ _) rfl] at hSame
  exact hTaken (congrArg Prod.fst hSame)

end TwoReads

end RunAlexDb
