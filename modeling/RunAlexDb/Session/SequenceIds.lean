import RunAlexDb.Session.AuthGate
import RunAlexDb.Session.ResultFraming

/-!
# SequenceIds — the numbers of the packets in a reply

The packets that answer a client packet with number `q` are to carry `q + 1`,
`q + 2` and so on. Every reply to a command starts at 1. Both replies to a
handshake response carry 2, whatever the response itself carries: after a TLS
request it is the client's third packet.

Main result: `inOrder_iff`.
-/

set_option linter.unusedSectionVars false

namespace RunAlexDb

open Text Platform
open Prog (Moves)

-- ---------------------------------------------------------------------------
-- The property
-- ---------------------------------------------------------------------------

/-- The bytes are packets with consecutive numbers from `seq`. -/
def NumberedFrom (seq : UInt8) (out : Bytes) : Prop :=
  ∃ payloads : List Bytes, out = numbered encodePacket seq payloads

def Event.bytes : Event → Bytes
  | .reply out => out
  | .handshakeReply out => out
  | .authenticated _ => []
  | .executes _ _ => []

/-- What was written to the client. -/
def sent (events : List Event) : Bytes := events.flatMap Event.bytes

/-- The number a reply has to start with: one more than that of the packet it
answers, which is 0 for a command. -/
def Phase.firstReply (phase : Phase) (q : UInt8) : UInt8 :=
  match phase with
  | .handshake => q + 1
  | .command | .closed => 1

variable [Platform] in
/-- What a step writes in answer to a client packet is numbered in order. -/
def InOrder (c : Conn) : Label → Prop
  | .tick now => ∀ payload q rest, decodePacket c.buf = some (payload, q, rest) →
      NumberedFrom (c.phase.firstReply q) (sent ((c.tick now).events.drop c.events.length))
  | .data _ | .eof | .world _ => True

variable [Platform] in
/-- A handshake response that is answered carries the number 1. -/
def FirstIsOne (c : Conn) : Label → Prop
  | .tick _ => c.phase = .handshake → ∀ payload q rest, decodePacket c.buf = some (payload, q, rest) →
      33 ≤ payload.length → (∃ h, parseHandshake payload = .ok h) → q = 1
  | .data _ | .eof | .world _ => True

-- ---------------------------------------------------------------------------
-- Numbered bytes
-- ---------------------------------------------------------------------------

theorem NumberedFrom.nil (seq : UInt8) : NumberedFrom seq [] := ⟨[], rfl⟩

theorem NumberedFrom.single (seq : UInt8) (payload : Bytes) :
    NumberedFrom seq (encodePacket payload seq) := by
  refine ⟨[payload], ?_⟩
  rw [numbered_cons, numbered_nil, List.append_nil]

/-- One packet is numbered from its own number only. -/
theorem numberedFrom_encodePacket {seq seq' : UInt8} {payload : Bytes} :
    NumberedFrom seq' (encodePacket payload seq) ↔ seq' = seq := by
  constructor
  · rintro ⟨payloads, hOut⟩
    have hFourth : ∀ (p : Bytes) (s : UInt8) (rest : Bytes), (encodePacket p s ++ rest)[3]? = some s :=
      fun _ _ _ => rfl
    rcases payloads with _ | ⟨p, payloads⟩
    · exact absurd hOut (List.cons_ne_nil _ _)
    · rw [numbered_cons] at hOut
      have hOwn := hFourth payload seq []
      have hFirst := hFourth p seq' (numbered encodePacket (seq' + 1) payloads)
      rw [List.append_nil, hOut, hFirst] at hOwn
      exact Option.some.inj hOwn
  · rintro rfl
    exact .single ..

theorem sent_append (events new : List Event) : sent (events ++ new) = sent events ++ sent new :=
  List.flatMap_append ..

-- ---------------------------------------------------------------------------
-- What the commands answer
-- ---------------------------------------------------------------------------

section Answers

variable [Platform]

theorem numberedFrom_buildResult (result : QueryResult) (seq : UInt8) :
    NumberedFrom seq (buildResult result seq) := by
  rcases result with ⟨affected, lastInsertId⟩ | ⟨code, message⟩ | ⟨columns, rows⟩ | ⟨columns, rows⟩
  · exact .single ..
  · exact .single ..
  · exact ⟨_, resultSet_numbered columns rows textRow seq⟩
  · exact ⟨_, resultSet_numbered columns rows (fun r => r.flatMap valueText) seq⟩

theorem numberedFrom_buildBinaryResult (result : QueryResult) (seq : UInt8) :
    NumberedFrom seq (buildBinaryResult result seq) := by
  rcases result with ⟨affected, lastInsertId⟩ | ⟨code, message⟩ | ⟨columns, rows⟩ | ⟨columns, rows⟩
  · exact .single ..
  · exact .single ..
  · exact ⟨_, resultSet_numbered columns rows binaryRow seq⟩
  · exact ⟨_, resultSet_numbered columns rows (fun r => r.flatMap valueText) seq⟩

theorem numberedFrom_select1Response : NumberedFrom 1 select1Response :=
  ⟨[[1], columnDef "" "" "1" 0xfd 0, eofPacket, [1, 0x31], eofPacket], by decide +kernel⟩

theorem numberedFrom_prepared (id n : Nat) :
    NumberedFrom 1 (encodePacket (stmtPrepareOk id n 0) 1 ++
      (if 0 < n then numbered (fun _ s => encodePacket (columnDef [] [] "?" 0xfd 0) s) 2 (List.range n) ++
        encodePacket eofPacket (2 + UInt8.ofNat n) else [])) := by
  by_cases hSome : 0 < n
  · refine ⟨stmtPrepareOk id n 0 ::
      ((List.range n).map (fun _ => columnDef [] [] "?" 0xfd 0) ++ [eofPacket]), ?_⟩
    rw [if_pos hSome, numbered_cons, numbered_append, numbered_map, numbered_cons, numbered_nil,
      List.length_map, List.length_range, List.append_nil]
    rfl
  · rw [if_neg hSome, List.append_nil]
    exact .single ..

/-- The answer the session keeps is numbered from 1. -/
def CacheInOrder (c : Conn) : Prop := ∀ out, c.l0Bytes = some out → NumberedFrom 1 out

/-- From `c` to `c'` nothing was written, and the kept answer stays. -/
structure Quiet (c c' : Conn) : Prop where
  kept : c'.l0Bytes = c.l0Bytes
  events : ∃ new, c'.events = c.events ++ new ∧ sent new = []

instance : Std.Refl Quiet where
  refl _ := ⟨rfl, [], (List.append_nil _).symm, rfl⟩

instance : IsTrans Conn Quiet where
  trans _ _ _ hab hbc := by
    obtain ⟨new, hNew, hSilent⟩ := hab.events
    obtain ⟨new', hNew', hSilent'⟩ := hbc.events
    refine ⟨hbc.kept.trans hab.kept, new ++ new', ?_, ?_⟩
    · rw [hNew', hNew, List.append_assoc]
    · rw [sent_append, hSilent, hSilent', List.append_nil]

theorem Quiet.same {c c' : Conn} (hKept : c'.l0Bytes = c.l0Bytes) (hEvents : c'.events = c.events) :
    Quiet c c' := ⟨hKept, [], by rw [hEvents, List.append_nil], rfl⟩

/-- Run from `c`, the program writes packets numbered from 1 and keeps no other
answer. -/
structure AnswersAt {α : Type} (m : ConnM α) (c : Conn) : Prop where
  cache : CacheInOrder (m.exec c).2
  events : ∃ new, (m.exec c).2.events = c.events ++ new ∧ NumberedFrom 1 (sent new)

/-- It does so from every session that keeps such an answer. -/
def Answers {α : Type} (m : ConnM α) : Prop := ∀ c, CacheInOrder c → AnswersAt m c

theorem Answers.send {out : Bytes} (h : NumberedFrom 1 out) : Answers (send out) := by
  refine fun c hCache => ⟨hCache, [.reply out], rfl, ?_⟩
  rwa [sent, List.flatMap_singleton]

theorem Answers.of_quiet {α : Type} {m : ConnM α} (h : Moves Quiet m) : Answers m := by
  intro c hCache
  have hQuiet := h c
  obtain ⟨new, hNew, hSilent⟩ := hQuiet.events
  refine ⟨fun out hOut => hCache out (hQuiet.kept ▸ hOut), new, hNew, ?_⟩
  rw [hSilent]
  exact .nil 1

/-- Something that writes nothing may stand before what answers. -/
theorem Answers.bind {α β : Type} {m : ConnM α} {f : α → ConnM β} (hm : Moves Quiet m)
    (hf : ∀ a, Answers (f a)) : Answers (m >>= f) := by
  intro c hCache
  have hQuiet := hm c
  have hCache' : CacheInOrder (m.exec c).2 := fun out hOut => hCache out (hQuiet.kept ▸ hOut)
  obtain ⟨new, hNew, hSilent⟩ := hQuiet.events
  rcases hExec : m.exec c with ⟨fault | a, c'⟩
  · have hWhole : (m >>= f).exec c = (.error fault, c') := by rw [Prog.exec_bind, hExec]
    rw [hExec] at hCache' hNew
    refine ⟨by rwa [hWhole], new, by rw [hWhole, hNew], ?_⟩
    rw [hSilent]
    exact .nil 1
  · rw [hExec] at hCache' hNew
    obtain ⟨hKept, new', hNew', hNumbered⟩ := hf a c' hCache'
    have hWhole := Prog.exec_bind_ok (f := f) hExec
    refine ⟨by rwa [hWhole], new ++ new', by rw [hWhole, hNew', hNew, List.append_assoc], ?_⟩
    rwa [sent_append, hSilent, List.nil_append]

/-- What a program does depends on the session it starts from. -/
theorem Answers.get_bind {α : Type} {f : Conn → ConnM α}
    (h : ∀ c, CacheInOrder c → AnswersAt (f c) c) : Answers (get >>= f) := fun c hCache =>
  ⟨(h c hCache).cache, (h c hCache).events⟩

theorem quiet_modify {f : Conn → Conn} (hKept : ∀ c, (f c).l0Bytes = c.l0Bytes)
    (hEvents : ∀ c, (f c).events = c.events) : Moves Quiet (modify f : ConnM Unit) :=
  Moves.modify fun c => .same (hKept c) (hEvents c)

theorem quiet_onEngine {α : Type} (m : EngineM α) : Moves Quiet (onEngine m) :=
  fun _ => .same rfl rfl

/-- Announcing a statement and running it. -/
theorem quiet_executes {α : Type} (user sql : Conn → Str) (m : Conn → EngineM α) :
    Moves Quiet (do
      let c ← get
      emit (.executes (user c) (sql c))
      onEngine (m c)) :=
  fun c => ⟨rfl, [.executes (user c) (sql c)], rfl, rfl⟩

theorem quiet_takeUse (sql : Str) : Moves Quiet (takeUse sql) := by
  refine Moves.bind (Moves.ofExcept _) fun target => ?_
  rcases target with _ | db
  · exact Moves.pure _
  · exact quiet_modify (fun _ => rfl) fun _ => rfl

theorem answers_handleTxn (t : TxnControl) : Answers (handleTxn t) := by
  have hReply : Answers (send okReply) := .send (.single 1 _)
  rcases t with _ | _ | _
  · exact .bind (quiet_modify (fun _ => rfl) fun _ => rfl) fun _ => hReply
  · exact .bind (quiet_modify (fun _ => rfl) fun _ => rfl) fun _ => hReply
  · refine .bind (Moves.modify fun c => ?_) fun _ => hReply
    unfold Conn.rollback
    split
    · exact .same rfl rfl
    · exact .same rfl rfl

/-- The answer that is kept is the one that is sent. -/
theorem answers_executeAndCache (now : Nat) (sql : Str) : Answers (executeAndCache now sql) := by
  refine .bind (quiet_executes (fun c => c.effectiveUser) (fun _ => sql)
    fun c => execute now sql c.currentDb c.effectiveUser) fun result => ?_
  have hNumbered := numberedFrom_buildResult result 1
  intro c hCache
  obtain ⟨hSentCache, new, hNew, hSent⟩ := Answers.send hNumbered c hCache
  by_cases hErr : (!result.isErr) = true
  · simp only [if_pos hErr]
    exact ⟨fun out hOut => Option.some.inj hOut ▸ hNumbered, new, hNew, hSent⟩
  · simp only [if_neg hErr]
    exact ⟨hSentCache, new, hNew, hSent⟩

theorem answers_answerQuery (now : Nat) (sql : Str) : Answers (answerQuery now sql) := by
  refine .get_bind fun c hCache => ?_
  rcases hHit : c.l0Hit sql with _ | cached
  · exact answers_executeAndCache now sql c hCache
  · have hFrom : c.l0Bytes = some cached := by
      unfold Conn.l0Hit at hHit
      split at hHit
      · exact hHit
      · exact absurd hHit.symm (Option.some_ne_none _)
    exact Answers.send (hCache cached hFrom) c hCache

theorem answers_handleQuery (now : Nat) (sql : Str) : Answers (handleQuery now sql) := by
  unfold handleQuery
  split
  · exact .send numberedFrom_select1Response
  · refine .bind (quiet_takeUse sql) fun _ => ?_
    split
    · exact answers_handleTxn _
    · exact answers_answerQuery now sql

theorem answers_handleStmtPrepare (sql : Str) : Answers (handleStmtPrepare sql) := by
  intro c hCache
  refine ⟨hCache, [.reply _], rfl, ?_⟩
  rw [sent, List.flatMap_singleton]
  exact numberedFrom_prepared c.nextStmtId ((bytes sql).count 0x3f % 2 ^ 16)

theorem answers_handleStmtExecute (now : Nat) (payload : Bytes) (id : Nat) :
    Answers (handleStmtExecute now payload id) := by
  refine .get_bind fun c hCache => ?_
  rcases hStmt : c.stmtCache.get id with _ | stmt
  · exact Answers.send (.single 1 _) c hCache
  · have hAnnounce : Moves Quiet (emit (.executes c.effectiveUser stmt.sql)) :=
      fun _ => ⟨rfl, [.executes c.effectiveUser stmt.sql], rfl, rfl⟩
    exact Answers.bind hAnnounce (fun _ => .bind (quiet_onEngine _) fun result =>
      .send (numberedFrom_buildBinaryResult result 1)) c hCache

theorem answers_handleStmtReset (id : Nat) : Answers (handleStmtReset id) := by
  refine .get_bind fun c hCache => ?_
  by_cases hKnown : c.stmtCache.containsKey id = true
  · rw [if_pos hKnown]
    exact Answers.send (.single 1 _) c hCache
  · rw [if_neg hKnown]
    exact Answers.send (.single 1 _) c hCache

/-- Every reply to a command is numbered from 1. -/
theorem answers_handleCommand (now : Nat) (payload : Bytes) : Answers (handleCommand now payload) := by
  have hOk : Answers (send okReply) := .send (.single 1 _)
  have hQuit : Moves Quiet (modify fun c : Conn => { c with phase := .closed }) :=
    quiet_modify (fun _ => rfl) fun _ => rfl
  have hInit : ∀ name, Answers (handleInitDb name) := fun name =>
    .bind (quiet_modify (fun _ => rfl) fun _ => rfl) fun _ => hOk
  have hClose : ∀ id, Moves Quiet
      (modify fun c : Conn => { c with stmtCache := c.stmtCache.remove id }) :=
    fun id => quiet_modify (fun _ => rfl) fun _ => rfl
  unfold handleCommand
  rcases parseCommand payload with sql | _ | _ | name | name | sql | id | id | id | c
  · exact answers_handleQuery now sql
  · exact hOk
  · exact .of_quiet hQuit
  · exact hInit name
  · exact .send (.single 1 _)
  · exact answers_handleStmtPrepare sql
  · exact answers_handleStmtExecute now payload id
  · exact .of_quiet (hClose id)
  · exact answers_handleStmtReset id
  · exact .send (.single 1 _)

-- ---------------------------------------------------------------------------
-- Steps
-- ---------------------------------------------------------------------------

/-- The session after a handler, which may panic, has written the same. -/
theorem run_events (c : Conn) (m : ConnM Unit) : (c.run m).events = (m.exec c).2.events := by
  unfold Conn.run
  rcases m.exec c with ⟨_ | _, c'⟩ <;> rfl

theorem run_l0Bytes (c : Conn) (m : ConnM Unit) : (c.run m).l0Bytes = (m.exec c).2.l0Bytes := by
  unfold Conn.run
  rcases m.exec c with ⟨_ | _, c'⟩ <;> rfl

/-- What the handshake loop does with a packet: nothing is written for a payload
it gives up on, else one packet with the number 2. -/
theorem handshake_writes (c : Conn) (payload : Bytes) :
    ((handleHandshake payload).exec c).2.l0Bytes = c.l0Bytes ∧
      ∃ new, ((handleHandshake payload).exec c).2.events = c.events ++ new ∧
        ((sent new = [] ∧ ¬ (33 ≤ payload.length ∧ ∃ h, parseHandshake payload = .ok h)) ∨
          ∃ reply, sent new = encodePacket reply 2 ∧ 33 ≤ payload.length ∧
            ∃ h, parseHandshake payload = .ok h) := by
  unfold handleHandshake
  by_cases hShort : payload.length < 33
  · rw [if_pos hShort]
    exact ⟨rfl, [], (List.append_nil _).symm, .inl ⟨rfl, fun h => by omega⟩⟩
  · have hLong : 33 ≤ payload.length := by omega
    rw [if_neg hShort]
    rcases hParse : parseHandshake payload with fault | h
    · refine ⟨rfl, [], (List.append_nil _).symm, .inl ⟨rfl, fun hBoth => ?_⟩⟩
      obtain ⟨-, h, hOk⟩ := hBoth
      exact absurd hOk (by simp)
    · simp only [Prog.exec_bind, Prog.exec_ofExcept, Prog.exec_modify, Prog.exec_get]
      by_cases hAuth : authOk c.cfg c.engine c.scramble h = true
      · rw [if_pos hAuth, exec_login]
        exact ⟨rfl, _, rfl, .inr ⟨okPacket 0 0, rfl, hLong, h, rfl⟩⟩
      · rw [if_neg hAuth]
        exact ⟨rfl, [.handshakeReply _], rfl,
          .inr ⟨errPacket 1045 "Access denied", List.append_nil _, hLong, h, rfl⟩⟩

/-- What is new in a trace. -/
theorem drop_of_append {events events' new : List Event} (h : events' = events ++ new) :
    events'.drop events.length = new := by
  rw [h, List.drop_left]

theorem cacheInOrder_step (c : Conn) (l : Label) (hCache : CacheInOrder c) :
    CacheInOrder (c.step l) := by
  rcases l with chunk | _ | now | engine
  · show CacheInOrder (if c.wantsRead then _ else c)
    split <;> exact hCache
  · show CacheInOrder (if c.wantsRead then _ else c)
    split <;> exact hCache
  · show CacheInOrder (c.tick now)
    unfold Conn.tick
    rcases hDecode : decodePacket c.buf with _ | ⟨payload, q, rest⟩
    · exact hCache
    · rcases hPhase : c.phase with _ | _ | _
      · obtain ⟨hKept, -⟩ := handshake_writes { c with phase := .handshake, buf := rest } payload
        intro out hOut
        simp only [run_l0Bytes, hKept] at hOut
        exact hCache out hOut
      · obtain ⟨hKept, -⟩ := answers_handleCommand now payload
          { c with phase := .command, buf := rest } hCache
        intro out hOut
        simp only [run_l0Bytes] at hOut
        exact hKept out hOut
      · exact hCache
  · exact hCache

theorem inOrder_tick {c : Conn} {now : Nat} {payload rest : Bytes} {q : UInt8}
    (hDecode : decodePacket c.buf = some (payload, q, rest)) :
    InOrder c (.tick now) ↔
      NumberedFrom (c.phase.firstReply q) (sent ((c.tick now).events.drop c.events.length)) := by
  constructor
  · exact fun h => h payload q rest hDecode
  · intro h payload' q' rest' hDecode'
    rw [hDecode] at hDecode'
    obtain ⟨-, hTail⟩ := Prod.mk.inj (Option.some.inj hDecode')
    obtain ⟨rfl, -⟩ := Prod.mk.inj hTail
    exact h

theorem firstIsOne_tick {c : Conn} {now : Nat} {payload rest : Bytes} {q : UInt8}
    (hPhase : c.phase = .handshake) (hDecode : decodePacket c.buf = some (payload, q, rest)) :
    FirstIsOne c (.tick now) ↔
      (33 ≤ payload.length ∧ (∃ h, parseHandshake payload = .ok h) → q = 1) := by
  constructor
  · exact fun h hBoth => h hPhase payload q rest hDecode hBoth.1 hBoth.2
  · intro h _ payload' q' rest' hDecode' hLong hParse
    rw [hDecode] at hDecode'
    obtain ⟨rfl, hTail⟩ := Prod.mk.inj (Option.some.inj hDecode')
    obtain ⟨rfl, -⟩ := Prod.mk.inj hTail
    exact h ⟨hLong, hParse⟩

theorem add_one_eq_two {q : UInt8} : q + 1 = 2 ↔ q = 1 := by
  rw [show (2 : UInt8) = 1 + 1 from rfl, UInt8.add_left_inj]

/-- A step is in order if and only if a handshake response that it answers has
the number 1. -/
theorem inOrder_step_iff {c : Conn} (hCache : CacheInOrder c) (l : Label) :
    InOrder c l ↔ FirstIsOne c l := by
  rcases l with chunk | _ | now | engine
  · exact Iff.rfl
  · exact Iff.rfl
  · rcases hDecode : decodePacket c.buf with _ | ⟨payload, q, rest⟩
    · simp [InOrder, FirstIsOne, hDecode]
    · rw [inOrder_tick hDecode]
      rcases hPhase : c.phase with _ | _ | _
      · rw [firstIsOne_tick hPhase hDecode]
        have hTick : c.tick now = ({ c with phase := .handshake, buf := rest } : Conn).run
            (handleHandshake payload) := by
          unfold Conn.tick
          simp only [hDecode, hPhase]
        obtain ⟨-, new, hNew, hWritten⟩ :=
          handshake_writes { c with phase := .handshake, buf := rest } payload
        rw [hTick, run_events, drop_of_append hNew]
        rcases hWritten with ⟨hSilent, hNot⟩ | ⟨reply, hReply, hAnswered⟩
        · rw [hSilent]
          exact ⟨fun _ hBoth => absurd hBoth hNot, fun _ => .nil _⟩
        · rw [hReply, numberedFrom_encodePacket]
          exact ⟨fun h _ => add_one_eq_two.1 h, fun h => add_one_eq_two.2 (h hAnswered)⟩
      · have hTick : c.tick now = ({ c with phase := .command, buf := rest } : Conn).run
            (handleCommand now payload) := by
          unfold Conn.tick
          simp only [hDecode, hPhase]
        obtain ⟨-, new, hNew, hNumbered⟩ := answers_handleCommand now payload
          { c with phase := .command, buf := rest } hCache
        rw [hTick, run_events, drop_of_append hNew]
        refine ⟨fun _ hHand => ?_, fun _ => hNumbered⟩
        rw [hPhase] at hHand
        cases hHand
      · have hTick : (c.tick now).events = c.events := by
          unfold Conn.tick
          simp only [hDecode, hPhase]
        rw [hTick, List.drop_length]
        refine ⟨fun _ hHand => ?_, fun _ => .nil _⟩
        rw [hPhase] at hHand
        cases hHand
  · exact Iff.rfl

/-- **Packet numbers.** In a run of a session, plain or with TLS, all replies are
numbered in order if and only if each handshake response that is answered
carries the number 1. -/
theorem inOrder_iff (cfg : Config) (scramble : Bytes) (engine : Engine) (tls : Bool) (first : Bytes)
    (labels : List Label) :
    Trace.Along Conn.step InOrder (Conn.accept cfg scramble engine tls first) labels ↔
      Trace.Along Conn.step FirstIsOne (Conn.accept cfg scramble engine tls first) labels := by
  have hStart : CacheInOrder (Conn.accept cfg scramble engine tls first) :=
    fun out hOut => absurd hOut.symm (Option.some_ne_none out)
  constructor
  · exact Trace.Along.of_invariant (fun c l hCache _ => cacheInOrder_step c l hCache)
      (fun c l hCache h => (inOrder_step_iff hCache l).1 h) hStart
  · exact Trace.Along.of_invariant (fun c l hCache _ => cacheInOrder_step c l hCache)
      (fun c l hCache h => (inOrder_step_iff hCache l).2 h) hStart

end Answers

-- ---------------------------------------------------------------------------
-- A session with TLS
-- ---------------------------------------------------------------------------

section Tls

local instance sequenceIdsPlatform : Platform := tablePlatform []

/-- A request for TLS: 32 bytes with the CLIENT_SSL bit, number 1. -/
def sslRequest : Bytes := encodePacket (0 :: 8 :: List.replicate 30 0) 1

/-- The response to it is the client's packet number 2, and so is the reply. -/
theorem not_inOrder :
    ¬ ∀ (cfg : Config) (scramble : Bytes) (engine : Engine) (tls : Bool) (first : Bytes)
      (labels : List Label),
      Trace.Along Conn.step InOrder (Conn.accept cfg scramble engine tls first) labels := by
  intro hAll
  have hRun := hAll ⟨[]⟩ [] (Engine.fresh []) true sslRequest
    [.data (encodePacket (List.replicate 34 0) 2), .tick 0]
  have hCache : CacheInOrder ((Conn.accept ⟨[]⟩ [] (Engine.fresh []) true sslRequest).step
      (.data (encodePacket (List.replicate 34 0) 2))) := by
    have hStart : CacheInOrder (Conn.accept ⟨[]⟩ [] (Engine.fresh []) true sslRequest) :=
      fun out hOut => absurd hOut.symm (Option.some_ne_none out)
    exact cacheInOrder_step _ _ hStart
  have hFirst := (inOrder_step_iff hCache (.tick 0)).1 hRun.2.1
  have hOne : (2 : UInt8) = 1 := hFirst (by decide +kernel) (List.replicate 34 0) 2 []
    (by decide +kernel) (by decide) ⟨_, rfl⟩
  exact absurd hOne (by decide)

end Tls

end RunAlexDb
