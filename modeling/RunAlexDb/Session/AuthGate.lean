import RunAlexDb.Lib.Trace
import RunAlexDb.Model.Concrete
import RunAlexDb.Model.Server

/-!
# AuthGate — who may run commands in a session

A session is gated when it executes statements only as a user that passed the
password check before, and answers a command with OK only after some user did.
The handshake loop leaves for the command loop on three ways; the way of a
payload under 33 bytes passes no check.

Main results: `gateInv_step`, the invariant of sessions whose first packet is
long enough, and `gated_iff`.
-/

set_option linter.unusedSectionVars false

namespace RunAlexDb

open Text Platform
open Prog (Moves)

-- ---------------------------------------------------------------------------
-- The property
-- ---------------------------------------------------------------------------

/-- An OK packet: the first byte of its payload is 0. -/
def isOkReply (out : Bytes) : Prop := out[4]? = some 0

/-- What a session may do after the events `before`. -/
def gateAllows (before : List Event) : Event → Prop
  | .executes user _ => .authenticated user ∈ before
  | .reply out => isOkReply out → ∃ user, .authenticated user ∈ before
  | .authenticated _ => True
  | .handshakeReply _ => True

/-- Commands run, and are answered with OK, only as a user that passed the
password check before. -/
def Gated (events : List Event) : Prop := Trace.Guarded gateAllows events

/-- The sessions of `handle_connection` by the payload of the first packet their
handshake loop reads, `none` when the first read ends inside it. -/
inductive Starts (cfg : Config) (scramble : Bytes) : Option Bytes → Conn → Prop
  /-- The first read is no SSLRequest, or there is no TLS. -/
  | plain (engine : Engine) (tls : Bool) (first : Bytes) (hRead : first ≠ [])
      (hPlain : (tls && isSslRequest first) = false) :
      Starts cfg scramble ((decodePacket first).map (·.1))
        (Conn.accept cfg scramble engine tls first)
  /-- The session's first read on the TLS stream. -/
  | tls [Platform] (engine : Engine) (ssl first : Bytes) (hRead : first ≠ [])
      (hSsl : isSslRequest ssl = true) :
      Starts cfg scramble ((decodePacket first).map (·.1))
        ((Conn.accept cfg scramble engine true ssl).step (.data first))

-- ---------------------------------------------------------------------------
-- What a command handler does to the session
-- ---------------------------------------------------------------------------

/-- From `c` to `c'` only commands were run and answered, as the user of `c`. -/
structure CommandMove (c c' : Conn) : Prop where
  user : c'.effectiveUser = c.effectiveUser
  phase : c'.phase = c.phase ∨ c'.phase = .closed
  events : ∃ new, c'.events = c.events ++ new ∧
    ∀ ev ∈ new, (∃ out, ev = .reply out) ∨ ∃ sql, ev = .executes c.effectiveUser sql

instance : Std.Refl CommandMove where
  refl c := ⟨rfl, .inl rfl, [], by simp, by simp⟩

instance : IsTrans Conn CommandMove where
  trans a b c hab hbc := by
    refine ⟨hbc.user.trans hab.user, ?_, ?_⟩
    · rcases hbc.phase with h | h
      · rw [h]; exact hab.phase
      · exact .inr h
    · obtain ⟨new, hNew, hAll⟩ := hab.events
      obtain ⟨new', hNew', hAll'⟩ := hbc.events
      refine ⟨new ++ new', by rw [hNew', hNew, List.append_assoc], ?_⟩
      intro ev hMem
      rcases List.mem_append.1 hMem with h | h
      · exact hAll ev h
      · rw [← hab.user]
        exact hAll' ev h

/-- A step that leaves user and events alone, and the phase too. -/
theorem CommandMove.quiet {c c' : Conn} (hUser : c'.effectiveUser = c.effectiveUser)
    (hPhase : c'.phase = c.phase) (hEvents : c'.events = c.events) : CommandMove c c' :=
  ⟨hUser, .inl hPhase, [], by simp [hEvents], by simp⟩

theorem moves_send (out : Bytes) : Moves CommandMove (send out) :=
  fun _ => ⟨rfl, .inl rfl, [.reply out], rfl, by simp⟩

theorem moves_onEngine {α : Type} (m : EngineM α) : Moves CommandMove (onEngine m) :=
  fun _ => CommandMove.quiet rfl rfl rfl

/-- Announcing a statement as the session's own user and running it. -/
theorem moves_executes {α : Type} (sql : Conn → Str) (m : Conn → EngineM α) :
    Moves CommandMove (do
      let c ← get
      emit (.executes c.effectiveUser (sql c))
      onEngine (m c)) :=
  fun c => ⟨rfl, .inl rfl, [.executes c.effectiveUser (sql c)], rfl, by simp⟩

theorem moves_handleTxn (t : TxnControl) : Moves CommandMove (handleTxn t) := by
  cases t with
  | begin =>
    exact Moves.bind (Moves.modify fun _ => CommandMove.quiet rfl rfl rfl) fun _ => moves_send _
  | commit =>
    exact Moves.bind (Moves.modify fun _ => CommandMove.quiet rfl rfl rfl) fun _ => moves_send _
  | rollback =>
    refine Moves.bind (Moves.modify fun c => ?_) fun _ => moves_send _
    rw [Conn.rollback]
    split
    · exact CommandMove.quiet rfl rfl rfl
    · exact CommandMove.quiet rfl rfl rfl

theorem moves_handleInitDb (name : Str) : Moves CommandMove (handleInitDb name) :=
  Moves.bind (Moves.modify fun _ => CommandMove.quiet rfl rfl rfl) fun _ => moves_send _

theorem moves_handleStmtPrepare (sql : Str) : Moves CommandMove (handleStmtPrepare sql) :=
  Moves.get_set_bind (fun _ => CommandMove.quiet rfl rfl rfl) fun _ => moves_send _

-- ---------------------------------------------------------------------------
-- The invariant of a session with a long enough first packet
-- ---------------------------------------------------------------------------

/-- What holds in a session whose first packet is long enough. -/
structure GateInv (c : Conn) : Prop where
  gated : Gated c.events
  /-- The handshake loop still has its first packet, or the beginning of one,
  and will not read again. -/
  handshake : c.phase = .handshake → c.buf ≠ [] ∧
    ∀ payload seq rest, decodePacket c.buf = some (payload, seq, rest) → 33 ≤ payload.length
  command : c.phase = .command → .authenticated c.effectiveUser ∈ c.events

theorem gateAllows_mono {before before' : List Event} {ev : Event} (h : gateAllows before ev) :
    gateAllows (before ++ before') ev := by
  cases ev with
  | authenticated user => trivial
  | handshakeReply out => trivial
  | executes user sql => exact List.mem_append_left _ h
  | reply out =>
    intro hOk
    obtain ⟨user, hUser⟩ := h hOk
    exact ⟨user, List.mem_append_left _ hUser⟩

/-- A command of a logged-in session keeps the invariant. -/
theorem GateInv.commandMove {c c' : Conn} (hInv : GateInv c) (hPhase : c.phase = .command)
    (hMove : CommandMove c c') : GateInv c' := by
  have hAuth := hInv.command hPhase
  obtain ⟨new, hNew, hAll⟩ := hMove.events
  refine ⟨?_, ?_, ?_⟩
  · rw [Gated, hNew]
    refine Trace.guarded_append hInv.gated (fun _ _ _ => gateAllows_mono) fun ev hMem => ?_
    rcases hAll ev hMem with ⟨out, rfl⟩ | ⟨sql, rfl⟩
    · exact fun _ => ⟨c.effectiveUser, hAuth⟩
    · exact hAuth
  · intro hHand
    rcases hMove.phase with h | h <;> rw [h] at hHand
    · rw [hPhase] at hHand
      cases hHand
    · cases hHand
  · intro _
    rw [hMove.user, hNew]
    exact List.mem_append_left _ hAuth

/-- A session that is closed needs no more than its guarded trace. -/
theorem GateInv.closed {c : Conn} (hGated : Gated c.events) (hPhase : c.phase = .closed) :
    GateInv c := by
  refine ⟨hGated, ?_, ?_⟩ <;> intro h <;> rw [hPhase] at h <;> cases h

theorem gated_login {c : Conn} (hGated : Gated c.events) (user : Str) (out : Bytes) :
    Gated (c.events ++ [.authenticated user, .handshakeReply out]) :=
  Trace.guarded_append hGated (fun _ _ _ => gateAllows_mono) fun ev hMem => by
    rcases List.mem_pair.1 hMem with rfl | rfl <;> trivial

-- ---------------------------------------------------------------------------
-- Steps keep it
-- ---------------------------------------------------------------------------

section Gate

variable [Platform]

theorem moves_executeAndCache (now : Nat) (sql : Str) :
    Moves CommandMove (executeAndCache now sql) := by
  refine Moves.bind (moves_executes (fun _ => sql) fun c => execute now sql c.currentDb c.effectiveUser)
    fun result => Moves.bind (moves_send _) fun _ => ?_
  split
  · exact Moves.modify fun _ => CommandMove.quiet rfl rfl rfl
  · exact Moves.pure _

theorem moves_takeUse (sql : Str) : Moves CommandMove (takeUse sql) := by
  refine Moves.bind (Moves.ofExcept _) fun target => ?_
  cases target with
  | none => exact Moves.pure _
  | some db => exact Moves.modify fun _ => CommandMove.quiet rfl rfl rfl

theorem moves_answerQuery (now : Nat) (sql : Str) : Moves CommandMove (answerQuery now sql) := by
  refine Moves.bind Moves.get fun c => ?_
  split
  · exact moves_send _
  · exact moves_executeAndCache _ _

theorem moves_handleQuery (now : Nat) (sql : Str) : Moves CommandMove (handleQuery now sql) := by
  rw [handleQuery]
  split
  · exact moves_send _
  · refine Moves.bind (moves_takeUse sql) fun _ => ?_
    split
    · exact moves_handleTxn _
    · exact moves_answerQuery _ _

theorem moves_handleStmtExecute (now : Nat) (payload : Bytes) (id : Nat) :
    Moves CommandMove (handleStmtExecute now payload id) := by
  intro c
  rw [handleStmtExecute, Prog.exec_get_bind]
  cases c.stmtCache.get id with
  | none => exact moves_send _ c
  | some stmt =>
    have hCall : CommandMove c ((emit (.executes c.effectiveUser stmt.sql)).exec c).2 :=
      ⟨rfl, .inl rfl, [.executes c.effectiveUser stmt.sql], rfl, by simp⟩
    exact Moves.bind_at hCall fun _ => Moves.bind (moves_onEngine _) fun _ => moves_send _

theorem moves_handleCommand (now : Nat) (payload : Bytes) :
    Moves CommandMove (handleCommand now payload) := by
  rw [handleCommand]
  cases parseCommand payload with
  | quit => exact fun c => ⟨rfl, .inr rfl, [], by simp, by simp⟩
  | ping => exact moves_send _
  | initDb name => exact moves_handleInitDb name
  | query sql => exact moves_handleQuery now sql
  | fieldList name => exact moves_send _
  | stmtPrepare sql => exact moves_handleStmtPrepare sql
  | stmtExecute id => exact moves_handleStmtExecute now payload id
  | stmtClose id => exact Moves.modify fun _ => CommandMove.quiet rfl rfl rfl
  | stmtReset id => exact Moves.bind Moves.get fun c => moves_send _
  | unknown c => exact moves_send _

theorem exec_login (h : Handshake) (c : Conn) :
    (login h).exec c = (.ok (), { c with
      engine := h.database.elim c.engine c.engine.addDatabase
      currentDb := h.database
      phase := .command
      events := c.events ++ [.authenticated h.user,
        .handshakeReply (encodePacket (okPacket 0 0) 2)] }) := by
  have hMake : (Prog.forEach (fun db => onEngine (ensureDatabase db)) h.database.toList).exec
      { c with events := c.events ++ [.authenticated h.user] } =
      (.ok (), { c with
        engine := h.database.elim c.engine c.engine.addDatabase
        events := c.events ++ [.authenticated h.user] }) := by
    cases h.database <;> rfl
  rw [login, emit, Prog.exec_modify_bind, Prog.exec_bind_ok hMake, Prog.exec_modify_bind, emit,
    Prog.exec_modify]
  simp only [List.append_assoc, List.cons_append, List.nil_append]

/-- A long enough handshake response leads to the command loop only through the
password check. -/
theorem gateInv_handleHandshake {c : Conn} {payload : Bytes} (hLen : 33 ≤ payload.length)
    (hGated : Gated c.events) : GateInv (c.run (handleHandshake payload)) := by
  have hShort : ¬ payload.length < 33 := by omega
  rw [Conn.run, handleHandshake, if_neg hShort]
  cases hParse : parseHandshake payload with
  | error e =>
    -- a panic in the parsing of the response
    exact GateInv.closed hGated rfl
  | ok h =>
    simp only [Prog.exec_bind, Prog.exec_ofExcept, Prog.exec_modify, Prog.exec_get]
    by_cases hAuth : authOk c.cfg c.engine c.scramble h = true
    · rw [if_pos hAuth, exec_login]
      refine ⟨gated_login hGated _ _, fun hPhase => ?_, fun _ => by simp⟩
      cases hPhase
    · rw [if_neg hAuth]
      refine GateInv.closed ?_ rfl
      exact (Trace.guarded_append_one _ _).2 ⟨hGated, trivial⟩

theorem gateInv_tick {c : Conn} (hInv : GateInv c) (now : Nat) : GateInv (c.tick now) := by
  rw [Conn.tick]
  split
  · exact hInv
  · rename_i payload seq rest hDecode
    cases hPhase : c.phase with
    | closed => exact GateInv.closed hInv.gated rfl
    | handshake =>
      have hLen := (hInv.handshake hPhase).2 _ _ _ hDecode
      exact gateInv_handleHandshake hLen hInv.gated
    | command =>
      have hAuth := hInv.command hPhase
      have hRest : GateInv { c with phase := .command, buf := rest } :=
        ⟨hInv.gated, (fun h => by cases h), fun _ => hAuth⟩
      have hDone := hRest.commandMove rfl (moves_handleCommand now payload _)
      simp only [Conn.run]
      split
      · rename_i hExec
        rwa [hExec] at hDone
      · rename_i hExec
        rw [hExec] at hDone
        exact GateInv.closed hDone.gated rfl

/-- Every step of a session keeps the invariant. -/
theorem gateInv_step (c : Conn) (l : Label) (hInv : GateInv c) : GateInv (c.step l) := by
  cases l with
  | tick now => exact gateInv_tick hInv now
  | world engine => exact ⟨hInv.gated, hInv.handshake, hInv.command⟩
  | eof =>
    rw [Conn.step]
    split
    · exact GateInv.closed hInv.gated rfl
    · exact hInv
  | data chunk =>
    rw [Conn.step]
    split
    · rename_i hWants
      refine ⟨hInv.gated, fun hPhase => ?_, hInv.command⟩
      -- the handshake loop reads into an empty buffer only
      have hPhase' : c.phase = .handshake := hPhase
      rw [Conn.wantsRead, hPhase', List.isEmpty_iff] at hWants
      exact absurd hWants (hInv.handshake hPhase').1
    · exact hInv

/-- A session starts with the invariant when its first packet is long enough. -/
theorem gateInv_starts {cfg : Config} {scramble : Bytes} {first : Option Bytes} {c : Conn}
    (hStart : Starts cfg scramble first c) (hLong : ∀ payload ∈ first, 33 ≤ payload.length) :
    GateInv c := by
  have hBuf : ∀ (engine : Engine) (read : Bytes), read ≠ [] →
      (∀ payload ∈ (decodePacket read).map (·.1), 33 ≤ payload.length) →
      GateInv { Conn.start cfg scramble engine read with } := by
    intro engine read hRead hLong
    refine ⟨Trace.guarded_nil, fun _ => ⟨hRead, fun payload seq rest hDecode => ?_⟩, fun h => by cases h⟩
    exact hLong payload (by simp [show decodePacket read = _ from hDecode])
  cases hStart with
  | plain engine tls read hRead hPlain =>
    rw [Conn.accept, hPlain]
    exact hBuf engine read hRead hLong
  | tls engine ssl read hRead hSsl =>
    rw [Conn.accept, hSsl]
    exact hBuf engine read hRead hLong

-- ---------------------------------------------------------------------------
-- The gate holds exactly for long enough first packets
-- ---------------------------------------------------------------------------

/-- A first packet that is too short leads to the command loop. -/
theorem tick_short {c : Conn} {payload rest : Bytes} {seq : UInt8} (hPhase : c.phase = .handshake)
    (hDecode : decodePacket c.buf = some (payload, seq, rest)) (hShort : payload.length < 33)
    (now : Nat) : c.tick now = { c with buf := rest, phase := .command } := by
  rw [Conn.tick, hDecode]
  simp only [hPhase, Conn.run, handleHandshake, if_pos hShort, Prog.exec_modify]

/-- The command loop answers a ping with OK. -/
theorem tick_ping {c : Conn} {seq : UInt8} {rest : Bytes} (hPhase : c.phase = .command)
    (hDecode : decodePacket c.buf = some ([0x0e], seq, rest)) (now : Nat) :
    c.tick now = { c with buf := rest, events := c.events ++ [.reply okReply] } := by
  rw [Conn.tick, hDecode]
  simp only [hPhase]
  rfl

theorem not_gated_okReply : ¬ Gated [.reply okReply] := by
  intro h
  obtain ⟨user, hUser⟩ := h [] (.reply okReply) [] rfl (show okReply[4]? = some 0 by decide +kernel)
  cases hUser

/-- A session whose first packet is too short answers a ping with OK. -/
theorem exists_not_gated (cfg : Config) (scramble : Bytes) {payload : Bytes}
    (hShort : payload.length < 33) :
    ∃ c labels, Starts cfg scramble (some payload) c ∧ ¬ Gated (Trace.run Conn.step c labels).events := by
  have hRead : decodePacket (encodePacket payload 1 ++ []) = some (payload, 1, []) :=
    decodePacket_encodePacket (by omega) 1 []
  rw [List.append_nil] at hRead
  have hStart : Starts cfg scramble ((decodePacket (encodePacket payload 1)).map (·.1)) _ :=
    .plain (Engine.fresh cfg.rootPassword) false (encodePacket payload 1) (by simp [encodePacket]) rfl
  rw [hRead] at hStart
  refine ⟨_, [.tick 0, .data (encodePacket [0x0e] 0), .tick 0], hStart, ?_⟩
  let c₀ := Conn.accept cfg scramble (Engine.fresh cfg.rootPassword) false (encodePacket payload 1)
  let c₁ : Conn := { c₀ with buf := [], phase := .command }
  let c₂ : Conn := { c₁ with buf := encodePacket [0x0e] 0 }
  have hLoop : c₀.step (.tick 0) = c₁ := tick_short rfl hRead hShort 0
  have hSend : c₁.step (.data (encodePacket [0x0e] 0)) = c₂ := rfl
  have hPing : c₂.step (.tick 0) = { c₂ with buf := [], events := [.reply okReply] } :=
    tick_ping (c := c₂) rfl (show decodePacket c₂.buf = some ([0x0e], 0, []) from rfl) 0
  rw [Trace.run_cons, hLoop, Trace.run_cons, hSend, Trace.run_cons, hPing, Trace.run_nil]
  exact not_gated_okReply

/-- **The password gate.** The sessions that start with a given first packet
are all gated, whatever they do then, exactly when its payload has at least 33
bytes or never gets complete. -/
theorem gated_iff (cfg : Config) (scramble : Bytes) (first : Option Bytes) :
    (∀ c, Starts cfg scramble first c → ∀ labels, Gated (Trace.run Conn.step c labels).events) ↔
      ∀ payload ∈ first, 33 ≤ payload.length := by
  constructor
  · intro hGated payload hFirst
    by_contra hShort
    obtain ⟨c, labels, hStart, hNot⟩ := exists_not_gated cfg scramble (Nat.lt_of_not_le hShort)
    rw [Option.mem_def.1 hFirst] at hGated
    exact hNot (hGated c hStart labels)
  · intro hLong c hStart labels
    exact (Trace.invariant_run_all gateInv_step (gateInv_starts hStart hLong) labels).gated

end Gate

-- ---------------------------------------------------------------------------
-- A session that passes no check
-- ---------------------------------------------------------------------------

section ShortPacket

local instance gatePlatform : Platform := tablePlatform []

def secretConfig : Config := ⟨"secret"⟩

/-- A plaintext session whose client sends a packet of one byte and then a
query. -/
def shortSession : Conn :=
  Trace.run Conn.step
    (Conn.accept secretConfig (List.replicate 20 7) (Engine.fresh "secret") true
      (encodePacket [0] 1))
    [.tick 0, .data (encodePacket (0x03 :: bytes "SET NAMES utf8") 0), .tick 0]

/-- Without any password the query runs as root and is answered with OK. -/
theorem shortSession_events :
    shortSession.events = [.executes "root" "SET NAMES utf8", .reply okReply] := by
  decide +kernel

theorem not_all_sessions_gated :
    ¬ ∀ first c, Starts secretConfig (List.replicate 20 7) first c →
      ∀ labels, Gated (Trace.run Conn.step c labels).events := by
  intro hAll
  have hGated := hAll _ _ (.plain (Engine.fresh "secret") true (encodePacket [0] 1) (by decide)
    (by decide +kernel)) [.tick 0, .data (encodePacket (0x03 :: bytes "SET NAMES utf8") 0), .tick 0]
  have hRoot : Event.authenticated "root" ∈ ([] : List Event) :=
    hGated [] (.executes "root" "SET NAMES utf8") [.reply okReply] shortSession_events
  cases hRoot

end ShortPacket

end RunAlexDb
