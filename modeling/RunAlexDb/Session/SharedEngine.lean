import RunAlexDb.Session.AuthGate
import RunAlexDb.Session.ResultCache
import RunAlexDb.Statement.Runs

/-!
# SharedEngine — the sessions of a server

A `Server` is an engine and the sessions that share it; its moves are new
connections and the steps of any session, in any order. `Conn.work` is what a
command of a session comes down to: a call of the engine, a transaction
statement, or neither.

Main results: `engine_work` and `loggedIn_run`.
-/

set_option linter.unusedSectionVars false

namespace RunAlexDb

open Text Platform
open Prog (Moves)

section SharedEngine

variable [Platform]

-- ---------------------------------------------------------------------------
-- The server
-- ---------------------------------------------------------------------------

structure Server where
  cfg : Config
  engine : Engine
  sessions : Nat → Option Conn

/-- What can happen to a session of a server. -/
inductive Act
  | data (chunk : Bytes)
  | eof
  | tick (now : Nat)

def Act.label : Act → Label
  | .data chunk => .data chunk
  | .eof => .eof
  | .tick now => .tick now

inductive ServerMove
  /-- A new connection, with what its first read returned. -/
  | accept (i : Nat) (scramble : Bytes) (tls : Bool) (first : Bytes)
  | act (i : Nat) (a : Act)

namespace Server

/-- The server as it starts. -/
def start (cfg : Config) : Server := ⟨cfg, Engine.fresh cfg.rootPassword, fun _ => none⟩

/-- A session, on the server's engine. -/
def conn (s : Server) (i : Nat) : Option Conn :=
  (s.sessions i).map fun c => { c with engine := s.engine }

/-- A session has moved; the engine it leaves is the server's. -/
def put (s : Server) (i : Nat) (c : Conn) : Server :=
  { s with engine := c.engine, sessions := Function.update s.sessions i (some c) }

def step (s : Server) : ServerMove → Server
  | .accept i scramble tls first => s.put i (Conn.accept s.cfg scramble s.engine tls first)
  | .act i a => (s.conn i).elim s fun c => s.put i (c.step a.label)

/-- What holds of every session of the server. -/
theorem forall_put {P : Conn → Prop} {s : Server} (h : ∀ i c, s.sessions i = some c → P c) (i : Nat)
    {c : Conn} (hc : P c) : ∀ j d, (s.put i c).sessions j = some d → P d := by
  intro j d hGet
  unfold put at hGet
  simp only [Function.update_apply] at hGet
  split at hGet
  · obtain rfl := Option.some.inj hGet
    exact hc
  · exact h j d hGet

end Server

-- ---------------------------------------------------------------------------
-- What a command comes down to
-- ---------------------------------------------------------------------------

deriving instance DecidableEq for Call

inductive Work
  /-- The engine is not called. -/
  | quiet
  | txn (t : TxnControl)
  | call (k : Call)
deriving DecidableEq

/-- The work of a command packet. -/
def Conn.work (c : Conn) (now : Nat) (payload : Bytes) : Work :=
  match parseCommand payload with
  | .query sql =>
    if isSelectOne sql then .quiet
    else
      match useTarget sql, txnControl sql with
      | .error _, _ => .quiet
      | .ok _, some t => .txn t
      | .ok target, none =>
        if (c.l0Hit sql).isSome then .quiet else .call (.text now sql (target.or c.currentDb))
  | .stmtExecute id =>
    match c.stmtCache.get id with
    | none => .quiet
    | some stmt =>
      .call (.prepared now stmt.sql (parseExecuteParams payload stmt.numParams) c.currentDb)
  | _ => .quiet

/-- The work of a step: that of the packet it takes. -/
def Conn.workOf (c : Conn) : Act → Work
  | .tick now =>
    match c.phase, decodePacket c.buf with
    | .command, some (payload, _, _) => c.work now payload
    | _, _ => .quiet
  | _ => .quiet

/-- The engine after the work. -/
def Conn.after (c : Conn) : Work → Engine
  | .quiet => c.engine
  | .txn .rollback => c.rollback.engine
  | .txn _ => c.engine
  | .call k => k.step c.effectiveUser c.engine

/-- The session after a call has been made and answered, or has panicked. -/
theorem run_handleStmtExecute {c : Conn} {id : Nat} {stmt : PreparedStmt}
    (hStmt : c.stmtCache.get id = some stmt) (now : Nat) (payload : Bytes) :
    c.run (handleStmtExecute now payload id) =
      match (executePrepared now stmt.sql (parseExecuteParams payload stmt.numParams) c.currentDb
        c.effectiveUser).exec c.engine with
      | (.ok r, e) => { c with
          engine := e
          events := c.events ++ [.executes c.effectiveUser stmt.sql, .reply (buildBinaryResult r 1)] }
      | (.error _, e) => c.panicked stmt.sql e := by
  simp only [Conn.run, handleStmtExecute, hStmt, emit, send, onEngine, Prog.zoom, Prog.exec_bind,
    Prog.exec_get, Prog.exec_modify, Prog.exec_mk]
  rcases (executePrepared now stmt.sql (parseExecuteParams payload stmt.numParams) c.currentDb
    c.effectiveUser).exec c.engine with ⟨_ | r, e⟩
  · rfl
  · simp only [List.append_assoc, List.cons_append, List.nil_append]

theorem engine_executeAndCache (c : Conn) (now : Nat) (sql : Str) :
    (c.run (executeAndCache now sql)).engine =
      (Call.text now sql c.currentDb).step c.effectiveUser c.engine := by
  rw [run_executeAndCache]
  unfold Call.step Call.run
  rcases (execute now sql c.currentDb c.effectiveUser).exec c.engine with ⟨_ | r, e⟩
  · rfl
  · simp only
    split <;> rfl

theorem engine_handleQuery (c : Conn) (now : Nat) {payload : Bytes} {sql : Str}
    (hQuery : parseCommand payload = .query sql) :
    (c.run (handleQuery now sql)).engine = c.after (c.work now payload) := by
  unfold handleQuery Conn.work
  rw [hQuery]
  simp only
  by_cases hOne : isSelectOne sql = true
  · rw [if_pos hOne, if_pos hOne]
    rfl
  · rw [if_neg hOne, if_neg hOne]
    rcases hUse : useTarget sql with fault | target
    · rw [run_of_panic hUse]
      rfl
    · rw [run_of_used hUse]
      have hUsed : c.used sql = { c with currentDb := target.or c.currentDb } := by
        unfold Conn.used
        rw [exec_takeUse, hUse]
      rw [hUsed]
      rcases hControl : txnControl sql with _ | t
      · simp only
        unfold answerQuery
        rcases hHit : c.l0Hit sql with _ | cached
        · have hMiss : Conn.l0Hit { c with currentDb := target.or c.currentDb } sql = none := hHit
          have hRun := engine_executeAndCache { c with currentDb := target.or c.currentDb } now sql
          unfold Conn.run at hRun ⊢
          rw [Prog.exec_get_bind]
          simp only [hMiss]
          exact hRun
        · have hFound : Conn.l0Hit { c with currentDb := target.or c.currentDb } sql = some cached := hHit
          unfold Conn.run
          rw [Prog.exec_get_bind]
          simp only [hFound]
          rfl
      · rcases t with _ | _ | _
        · rfl
        · rfl
        · show (Conn.rollback _).engine = c.rollback.engine
          unfold Conn.rollback
          rcases c.txnSnapshot with _ | snap <;> simp only

/-- **The engine after a command** is the engine after its work. -/
theorem engine_work (c : Conn) (now : Nat) (payload : Bytes) :
    (c.run (handleCommand now payload)).engine = c.after (c.work now payload) := by
  rcases hCommand : parseCommand payload with sql | _ | _ | name | name | sql | id | id | id | byte
  case query =>
    have hQuery := engine_handleQuery c now hCommand
    unfold handleCommand
    rwa [hCommand]
  case stmtExecute =>
    unfold handleCommand Conn.work
    rw [hCommand]
    simp only
    rcases hStmt : c.stmtCache.get id with _ | stmt
    · unfold Conn.run handleStmtExecute
      rw [Prog.exec_get_bind, hStmt]
      rfl
    · rw [run_handleStmtExecute hStmt]
      unfold Conn.after Call.step Call.run
      simp only
      rcases (executePrepared now stmt.sql (parseExecuteParams payload stmt.numParams) c.currentDb
        c.effectiveUser).exec c.engine with ⟨_ | r, e⟩ <;> rfl
  all_goals
    unfold handleCommand Conn.work
    rw [hCommand]
    rfl

/-- A handshake response, handled. -/
theorem run_handleHandshake (c : Conn) (payload : Bytes) :
    c.run (handleHandshake payload) =
      if payload.length < 33 then { c with phase := .command }
      else
        match parseHandshake payload with
        | .error _ => { c with phase := .closed }
        | .ok h =>
          if authOk c.cfg c.engine c.scramble h then
            { c with
              effectiveUser := h.user
              engine := h.database.elim c.engine c.engine.addDatabase
              currentDb := h.database
              phase := .command
              events := c.events ++ [.authenticated h.user,
                .handshakeReply (encodePacket (okPacket 0 0) 2)] }
          else
            { c with
              effectiveUser := h.user
              phase := .closed
              events := c.events ++
                [.handshakeReply (encodePacket (errPacket 1045 "Access denied") 2)] } := by
  unfold Conn.run handleHandshake
  by_cases hShort : payload.length < 33
  · rw [if_pos hShort, if_pos hShort]
    rfl
  · rw [if_neg hShort, if_neg hShort, Prog.exec_bind, Prog.exec_ofExcept]
    rcases parseHandshake payload with fault | h
    · rfl
    · simp only [Prog.exec_modify_bind, Prog.exec_get_bind]
      by_cases hAuth : authOk c.cfg c.engine c.scramble h = true
      · rw [if_pos hAuth, if_pos hAuth, exec_login]
      · rw [if_neg hAuth, if_neg hAuth]
        rfl

/-- The work is the same whatever else is in the buffer. -/
theorem after_work_buf (c : Conn) (phase : Phase) (buf : Bytes) (now : Nat) (payload : Bytes) :
    Conn.after { c with phase := phase, buf := buf }
        (Conn.work { c with phase := phase, buf := buf } now payload) =
      c.after (c.work now payload) := by
  have hWork : Conn.work { c with phase := phase, buf := buf } now payload = c.work now payload := rfl
  rw [hWork]
  rcases c.work now payload with _ | t | k
  · rfl
  · rcases t with _ | _ | _
    · rfl
    · rfl
    · show (Conn.rollback _).engine = c.rollback.engine
      unfold Conn.rollback
      rcases c.txnSnapshot with _ | snap <;> rfl
  · rfl

/-- The user table changes by calls only. -/
theorem users_step (c : Conn) (a : Act) :
    (c.step a.label).engine.users = (c.after (c.workOf a)).users := by
  rcases a with chunk | _ | now
  · show (if c.wantsRead then { c with buf := c.buf ++ chunk } else c).engine.users = _
    split <;> rfl
  · show (if c.wantsRead then { c with phase := .closed } else c).engine.users = _
    split <;> rfl
  · show (c.tick now).engine.users = _
    unfold Conn.tick Conn.workOf
    rcases hDecode : decodePacket c.buf with _ | ⟨payload, q, rest⟩
    · rcases c.phase with _ | _ | _ <;> rfl
    · simp only
      rcases hPhase : c.phase with _ | _ | _
      · -- a login makes at most a database
        simp only
        rw [run_handleHandshake]
        split
        · rfl
        · rcases parseHandshake payload with fault | h
          · rfl
          · simp only
            split
            · rcases h.database with _ | db
              · rfl
              · show (Engine.addDatabase _ db).users = _
                unfold Engine.addDatabase
                split <;> rfl
            · rfl
      · have hWork := (engine_work { c with phase := .command, buf := rest } now payload).trans
          (after_work_buf c .command rest now payload)
        exact congrArg Engine.users hWork
      · rfl

-- ---------------------------------------------------------------------------
-- Who a session runs as
-- ---------------------------------------------------------------------------

/-- A session that passed the password check is in its command loop or closed,
and runs as the user it passed for. -/
def LoggedIn (c : Conn) : Prop :=
  ∀ user, .authenticated user ∈ c.events → c.phase ≠ .handshake ∧ c.effectiveUser = user

theorem loggedIn_commandMove {c c' : Conn} (h : LoggedIn c) (hPhase : c.phase ≠ .handshake)
    (hMove : CommandMove c c') : LoggedIn c' := by
  intro user hIn
  obtain ⟨new, hNew, hAll⟩ := hMove.events
  rw [hNew] at hIn
  have hOld : .authenticated user ∈ c.events := by
    rcases List.mem_append.1 hIn with hIn | hIn
    · exact hIn
    · rcases hAll _ hIn with ⟨out, hOut⟩ | ⟨sql, hSql⟩
      · cases hOut
      · cases hSql
  refine ⟨?_, hMove.user.trans (h user hOld).2⟩
  rcases hMove.phase with hSame | hClosed
  · rw [hSame]
    exact hPhase
  · rw [hClosed]
    exact fun hHand => by cases hHand

theorem loggedIn_closed {c : Conn} (h : LoggedIn c) : LoggedIn { c with phase := .closed } :=
  fun user hIn => ⟨(fun hHand => by cases hHand), (h user hIn).2⟩

theorem loggedIn_tick {c : Conn} (h : LoggedIn c) (now : Nat) : LoggedIn (c.tick now) := by
  unfold Conn.tick
  rcases decodePacket c.buf with _ | ⟨payload, q, rest⟩
  · exact h
  · simp only
    rcases hPhase : c.phase with _ | _ | _
    · have hNone : ∀ user, .authenticated user ∉ c.events := fun user hIn => (h user hIn).1 hPhase
      simp only
      rw [run_handleHandshake]
      split
      · exact fun user hIn => absurd hIn (hNone user)
      · rcases parseHandshake payload with fault | shake
        · exact fun user hIn => absurd hIn (hNone user)
        · simp only
          split
          · intro user hIn
            refine ⟨(fun hHand => by cases hHand), ?_⟩
            rcases List.mem_append.1 hIn with hOld | hNew
            · exact absurd hOld (hNone user)
            · rcases List.mem_pair.1 hNew with hUser | hReply
              · exact (Event.authenticated.inj hUser).symm
              · cases hReply
          · intro user hIn
            rcases List.mem_append.1 hIn with hOld | hNew
            · exact absurd hOld (hNone user)
            · cases List.mem_singleton.1 hNew
    · have hOpen : LoggedIn { c with phase := .command, buf := rest } :=
        fun user hIn => ⟨(fun hHand => by cases hHand), (h user hIn).2⟩
      have hDone := loggedIn_commandMove hOpen (fun hHand => by cases hHand)
        (moves_handleCommand now payload _)
      simp only
      unfold Conn.run
      rcases hRun : (handleCommand now payload).exec { c with phase := .command, buf := rest } with
        ⟨_ | _, c'⟩ <;> rw [hRun] at hDone
      · exact loggedIn_closed hDone
      · exact hDone
    · exact fun user hIn => ⟨(fun hHand => by cases hHand), (h user hIn).2⟩

theorem loggedIn_step {c : Conn} (h : LoggedIn c) (a : Act) : LoggedIn (c.step a.label) := by
  rcases a with chunk | _ | now
  · show LoggedIn (if c.wantsRead then { c with buf := c.buf ++ chunk } else c)
    split
    · exact h
    · exact h
  · show LoggedIn (if c.wantsRead then { c with phase := .closed } else c)
    split
    · exact loggedIn_closed h
    · exact h
  · exact loggedIn_tick h now

/-- Every session of the server. -/
def Server.LoggedIn (s : Server) : Prop := ∀ i c, s.sessions i = some c → RunAlexDb.LoggedIn c

theorem Server.loggedIn_conn {s : Server} (h : s.LoggedIn) {i : Nat} {c : Conn}
    (hConn : s.conn i = some c) : RunAlexDb.LoggedIn c := by
  obtain ⟨c', hGet, rfl⟩ := Option.map_eq_some_iff.1 hConn
  exact h i c' hGet

theorem Server.loggedIn_move {s : Server} (h : s.LoggedIn) (m : ServerMove) : (s.step m).LoggedIn := by
  rcases m with ⟨i, scramble, tls, first⟩ | ⟨i, a⟩
  · exact Server.forall_put h i fun user hIn => absurd hIn List.not_mem_nil
  · show ((s.conn i).elim s fun c => s.put i (c.step a.label)).LoggedIn
    rcases hConn : s.conn i with _ | c
    · exact h
    · exact Server.forall_put h i (loggedIn_step (s.loggedIn_conn h hConn) a)

/-- **After every run** each session runs as the user it authenticated as. -/
theorem loggedIn_run (cfg : Config) (ms : List ServerMove) :
    (Trace.run Server.step (Server.start cfg) ms).LoggedIn := by
  have hStart : (Server.start cfg).LoggedIn := fun i c hNone => by cases hNone
  exact Trace.invariant_run_all (I := Server.LoggedIn) (fun _ m h => Server.loggedIn_move h m) hStart ms

end SharedEngine

end RunAlexDb
