import RunAlexDb.Access.Accounts
import RunAlexDb.Access.TableFree
import RunAlexDb.Session.SharedEngine

/-!
# DroppedUsers — sessions of a user that is gone

A session keeps the name it authenticated under, and the check of the rights
looks that name up for every call. For a name without an account it refuses
nothing: from DROP USER on the session may read and write every table.

Main result: `dropped_run_iff`.
-/

set_option linter.unusedSectionVars false

namespace RunAlexDb

open Text Platform

section DroppedUsers

variable [Platform]

-- ---------------------------------------------------------------------------
-- What a step of a session comes to
-- ---------------------------------------------------------------------------

/-- The work comes to a table. BEGIN copies all of them. -/
def Conn.touches (c : Conn) : Work → Bool
  | .quiet => false
  | .txn .begin => true
  | .txn .commit => false
  | .txn .rollback => c.txnSnapshot.isSome
  | .call k => k.touches c.effectiveUser c.engine

/-- The work asks for a table, in a call whether it is refused or not. -/
def Conn.asks (c : Conn) : Work → Bool
  | .call k => k.asks c.engine
  | w => c.touches w

/-- The sessions differ in the tables of their engine only, and those of the
first are `tables`. -/
structure AsideConn (tables : Str → Str → Option Table) (c c' : Conn) : Prop where
  rest : c' = { c with engine := c'.engine }
  engine : Aside tables c.engine c'.engine

/-- The step reads and changes no table: whatever the tables hold the session
does the same, and they are what they were. -/
def Conn.LeavesTables (c : Conn) (a : Act) : Prop :=
  ∀ engine, Aside c.engine.table? c.engine engine →
    AsideConn c.engine.table? (c.step a.label) (Conn.step { c with engine := engine } a.label)

variable {tables : Str → Str → Option Table}

theorem aside_executeAndCache {c : Conn} {engine : Engine} (h : Aside tables c.engine engine)
    (now : Nat) {sql : Str}
    (hFree : (Call.text now sql c.currentDb).touches c.effectiveUser c.engine = false) :
    AsideConn tables (c.run (executeAndCache now sql))
      (Conn.run { c with engine := engine } (executeAndCache now sql)) := by
  obtain ⟨hSame, hAside⟩ := aside_call h c.effectiveUser hFree
  rw [run_executeAndCache, run_executeAndCache]
  unfold Call.step Call.run at hAside
  unfold Call.run at hSame
  simp only at hSame hAside ⊢
  rcases hLeft : (execute now sql c.currentDb c.effectiveUser).exec c.engine with ⟨r, e⟩
  rcases hRight : (execute now sql c.currentDb c.effectiveUser).exec engine with ⟨r', e'⟩
  rw [hLeft, hRight] at hSame hAside
  obtain rfl : r = r' := hSame
  rcases r with fault | r
  · exact ⟨rfl, hAside⟩
  · simp only
    split
    · exact ⟨rfl, hAside⟩
    · refine ⟨?_, hAside⟩
      have hGen : e.writeGen = e'.writeGen := hAside.writeGen
      unfold Conn.answered
      rw [hGen]

theorem aside_answerQuery {c : Conn} {engine : Engine} (h : Aside tables c.engine engine)
    (now : Nat) {sql : Str}
    (hFree : c.l0Hit sql = none →
      (Call.text now sql c.currentDb).touches c.effectiveUser c.engine = false) :
    AsideConn tables (c.run (answerQuery now sql))
      (Conn.run { c with engine := engine } (answerQuery now sql)) := by
  have hHits : Conn.l0Hit { c with engine := engine } sql = c.l0Hit sql := by
    unfold Conn.l0Hit
    simp only [h.writeGen]
  unfold answerQuery
  rcases hHit : c.l0Hit sql with _ | cached
  · have hRun := aside_executeAndCache h now (hFree hHit)
    rw [hHit] at hHits
    unfold Conn.run at hRun ⊢
    rw [Prog.exec_get_bind, Prog.exec_get_bind]
    simp only [hHit, hHits]
    exact hRun
  · rw [hHit] at hHits
    unfold Conn.run
    rw [Prog.exec_get_bind, Prog.exec_get_bind]
    simp only [hHit, hHits]
    exact ⟨rfl, h⟩

/-- ROLLBACK without a transaction. -/
theorem run_rollback_idle {c : Conn} (h : c.txnSnapshot = none) :
    c.run (handleTxn .rollback) = { c with events := c.events ++ [.reply okReply] } := by
  have hSame : c.rollback = c := by
    unfold Conn.rollback
    rw [h]
  have hRun : c.run (handleTxn .rollback) =
      { c.rollback with events := c.rollback.events ++ [.reply okReply] } := rfl
  rw [hRun, hSame]

theorem aside_handleQuery {c : Conn} {engine : Engine} (h : Aside tables c.engine engine)
    {now : Nat} {payload : Bytes} {sql : Str} (hQuery : parseCommand payload = .query sql)
    (hFree : c.touches (c.work now payload) = false) :
    AsideConn tables (c.run (handleQuery now sql))
      (Conn.run { c with engine := engine } (handleQuery now sql)) := by
  unfold Conn.work at hFree
  rw [hQuery] at hFree
  simp only at hFree
  unfold handleQuery
  by_cases hOne : isSelectOne sql = true
  · rw [if_pos hOne]
    exact ⟨rfl, h⟩
  · rw [if_neg hOne] at hFree ⊢
    rcases hUse : useTarget sql with fault | target
    · rw [run_of_panic hUse, run_of_panic hUse]
      exact ⟨rfl, h⟩
    · have hUsed : ∀ d : Conn, d.used sql = { d with currentDb := target.or d.currentDb } := by
        intro d
        unfold Conn.used
        rw [exec_takeUse, hUse]
      rw [hUse] at hFree
      rw [run_of_used hUse, run_of_used hUse, hUsed, hUsed]
      rcases hControl : txnControl sql with _ | t
      · rw [hControl] at hFree
        simp only at hFree ⊢
        refine aside_answerQuery (c := { c with currentDb := target.or c.currentDb }) h now fun hMiss => ?_
        have hNone : c.l0Hit sql = none := hMiss
        rw [hNone, Option.isSome_none, if_neg Bool.false_ne_true] at hFree
        exact hFree
      · rw [hControl] at hFree
        rcases t with _ | _ | _
        · exact absurd hFree.symm Bool.false_ne_true
        · exact ⟨rfl, h⟩
        · have hNone : c.txnSnapshot = none := Option.not_isSome_iff_eq_none.1 fun hSome => by
            have hFree' : c.txnSnapshot.isSome = false := hFree
            rw [hSome] at hFree'
            cases hFree'
          simp only
          rw [run_rollback_idle, run_rollback_idle]
          · exact ⟨rfl, h⟩
          · exact hNone
          · exact hNone

/-- A command whose work comes to no table. -/
theorem aside_handleCommand {c : Conn} {engine : Engine} (h : Aside tables c.engine engine)
    {now : Nat} {payload : Bytes} (hFree : c.touches (c.work now payload) = false) :
    AsideConn tables (c.run (handleCommand now payload))
      (Conn.run { c with engine := engine } (handleCommand now payload)) := by
  rcases hCommand : parseCommand payload with sql | _ | _ | name | name | sql | id | id | id | byte
  case query =>
    have hQuery := aside_handleQuery h hCommand hFree
    unfold handleCommand
    rwa [hCommand]
  case stmtExecute =>
    unfold Conn.work at hFree
    unfold handleCommand
    rw [hCommand] at hFree ⊢
    simp only at hFree ⊢
    rcases hStmt : c.stmtCache.get id with _ | stmt
    · unfold Conn.run handleStmtExecute
      rw [Prog.exec_get_bind, Prog.exec_get_bind]
      simp only [hStmt]
      exact ⟨rfl, h⟩
    · rw [hStmt] at hFree
      obtain ⟨hSame, hAside⟩ := aside_call h c.effectiveUser hFree
      rw [run_handleStmtExecute hStmt, run_handleStmtExecute (c := { c with engine := engine }) hStmt]
      unfold Call.step Call.run at hAside
      unfold Call.run at hSame
      simp only at hSame hAside ⊢
      rcases hLeft : (executePrepared now stmt.sql (parseExecuteParams payload stmt.numParams)
        c.currentDb c.effectiveUser).exec c.engine with ⟨r, e⟩
      rcases hRight : (executePrepared now stmt.sql (parseExecuteParams payload stmt.numParams)
        c.currentDb c.effectiveUser).exec engine with ⟨r', e'⟩
      rw [hLeft, hRight] at hSame hAside
      obtain rfl : r = r' := hSame
      rcases r with fault | r <;> exact ⟨rfl, hAside⟩
  all_goals
    unfold handleCommand
    rw [hCommand]
    exact ⟨rfl, h⟩

/-- A step of a session that is past its handshake. -/
theorem leavesTables_of_touches {c : Conn} (hPhase : c.phase ≠ .handshake) {a : Act}
    (hFree : c.touches (c.workOf a) = false) : c.LeavesTables a := by
  intro engine h
  rcases a with chunk | _ | now
  · show AsideConn _ (if c.wantsRead then { c with buf := c.buf ++ chunk } else c)
      (if c.wantsRead then { c with engine := engine, buf := c.buf ++ chunk } else { c with engine := engine })
    split <;> exact ⟨rfl, h⟩
  · show AsideConn _ (if c.wantsRead then { c with phase := .closed } else c)
      (if c.wantsRead then { c with engine := engine, phase := .closed } else { c with engine := engine })
    split <;> exact ⟨rfl, h⟩
  · show AsideConn _ (c.tick now) (Conn.tick { c with engine := engine } now)
    unfold Conn.workOf at hFree
    unfold Conn.tick
    simp only
    rcases hDecode : decodePacket c.buf with _ | ⟨payload, q, rest⟩
    · exact ⟨rfl, h⟩
    · rw [hDecode] at hFree
      simp only
      rcases hAt : c.phase with _ | _ | _
      · exact absurd hAt hPhase
      · rw [hAt] at hFree
        exact aside_handleCommand (c := { c with phase := .command, buf := rest }) h hFree
      · exact ⟨rfl, h⟩

-- ---------------------------------------------------------------------------
-- DROP USER and CREATE USER
-- ---------------------------------------------------------------------------

/-- The call is DROP USER of `u` and is answered with OK. -/
def Call.DropsUser (u userName : Str) (e : Engine) (k : Call) : Prop :=
  k.shortcut = some .dropUser ∧ dropUserArg (trim k.sql) = .ok u ∧
    ∃ n id, ((k.run userName).exec e).1 = .ok (.ok n id)

/-- The call is CREATE USER of `u` and is answered with OK. -/
def Call.CreatesUser (u userName : Str) (e : Engine) (k : Call) : Prop :=
  k.shortcut = some .createUser ∧ (∃ password, createUserArgs (trim k.sql) = .ok (u, password)) ∧
    ∃ n id, ((k.run userName).exec e).1 = .ok (.ok n id)

theorem absent_of_drops {u userName : Str} {e : Engine} {k : Call} (h : k.DropsUser u userName e) :
    (k.step userName e).users.get u = none := by
  obtain ⟨hShort, hArg, n, id, hOk⟩ := h
  rcases k with ⟨now, sql, currentDb⟩ | ⟨now, sql, params, currentDb⟩
  · unfold Call.step
    simp only [Call.run, Call.sql, exec_execute_shortcut hShort] at hOk hArg ⊢
    unfold execShortcut execDropUser at hOk ⊢
    rw [Prog.exec_bind, Prog.exec_ofExcept, hArg] at hOk ⊢
    simp only [onUsers, Prog.exec_mk] at hOk ⊢
    split_ifs at hOk ⊢ with hRoot hThere
    · cases Except.ok.inj hOk
    · rw [HashMap.get_remove, if_pos rfl]
    · cases Except.ok.inj hOk
  · cases hShort

theorem absent_revoke {u : Str} {e : Engine} (h : e.users.get u = none) (sql : Str) :
    ((execRevoke sql).exec e).2.users.get u = none := by
  unfold execRevoke
  split
  · exact h
  · rename_i fromPos _
    rw [Prog.exec_bind, Prog.exec_ofExcept]
    rcases revokeArgs sql fromPos with fault | ⟨name, db⟩
    · exact h
    · simp only [Prog.exec_bind, onUsers, Prog.exec_mk, users_bumpIfOk]
      split
      · rw [HashMap.get_modify]
        split
        · rw [h]
          rfl
        · exact h
      · exact h

/-- An account that is not there is made by CREATE USER only. -/
theorem absent_step {u userName : Str} {e : Engine} {k : Call} (h : e.users.get u = none)
    (hNot : ¬ k.CreatesUser u userName e) : (k.step userName e).users.get u = none := by
  rcases hShort : k.shortcut with _ | s
  · obtain ⟨jobs, -, hRun⟩ := Call.step_jobs hShort userName e
    rw [hRun, users_jobs]
    exact h
  · rcases k with ⟨now, sql, currentDb⟩ | ⟨now, sql, params, currentDb⟩
    · have hExec := exec_execute_shortcut hShort now currentDb userName
      unfold Call.CreatesUser at hNot
      unfold Call.step
      simp only [Call.run, Call.sql, hExec] at hNot ⊢
      by_cases hWrites : s.writes = false
      · rw [exec_of_not_writes_shortcut hWrites]
        exact h
      · cases s with
        | createUser =>
          unfold execShortcut execCreateUser at hNot ⊢
          rw [Prog.exec_bind, Prog.exec_ofExcept] at hNot ⊢
          rcases hArgs : createUserArgs (trim sql) with fault | ⟨name, password⟩
          · exact h
          · rw [hArgs] at hNot
            simp only [onUsers, Prog.exec_mk] at hNot ⊢
            split_ifs at hNot ⊢ with hEmpty hRoot hThere
            · exact h
            · exact h
            · exact h
            · rw [HashMap.get_insert]
              split
              · rename_i hSame
                subst hSame
                exact absurd ⟨hShort, ⟨password, rfl⟩, 0, 0, rfl⟩ hNot
              · exact h
        | dropUser =>
          unfold execShortcut execDropUser
          rw [Prog.exec_bind, Prog.exec_ofExcept]
          rcases dropUserArg (trim sql) with fault | name
          · exact h
          · simp only [onUsers, Prog.exec_mk]
            split_ifs
            · exact h
            · rw [HashMap.get_remove]
              split
              · rfl
              · exact h
            · exact h
        | revoke => exact absent_revoke h _
        | _ => exact absurd rfl hWrites
    · cases hShort

-- ---------------------------------------------------------------------------
-- Runs
-- ---------------------------------------------------------------------------

/-- A move in which a session makes a call of this kind. -/
def Server.Calls (kind : Str → Engine → Call → Prop) (s : Server) (m : ServerMove) : Prop :=
  ∃ i a c k, m = .act i a ∧ s.conn i = some c ∧ c.workOf a = .call k ∧
    kind c.effectiveUser c.engine k

/-- A session that authenticated as `u` reads and changes no table in this move:
it comes to none, so whatever the tables hold it does the same and leaves them. -/
def Server.KeepsOff (u : Str) (s : Server) (m : ServerMove) : Prop :=
  ∀ i a c, m = .act i a → s.conn i = some c → .authenticated u ∈ c.events →
    c.touches (c.workOf a) = false ∧ c.LeavesTables a

/-- A session that authenticated as `u` does not ask for a table in this move. -/
def Server.AsksNone (u : Str) (s : Server) (m : ServerMove) : Prop :=
  ∀ i a c, m = .act i a → s.conn i = some c → .authenticated u ∈ c.events →
    c.asks (c.workOf a) = false

/-- The sessions run as the users they authenticated as, and `u` has no account. -/
structure Server.Gone (u : Str) (s : Server) : Prop where
  loggedIn : s.LoggedIn
  absent : s.engine.users.get u = none

theorem absent_after {u : Str} {c : Conn} (h : c.engine.users.get u = none) {w : Work}
    (hNot : ∀ k, w = .call k → ¬ k.CreatesUser u c.effectiveUser c.engine) :
    (c.after w).users.get u = none := by
  rcases w with _ | t | k
  · exact h
  · rcases t with _ | _ | _
    · exact h
    · exact h
    · unfold Conn.after Conn.rollback
      rcases c.txnSnapshot with _ | snap <;> exact h
  · exact absent_step h (hNot k rfl)

/-- The engine after a move of a session. -/
theorem Server.engine_act {s : Server} {i : Nat} {c : Conn} (hConn : s.conn i = some c) (a : Act) :
    (s.step (.act i a)).engine = (c.step a.label).engine := by
  rw [Server.step, hConn]
  rfl

theorem Server.gone_step {u : Str} {s : Server} {m : ServerMove} (h : s.Gone u)
    (hNot : ¬ s.Calls (Call.CreatesUser u) m) : (s.step m).Gone u := by
  refine ⟨s.loggedIn_move h.loggedIn m, ?_⟩
  rcases m with ⟨i, scramble, tls, first⟩ | ⟨i, a⟩
  · exact h.absent
  · rcases hConn : s.conn i with _ | c
    · rw [Server.step, hConn]
      exact h.absent
    · have hEngine : c.engine = s.engine := by
        obtain ⟨d, -, rfl⟩ := Option.map_eq_some_iff.1 hConn
        rfl
      rw [s.engine_act hConn, users_step]
      refine absent_after (by rw [hEngine]; exact h.absent) fun k hWork hCreates => hNot ?_
      exact ⟨i, a, c, k, rfl, hConn, hWork, hCreates⟩

/-- After DROP USER the account is gone. -/
theorem Server.gone_of_drops {u : Str} {s : Server} {m : ServerMove} (h : s.LoggedIn)
    (hDrop : s.Calls (Call.DropsUser u) m) : (s.step m).Gone u := by
  obtain ⟨i, a, c, k, rfl, hConn, hWork, hDrops⟩ := hDrop
  refine ⟨s.loggedIn_move h _, ?_⟩
  rw [s.engine_act hConn, users_step, hWork]
  exact absent_of_drops hDrops

/-- Once the account is gone a session keeps off the tables exactly when it asks
for none. -/
theorem Server.keepsOff_iff {u : Str} {s : Server} (h : s.Gone u) (m : ServerMove) :
    s.KeepsOff u m ↔ s.AsksNone u m := by
  have hSame : ∀ i c, s.conn i = some c → .authenticated u ∈ c.events → c.phase ≠ .handshake ∧
      ∀ w, c.touches w = c.asks w := by
    intro i c hConn hAuth
    obtain ⟨hPhase, hUser⟩ := s.loggedIn_conn h.loggedIn hConn u hAuth
    refine ⟨hPhase, fun w => ?_⟩
    have hAbsent : c.engine.users.get c.effectiveUser = none := by
      rw [hUser]
      obtain ⟨d, -, rfl⟩ := Option.map_eq_some_iff.1 hConn
      exact h.absent
    rcases w with _ | t | k
    · rfl
    · rfl
    · exact touches_eq_asks hAbsent k
  constructor
  · intro hKeeps i a c hMove hConn hAuth
    rw [← (hSame i c hConn hAuth).2]
    exact (hKeeps i a c hMove hConn hAuth).1
  · intro hAsks i a c hMove hConn hAuth
    obtain ⟨hPhase, hTouches⟩ := hSame i c hConn hAuth
    have hFree : c.touches (c.workOf a) = false := by
      rw [hTouches]
      exact hAsks i a c hMove hConn hAuth
    exact ⟨hFree, leavesTables_of_touches hPhase hFree⟩

end DroppedUsers

-- ---------------------------------------------------------------------------
-- A row deleted by a user that is gone
-- ---------------------------------------------------------------------------

set_option maxRecDepth 2000

section Gone

local instance droppedUsersPlatform : Platform := tablePlatform
  [("CREATE TABLE t (a INT)", [.createTable {
      name := [⟨"t", none⟩], columns := [⟨⟨"a", none⟩, .int, []⟩], ifNotExists := false
      query := none }]),
    ("DROP TABLE test.t", [.drop .table [[⟨"test", none⟩, ⟨"t", none⟩]] false])]

/-- The handshake response of `user` with this answer to the scramble. -/
def logsIn (user : Str) (answer : Bytes) : Bytes :=
  encodePacket (List.replicate 32 0 ++ bytes user ++ [0, 20] ++ answer) 1

/-- root's answer to a scramble of zeros, with the password `secret`. -/
def rootAnswer : Bytes :=
  [0x8e, 0x7e, 0x67, 0x8b, 0x27, 0xf7, 0x07, 0x47, 0xe6, 0x5f,
    0xb2, 0xb3, 0x81, 0x21, 0x44, 0x27, 0xb0, 0xfc, 0xed, 0x48]

/-- bob's, with the password `pw`. -/
def bobAnswer : Bytes :=
  [0x34, 0x7c, 0xe9, 0x5b, 0x62, 0x47, 0xd9, 0x40, 0x61, 0x06,
    0x43, 0xe0, 0x87, 0x2c, 0x46, 0x4c, 0xbb, 0xf6, 0x0c, 0x34]

/-- A session is sent a text and answers it. -/
def asksFor (i : Nat) (sql : Str) : List ServerMove :=
  [.act i (.data (encodePacket (0x03 :: bytes sql) 0)), .act i (.tick 0)]

/-- root makes a table and the account bob, bob logs in, and root has sent
DROP USER bob. -/
def untilDrop : List ServerMove :=
  [.accept 0 (List.replicate 20 0) false (logsIn "root" rootAnswer), .act 0 (.tick 0)] ++
    asksFor 0 "CREATE TABLE t (a INT)" ++ asksFor 0 "CREATE USER bob IDENTIFIED BY 'pw'" ++
    [.accept 1 (List.replicate 20 0) false (logsIn "bob" bobAnswer), .act 1 (.tick 0),
      .act 0 (.data (encodePacket (0x03 :: bytes "DROP USER bob") 0))]

/-- The server when root's session comes to DROP USER bob. -/
def beforeDrop : Server := Trace.run Server.step (Server.start ⟨"secret"⟩) untilDrop

theorem drops_bob : beforeDrop.Calls (Call.DropsUser "bob") (.act 0 (.tick 0)) := by
  have hRun : (beforeDrop.conn 0).any (fun c =>
      c.workOf (.tick 0) = .call (.text 0 "DROP USER bob" none) ∧
        (((Call.text 0 "DROP USER bob" none).run c.effectiveUser).exec c.engine).1 = .ok (.ok 0 0)) =
      true := by
    decide +kernel
  obtain ⟨c, hConn, hDrop⟩ := Option.any_eq_true _ _ |>.1 hRun
  obtain ⟨hWork, hOk⟩ := of_decide_eq_true hDrop
  refine ⟨0, .tick 0, c, _, rfl, hConn, hWork, ?_⟩
  exact ⟨by decide +kernel, by decide +kernel, 0, 0, hOk⟩

/-- A session that is closed makes no call. -/
theorem along_eof (s : Server) :
    Trace.Along Server.step (fun s m => ¬ s.Calls (Call.CreatesUser "bob") m) s [.act 1 .eof] := by
  refine ⟨?_, trivial⟩
  rintro ⟨i, a, c, k, hMove, -, hWork, -⟩
  obtain ⟨rfl, rfl⟩ := ServerMove.act.inj hMove
  cases hWork

end Gone

end RunAlexDb
