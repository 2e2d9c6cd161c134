import RunAlexDb.Session.Rollback
import RunAlexDb.Session.StaleReads
import RunAlexDb.Statement.Runs

/-!
# Transactions — how a transaction ends

BEGIN copies the tables into a local variable of the session and ROLLBACK writes
them back. The other ways out of the command loop, COM_QUIT and the end of the
connection, drop the copy: what the statements since BEGIN have done stays.

Main result: `transaction_undone_iff`.
-/

set_option linter.unusedSectionVars false

namespace RunAlexDb

open Text Platform
open Prog (Moves)

section Transactions

variable [Platform]

-- ---------------------------------------------------------------------------
-- Statements inside a transaction
-- ---------------------------------------------------------------------------

/-- The same databases are there. -/
def KeepsDbs (s s' : Store) : Prop :=
  ∀ db, (HashMap.get s' db).isSome = (HashMap.get s db).isSome

theorem keepsDbs_act (s : Store) (db table : Str) (a : TableAction) :
    KeepsDbs s (s.apply (.act db table a)) := by
  intro db'
  rw [Store.apply]
  split
  · rfl
  · rw [Store.modifyTables, HashMap.get_modify]
    split
    · rw [Option.isSome_map]
    · rfl

/-- INSERT, REPLACE, UPDATE and DELETE act on a table. -/
theorem act_of_isDml {j : Job} (h : j.statement.isDml = true) (e : Engine) :
    ∀ eff ∈ j.effects e, ∃ db table a, eff = .act db table a := by
  have hOne : ∀ {eff : Effect} {db table : Str} {a : TableAction}, eff ∈ [Effect.act db table a] →
      ∃ db table a, eff = .act db table a := fun hMem => ⟨_, _, _, List.mem_singleton.1 hMem⟩
  intro eff hMem
  cases j with
  | text now currentDb stmt =>
    cases stmt with
    | insert ins =>
      simp only [Job.effects, Statement.effects, insertEffects, Option.mem_toList,
        Option.map_eq_some_iff] at hMem
      obtain ⟨rows, -, rfl⟩ := hMem
      exact ⟨_, _, _, rfl⟩
    | update table assignments selection => exact hOne hMem
    | delete del => exact hOne hMem
    | _ => cases h
  | prepared now bound currentDb stmt =>
    cases stmt with
    | insert ins =>
      simp only [Job.effects, Statement.effectsPrepared] at hMem
      split at hMem
      · exact hOne hMem
      · cases hMem
    | update table assignments selection => exact hOne hMem
    | delete del => exact hOne hMem
    | _ => cases h

theorem keepsDbs_job {j : Job} (h : j.statement.isDml = true) (e : Engine) :
    KeepsDbs e.databases (j.step e).databases := by
  have hActs := act_of_isDml h e
  rw [(wrote_job e j).databases]
  generalize j.effects e = effs at hActs
  generalize e.databases = s
  induction effs generalizing s with
  | nil => exact fun db => rfl
  | cons eff effs ih =>
    obtain ⟨db', table, a, rfl⟩ := hActs eff (List.mem_cons_self ..)
    intro db
    rw [Store.run_cons, ih (fun eff' hMem => hActs eff' (List.mem_cons_of_mem _ hMem)) _ db]
    exact keepsDbs_act s db' table a db

/-- The text is read as INSERT, REPLACE, UPDATE and DELETE statements. -/
def DmlText (e : Engine) (sql : Str) : Prop :=
  ∀ stmts, parseAnswer e sql = .ok stmts → ∀ stmt ∈ stmts, stmt.isDml = true

instance (e : Engine) (sql : Str) : Decidable (DmlText e sql) :=
  match h : parseAnswer e sql with
  | .error _ => isTrue fun stmts hStmts => by rw [h] at hStmts; cases hStmts
  | .ok stmts =>
    decidable_of_iff (∀ stmt ∈ stmts, stmt.isDml = true)
      ⟨fun hAll stmts' hStmts => by
        rw [h] at hStmts
        exact Except.ok.inj hStmts ▸ hAll, fun hDml => hDml stmts h⟩

theorem keepsDbs_call (call : Call) {e : Engine} (h : DmlText e call.sql) (userName : Str) :
    KeepsDbs e.databases (call.step userName e).databases := by
  cases hShort : call.shortcut with
  | some s =>
    have hSame := Call.step_shortcut (c := call) (by rw [hShort]; rfl) userName e
    intro db
    rw [hSame.databases]
  | none =>
    obtain ⟨jobs, ⟨rest, hJobs⟩, hStep⟩ := Call.step_jobs hShort userName e
    have hDml : ∀ j ∈ jobs, j.statement.isDml = true := by
      intro j hj
      have hIn : j ∈ call.jobs userName e := by
        rw [← hJobs]
        exact List.mem_append_left _ hj
      have hExecuted := Call.mem_executed hIn
      rw [Call.executed, hShort] at hExecuted
      cases hAnswer : parseAnswer e call.sql with
      | error msg => rw [hAnswer] at hExecuted; cases hExecuted
      | ok stmts =>
        rw [hAnswer] at hExecuted
        simp only at hExecuted
        split at hExecuted
        · cases hExecuted
        · exact h stmts hAnswer _ hExecuted
    have hRun : ∀ e' : Engine, KeepsDbs e'.databases (Trace.run Job.step e' jobs).databases := by
      clear hJobs hStep
      induction jobs with
      | nil => exact fun e' db => rfl
      | cons j jobs ih =>
        intro e' db
        rw [Trace.run_cons, ih (fun j' hj' => hDml j' (List.mem_cons_of_mem _ hj')) (j.step e') db]
        exact keepsDbs_job (hDml j (List.mem_cons_self ..)) e' db
    rw [hStep]
    exact hRun (e.parsed call.sql)

-- ---------------------------------------------------------------------------
-- Commands inside a transaction
-- ---------------------------------------------------------------------------

/-- One command packet; a closed session takes no more. -/
def Conn.command (c : Conn) (p : Nat × Bytes) : Conn :=
  if c.phase = .command then c.run (handleCommand p.1 p.2) else c

/-- A packet in the buffer of a session is a command of it. -/
theorem tick_eq_command {c : Conn} {payload rest : Bytes} {seq : UInt8} (now : Nat)
    (hPacket : decodePacket c.buf = some (payload, seq, rest)) (hPhase : c.phase = .command) :
    c.tick now = Conn.command { c with buf := rest } (now, payload) := by
  have hOpen : Conn.phase { c with buf := rest } = .command := hPhase
  rw [Conn.tick, hPacket, Conn.command, if_pos hOpen]
  simp only [hPhase]

/-- What a transaction is made of: INSERT, REPLACE, UPDATE and DELETE, as text or
prepared, and the commands that execute nothing. -/
def DmlCommand (c : Conn) (p : Nat × Bytes) : Prop :=
  match parseCommand p.2 with
  | .query sql => txnControl sql = none ∧ DmlText c.engine sql
  | .stmtExecute id => ∀ stmt, c.stmtCache.get id = some stmt → DmlText c.engine stmt.sql
  | .quit => False
  | _ => True

/-- A condition on an entry that may be missing. -/
instance decidableAtSome {α : Type} (o : Option α) (P : α → Prop) [DecidablePred P] :
    Decidable (∀ a, o = some a → P a) :=
  match o with
  | none => isTrue fun a ha => by cases ha
  | some a => decidable_of_iff (P a) ⟨fun h b hb => Option.some.inj hb ▸ h, fun hAll => hAll a rfl⟩

instance (c : Conn) (p : Nat × Bytes) : Decidable (DmlCommand c p) :=
  match h : parseCommand p.2 with
  | .query sql =>
    decidable_of_iff (txnControl sql = none ∧ DmlText c.engine sql) (by rw [DmlCommand, h])
  | .stmtExecute id =>
    decidable_of_iff (∀ stmt, c.stmtCache.get id = some stmt → DmlText c.engine stmt.sql)
      (by rw [DmlCommand, h])
  | .quit => isFalse (by rw [DmlCommand, h]; exact id)
  | .ping | .initDb _ | .fieldList _ | .stmtPrepare _ | .stmtClose _ | .stmtReset _ | .unknown _ =>
    isTrue (by rw [DmlCommand, h]; trivial)

/-- The databases that are there and the snapshot stay. -/
structure InTxn (c c' : Conn) : Prop where
  databases : KeepsDbs c.engine.databases c'.engine.databases
  snapshot : c'.txnSnapshot = c.txnSnapshot

instance : Std.Refl InTxn := ⟨fun _ => ⟨fun _ => rfl, rfl⟩⟩

instance : IsTrans Conn InTxn := ⟨fun _ _ _ h h' =>
  ⟨fun db => (h'.databases db).trans (h.databases db), h'.snapshot.trans h.snapshot⟩⟩

theorem inTxn_send (out : Bytes) : Moves InTxn (send out) := fun _ => ⟨fun _ => rfl, rfl⟩

theorem inTxn_answerQuery (now : Nat) {sql : Str} {c : Conn} (h : DmlText c.engine sql) :
    InTxn c ((answerQuery now sql).exec c).2 := by
  rw [answerQuery, Prog.exec_get_bind]
  split
  · exact inTxn_send _ c
  · have hCall : InTxn c ((callExecute now sql).exec c).2 :=
      ⟨keepsDbs_call (.text now sql c.currentDb) h c.effectiveUser, rfl⟩
    refine Prog.Moves.bind_at hCall fun result => Moves.bind (inTxn_send _) fun _ => ?_
    split
    · exact Moves.modify fun _ => ⟨fun _ => rfl, rfl⟩
    · exact Moves.pure _

theorem inTxn_handleQuery (now : Nat) {sql : Str} {c : Conn} (hControl : txnControl sql = none)
    (h : DmlText c.engine sql) : InTxn c ((handleQuery now sql).exec c).2 := by
  rw [handleQuery, hControl]
  split
  · exact inTxn_send _ c
  · rw [Prog.exec_bind, exec_takeUse]
    cases useTarget sql with
    | error fault => exact ⟨fun _ => rfl, rfl⟩
    | ok target =>
      have hAnswer := inTxn_answerQuery now (c := { c with currentDb := target.or c.currentDb }) h
      exact ⟨hAnswer.databases, hAnswer.snapshot⟩

theorem inTxn_handleStmtExecute (now : Nat) (payload : Bytes) {id : Nat} {c : Conn}
    (h : ∀ stmt, c.stmtCache.get id = some stmt → DmlText c.engine stmt.sql) :
    InTxn c ((handleStmtExecute now payload id).exec c).2 := by
  rw [handleStmtExecute, Prog.exec_get_bind]
  cases hStmt : c.stmtCache.get id with
  | none => exact inTxn_send _ c
  | some stmt =>
    have hCall : InTxn c ((emit (.executes c.effectiveUser stmt.sql) >>= fun _ =>
        onEngine (executePrepared now stmt.sql (parseExecuteParams payload stmt.numParams) c.currentDb
          c.effectiveUser)).exec c).2 :=
      ⟨keepsDbs_call (.prepared now stmt.sql (parseExecuteParams payload stmt.numParams)
        c.currentDb) (h stmt hStmt) c.effectiveUser, rfl⟩
    simp only [← bind_assoc]
    exact Prog.Moves.bind_at hCall fun result => inTxn_send _

/-- One command. -/
theorem inTxn_command {c : Conn} {p : Nat × Bytes} (h : DmlCommand c p) : InTxn c (c.command p) := by
  have hHandle : InTxn c ((handleCommand p.1 p.2).exec c).2 := by
    rw [DmlCommand] at h
    rw [handleCommand]
    cases hCommand : parseCommand p.2 with
    | query sql =>
      rw [hCommand] at h
      exact inTxn_handleQuery p.1 h.1 h.2
    | stmtExecute id =>
      rw [hCommand] at h
      exact inTxn_handleStmtExecute p.1 p.2 h
    | quit => rw [hCommand] at h; exact absurd h id
    | ping => exact inTxn_send _ c
    | initDb name => exact ⟨fun _ => rfl, rfl⟩
    | fieldList name => exact inTxn_send _ c
    | stmtPrepare sql => exact ⟨fun _ => rfl, rfl⟩
    | stmtClose id => exact ⟨fun _ => rfl, rfl⟩
    | stmtReset id => exact ⟨fun _ => rfl, rfl⟩
    | unknown x => exact inTxn_send _ c
  rw [Conn.command]
  split
  · rw [Conn.run]
    rcases hRun : (handleCommand p.1 p.2).exec c with ⟨_ | _, c'⟩ <;> rw [hRun] at hHandle
    · exact ⟨hHandle.databases, hHandle.snapshot⟩
    · exact hHandle
  · exact ⟨fun _ => rfl, rfl⟩

theorem inTxn_run {c : Conn} {cmds : List (Nat × Bytes)} (h : Trace.Along Conn.command DmlCommand c cmds) :
    InTxn c (Trace.run Conn.command c cmds) :=
  Trace.invariant_run (I := InTxn c)
    (fun _ _ hc hp => IsTrans.trans _ _ _ hc (inTxn_command hp)) (Std.Refl.refl c) h

-- ---------------------------------------------------------------------------
-- The end
-- ---------------------------------------------------------------------------

/-- How a transaction ends that is not committed. -/
inductive Ending
  | rollback (now : Nat) (sql : Str)
  | quit
  /-- The connection ends, or nothing is read in time. -/
  | gone

def Ending.isRollback : Ending → Bool
  | .rollback .. => true
  | _ => false

/-- The text of a ROLLBACK is one. -/
def Ending.Proper : Ending → Prop
  | .rollback _ sql => Controls sql .rollback
  | _ => True

def Conn.finish (c : Conn) : Ending → Conn
  | .rollback now sql => c.queryStep (now, sql)
  | .quit => c.command (0, [0x01])
  | .gone => c.step .eof

/-- The rows of a table, if it is there. -/
def Engine.rows? (e : Engine) (db table : Str) : Option (List Row) :=
  (e.table? db table).map Table.rows

theorem engine_quit (c : Conn) : (c.command (0, [0x01])).engine = c.engine := by
  rw [Conn.command]
  split <;> rfl

theorem engine_gone (c : Conn) : (c.step .eof).engine = c.engine := by
  rw [Conn.step]
  split <;> rfl

/-- **Ends of a transaction.** Let a session begin a transaction, execute any
INSERT, REPLACE, UPDATE and DELETE statements, as text or prepared, and end it
without COMMIT. Every table has the rows it had at BEGIN exactly when the end is
a ROLLBACK, or the statements have left every table the rows it had. -/
theorem transaction_undone_iff (c : Conn) (beginAt : Nat) (beginSql : Str) (cmds : List (Nat × Bytes))
    (ending : Ending) (hBegin : Controls beginSql .begin) (hStart : c.phase = .command)
    (hDml : Trace.Along Conn.command DmlCommand (c.queryStep (beginAt, beginSql)) cmds)
    (hAlive : (Trace.run Conn.command (c.queryStep (beginAt, beginSql)) cmds).phase = .command)
    (hEnding : ending.Proper) :
    let begun := c.queryStep (beginAt, beginSql)
    let before := Trace.run Conn.command begun cmds
    let after := before.finish ending
    (∀ db table, after.engine.rows? db table = begun.engine.rows? db table) ↔
      ending.isRollback = true ∨
        ∀ db table, before.engine.rows? db table = begun.engine.rows? db table := by
  intro begun before after
  have hBegun : begun.txnSnapshot = some begun.engine.takeSnapshot := by
    have hTurn := turn_controls hBegin hStart c.engine beginAt
    show (c.turn c.engine beginAt beginSql).txnSnapshot =
      some (c.turn c.engine beginAt beginSql).engine.takeSnapshot
    rw [hTurn]
    rfl
  have hTxn : InTxn begun before := inTxn_run hDml
  have hOther : ∀ {e : Engine}, after.engine = e → e = before.engine → ending.isRollback = false →
      ((∀ db table, after.engine.rows? db table = begun.engine.rows? db table) ↔
        ending.isRollback = true ∨
          ∀ db table, before.engine.rows? db table = begun.engine.rows? db table) := by
    rintro e hAfter rfl hNot
    rw [hAfter, hNot]
    exact ⟨.inr, fun h => h.resolve_left Bool.false_ne_true⟩
  cases ending with
  | quit => exact hOther (engine_quit before) rfl rfl
  | gone => exact hOther (engine_gone before) rfl rfl
  | rollback now sql =>
    refine ⟨fun _ => .inl rfl, fun _ db table => ?_⟩
    have hEngine : after.engine = before.engine.restoreSnapshot begun.engine.takeSnapshot := by
      have hTurn := turn_controls (c := before) hEnding hAlive before.engine now
      show (before.turn before.engine now sql).engine = _
      rw [hTurn]
      show (Conn.rollback before).engine = _
      rw [Conn.rollback, hTxn.snapshot, hBegun]
    have hSameDbs := hTxn.databases db
    rw [hEngine, Engine.rows?, Engine.rows?, table?_restoreSnapshot]
    split
    · rfl
    · rename_i hMissing
      have hNone : begun.engine.databases.get db = none ∧ before.engine.databases.get db = none := by
        cases hThen : begun.engine.databases.get db with
        | none =>
          rw [hThen] at hSameDbs
          exact ⟨rfl, Option.isSome_eq_false_iff.1 hSameDbs |> Option.isNone_iff_eq_none.1⟩
        | some d =>
          rw [hThen] at hSameDbs
          exact absurd ⟨hSameDbs, by rw [hThen]; rfl⟩ hMissing
      rw [Engine.table?, Engine.table?, hNone.1, hNone.2]

end Transactions

-- ---------------------------------------------------------------------------
-- A session that leaves
-- ---------------------------------------------------------------------------

section Leaving

set_option maxRecDepth 2000

local instance transactionsPlatform : Platform := tablePlatform
  [("CREATE TABLE t (a INT)", [.createTable {
      name := [⟨"t", none⟩], columns := [⟨⟨"a", none⟩, .int, []⟩], ifNotExists := false
      query := none }]),
    ("INSERT INTO t VALUES (1)", [.insert {
      table := .tableName [⟨"t", none⟩], columns := []
      source := some (.mk (.values [[.value (.number "1" false)]]) none none none)
      replaceInto := false }])]

/-- A new session after `CREATE TABLE t (a INT)`. -/
def tableSession : Conn :=
  Conn.queryStep { Conn.start ⟨[]⟩ [] (Engine.fresh []) [] with phase := .command }
    (0, "CREATE TABLE t (a INT)")

/-- COM_QUERY with `INSERT INTO t VALUES (1)`. -/
def insertCommand : Nat × Bytes := (0, 0x03 :: bytes "INSERT INTO t VALUES (1)")

theorem properControl_begin : Controls "BEGIN" .begin := by
  constructor <;> decide +kernel

theorem properControl_rollback : Controls "ROLLBACK" .rollback := by
  constructor <;> decide +kernel

theorem transaction_undone_iff_insert :
    let begun := tableSession.queryStep (0, "BEGIN")
    let before := Trace.run Conn.command begun [insertCommand]
    let after := before.finish (.rollback 0 "ROLLBACK")
    (∀ db table, after.engine.rows? db table = begun.engine.rows? db table) ↔
      (Ending.rollback 0 "ROLLBACK").isRollback = true ∨
        ∀ db table, before.engine.rows? db table = begun.engine.rows? db table := by
  have hRun : tableSession.phase = .command ∧
      Trace.Along Conn.command DmlCommand (tableSession.queryStep (0, "BEGIN")) [insertCommand] ∧
        (Trace.run Conn.command (tableSession.queryStep (0, "BEGIN")) [insertCommand]).phase =
          .command := by
    decide +kernel
  exact transaction_undone_iff tableSession 0 "BEGIN" [insertCommand] (.rollback 0 "ROLLBACK")
    properControl_begin hRun.1 hRun.2.1 hRun.2.2 properControl_rollback

/-- COM_QUIT in a transaction leaves the row inserted in it. -/
theorem not_transaction_undone :
    ¬ ∀ (c : Conn) (cmds : List (Nat × Bytes)) (ending : Ending), c.phase = .command →
      Trace.Along Conn.command DmlCommand (c.queryStep (0, "BEGIN")) cmds →
      (Trace.run Conn.command (c.queryStep (0, "BEGIN")) cmds).phase = .command → ending.Proper →
      ∀ db table,
        ((Trace.run Conn.command (c.queryStep (0, "BEGIN")) cmds).finish ending).engine.rows? db table =
          (c.queryStep (0, "BEGIN")).engine.rows? db table := by
  intro hAll
  have hRun : tableSession.phase = .command ∧
      Trace.Along Conn.command DmlCommand (tableSession.queryStep (0, "BEGIN")) [insertCommand] ∧
        (Trace.run Conn.command (tableSession.queryStep (0, "BEGIN")) [insertCommand]).phase =
          .command ∧
        ((Trace.run Conn.command (tableSession.queryStep (0, "BEGIN")) [insertCommand]).finish
            .quit).engine.rows? "test" "t" ≠
          (tableSession.queryStep (0, "BEGIN")).engine.rows? "test" "t" := by
    decide +kernel
  obtain ⟨hStart, hDml, hAlive, hRows⟩ := hRun
  exact hRows (hAll tableSession [insertCommand] .quit hStart hDml hAlive trivial "test" "t")

end Leaving

end RunAlexDb
