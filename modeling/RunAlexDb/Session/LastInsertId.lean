import RunAlexDb.Model.Concrete
import RunAlexDb.Statement.Outcomes
import RunAlexDb.Store.PkIndex

/-!
# LastInsertId — one register for all sessions

An INSERT stores its key in `last_insert_id` of the engine after it has let go
of the table, and `SELECT LAST_INSERT_ID()` reads the register. Sessions take
turns at steps this small: a statement up to its store, the store, the bump, a
read.

Main result: `lastInsertId_read_iff`: what a session reads is its own key
exactly when the key stored last is.
-/

set_option linter.unusedSectionVars false

namespace RunAlexDb

open Text Platform
open Prog (Moves)

section LastInsertId

variable [Platform]

-- ---------------------------------------------------------------------------
-- Who stores
-- ---------------------------------------------------------------------------

/-- The register is left. -/
def SameId (e e' : Engine) : Prop := e'.lastInsertId = e.lastInsertId

instance : Std.Refl SameId := ⟨fun _ => rfl⟩

instance : IsTrans Engine SameId := ⟨fun _ _ _ h h' => h'.trans h⟩

theorem sameId_withTable (db table noDb noTable : Str) (act : TableM QueryResult) :
    Moves SameId (withTable db table noDb noTable act) := by
  intro e
  rw [withTable, Prog.exec_mk]
  cases findTable e.databases db table noDb noTable <;> rfl

theorem sameId_bumpIfOk (r : QueryResult) : Moves SameId (bumpIfOk r) := by
  intro e
  rw [bumpIfOk]
  split <;> rfl

theorem sameId_putNewTable (ifNotExists : Bool) (db : Str) (t : Table) (bump : Bool) :
    Moves SameId (putNewTable ifNotExists db t bump) := by
  intro e
  rw [putNewTable, Prog.exec_get_bind]
  split
  · rfl
  · split
    · rfl
    · cases bump <;> rfl

theorem sameId_runQuery (now : Nat) (dbName : Str) (q : Query) : Moves SameId (runQuery now dbName q) := by
  intro e
  rw [exec_runQuery]
  exact rfl

theorem sameId_dropTables (dbName : Str) (ifExists : Bool) (names : List ObjectName) :
    Moves SameId (dropTables dbName ifExists names) := by
  induction names with
  | nil => exact fun e => rfl
  | cons name rest ih =>
    intro e
    rw [dropTables, Prog.exec_get_bind]
    simp only
    split
    · split
      · exact ih e
      · rfl
    · split
      · exact ih _
      · split
        · exact ih e
        · rfl

theorem sameId_dropDatabases (ifExists : Bool) (names : List ObjectName) :
    Moves SameId (dropDatabases ifExists names) := by
  induction names with
  | nil => exact fun e => rfl
  | cons name rest ih =>
    intro e
    rw [dropDatabases, Prog.exec_get_bind]
    simp only
    split
    · exact ih _
    · split
      · exact ih e
      · rfl

theorem sameId_readTable (currentDb : Option Str) (name : ObjectName)
    (show_ : Str → Table → QueryResult) : Moves SameId (readTable currentDb name show_) := by
  intro e
  rw [exec_readTable]
  exact rfl

def Statement.isInsert : Statement → Bool
  | .insert _ => true
  | _ => false

/-- No statement but INSERT and REPLACE touches the register. -/
theorem sameId_execStmt {stmt : Statement} (h : stmt.isInsert = false) (now : Nat)
    (currentDb : Option Str) : Moves SameId (execStmt now currentDb stmt) := by
  cases stmt with
  | createDatabase dbName =>
    intro e
    show (Engine.addDatabase e _).lastInsertId = e.lastInsertId
    rw [Engine.addDatabase]
    split <;> rfl
  | createTable create =>
    rw [execStmt]
    split
    · refine Moves.bind (sameId_runQuery _ _ _) fun r => ?_
      split
      · exact Moves.pure _
      · exact sameId_putNewTable _ _ _ _
    · exact sameId_putNewTable _ _ _ _
  | insert ins => cases h
  | query q => exact sameId_runQuery _ _ _
  | drop objectType names ifExists =>
    cases objectType with
    | table => exact sameId_dropTables _ _ _
    | database => exact sameId_dropDatabases _ _
    | schema => exact sameId_dropDatabases _ _
    | other text => exact Moves.pure _
  | update table assignments selection => exact sameId_withTable _ _ _ _ _
  | delete del => exact sameId_withTable _ _ _ _ _
  | use name => exact Moves.pure _
  | truncate tableNames =>
    exact Moves.bind (sameId_withTable _ _ _ _ _) fun r => sameId_bumpIfOk r
  | explainTable tableName => exact sameId_readTable _ _ _
  | showColumns full parentName =>
    cases parentName with
    | none => exact Moves.pure _
    | some name => exact sameId_readTable _ _ _
  | showCreate objType objName =>
    cases objType with
    | table => exact sameId_readTable _ _ _
    | other text => exact Moves.pure _
  | alterTable name operations =>
    exact Moves.bind (sameId_withTable _ _ _ _ _) fun r => sameId_bumpIfOk r
  | other text => exact Moves.pure _

/-- No prepared statement touches the register. -/
theorem sameId_execStmtPrepared (now : Nat) (bound : List Value) (currentDb : Option Str)
    (stmt : Statement) : Moves SameId (execStmtPrepared now bound currentDb stmt) := by
  cases stmt with
  | query q => exact fun e => rfl
  | insert ins =>
    show Moves SameId (insertPrepared _ _ ins.source bound)
    rw [insertPrepared.eq_def]
    split
    · exact Moves.pure _
    · split
      · exact sameId_withTable _ _ _ _ _
      · exact Moves.pure _
  | update table assignments selection => exact sameId_withTable _ _ _ _ _
  | delete del => exact sameId_withTable _ _ _ _ _
  | createDatabase dbName => exact sameId_execStmt rfl now currentDb
  | createTable create => exact sameId_execStmt rfl now currentDb
  | drop objectType names ifExists => exact sameId_execStmt rfl now currentDb
  | use name => exact sameId_execStmt rfl now currentDb
  | truncate tableNames => exact sameId_execStmt rfl now currentDb
  | explainTable tableName => exact sameId_execStmt rfl now currentDb
  | showColumns full parentName => exact sameId_execStmt rfl now currentDb
  | showCreate objType objName => exact sameId_execStmt rfl now currentDb
  | alterTable name operations => exact sameId_execStmt rfl now currentDb
  | other text => exact sameId_execStmt rfl now currentDb

/-- The key an OK reports. -/
def okKey : Rust QueryResult → Option UInt64
  | .ok (.ok _ key) => some key
  | _ => none

/-- **INSERT** stores the key it reports, when it succeeds, and nothing else. -/
theorem lastInsertId_insert (now : Nat) (currentDb : Option Str) (ins : Insert) (e : Engine) :
    ((execStmt now currentDb (.insert ins)).exec e).2.lastInsertId =
      (okKey ((execStmt now currentDb (.insert ins)).exec e).1).getD e.lastInsertId := by
  rw [execStmt, insert.eq_def]
  cases ins.source with
  | none => rfl
  | some source =>
    rcases hTarget : insertTarget (dbOrTest currentDb) ins.table.toString with ⟨db, table⟩
    have hSource := exec_sourceRows now db table source e
    have hRefused := notOk_of_sourceRows now db table source e
    simp only [Prog.exec_bind]
    rcases hRows : (sourceRows now db table source).exec e with ⟨_ | _ | rows, e'⟩ <;>
      rw [hRows] at hSource hRefused <;> obtain rfl := hSource
    · rfl
    · rename_i other
      have hNot := hRefused other rfl
      cases other with
      | ok affected key => cases hNot
      | _ => rfl
    · have hSame := sameId_withTable db table (unknownDatabase db) (unknownTable (db ++ "." ++ table))
        (insertRows ins.replaceInto (ins.columns.map Ident.value) rows) e'
      simp only [Prog.exec_bind]
      rcases hRun : (withTable db table (unknownDatabase db) (unknownTable (db ++ "." ++ table))
        (insertRows ins.replaceInto (ins.columns.map Ident.value) rows)).exec e' with ⟨_ | r, e''⟩ <;>
        rw [hRun] at hSame
      · exact hSame
      · cases r with
        | ok count pkVal => rfl
        | err code message => exact hSame
        | rows columns rows => exact hSame
        | valueRows columns rows => exact hSame

-- ---------------------------------------------------------------------------
-- The machine
-- ---------------------------------------------------------------------------

/-- An INSERT that returned OK: its session and the key it reported. A prepared
one stores nothing. -/
structure IdEvent where
  session : Nat
  key : UInt64
  stored : Bool
deriving DecidableEq

/-- How a session asks for its last id. -/
inductive IdQuery
  /-- As the text that `execute` answers by a shortcut. -/
  | text (now : Nat) (sql : Str) (currentDb : Option Str) (userName : Str)
  /-- As a statement of a batch. -/
  | job (j : Job)

/-- A query without FROM whose one item is the call. -/
def Query.asksId : Query → Bool
  | .mk (.select (.mk _ [item] [] _ _ _)) _ _ _ =>
    match item.expr? with
    | some (.function f) => String.ofList (toUppercase (ObjectName.toString f.name)) == "LAST_INSERT_ID"
    | _ => false
  | _ => false

def IdQuery.asks : IdQuery → Bool
  | .text _ sql _ _ => shortcutOf (toUppercase (trim sql)) == some .lastInsertId
  | .job j => match j.statement with
    | .query q => q.asksId
    | _ => false

/-- Not prepared. -/
def IdQuery.asText : IdQuery → Bool
  | .text .. => true
  | .job (.text ..) => true
  | .job (.prepared ..) => false

/-- One statement, without the bump that follows it in a batch. -/
def Job.body : Job → EngineM QueryResult
  | .text now currentDb stmt => execStmt now currentDb stmt
  | .prepared now bound currentDb stmt => execStmtPrepared now bound currentDb stmt

/-- INSERT and REPLACE as text. -/
def Job.storesKey : Job → Bool
  | .text _ _ stmt => stmt.isInsert
  | .prepared .. => false

def IdQuery.run : IdQuery → EngineM QueryResult
  | .text now sql currentDb userName => execute now sql currentDb userName
  | .job j => j.body

/-- A read: what it returned, and the INSERTs before it. -/
structure IdRead where
  session : Nat
  query : IdQuery
  shown : Rust QueryResult
  history : List IdEvent

/-- The sessions on their engine. -/
structure Ids where
  world : World
  /-- The key of an INSERT that has not been stored yet. -/
  pending : Nat → Option UInt64
  history : List IdEvent
  reads : List IdRead

inductive IdLabel
  /-- A statement, up to its store when it is an INSERT as text. -/
  | run (session : Nat) (j : Job)
  | store (session : Nat)
  | bump
  | read (session : Nat) (q : IdQuery)
  /-- What else happens to the engine: logins, transaction statements and texts
  that a shortcut answers. -/
  | outside (m : Move)

namespace Ids

def engine (s : Ids) : Engine := s.world.engine

def withEngine (s : Ids) (e : Engine) : Ids := { s with world := { s.world with engine := e } }

/-- `Engine::new`, no INSERT yet. -/
def start (rootPassword : Str) : Ids := ⟨World.fresh rootPassword, fun _ => none, [], []⟩

/-- A statement as far as it goes without storing. -/
def runJob (s : Ids) (session : Nat) (j : Job) : Ids :=
  let e := (j.body.exec s.engine).2
  match okKey (j.body.exec s.engine).1 with
  | none => s.withEngine e
  | some key =>
    if j.storesKey then
      { s.withEngine { e with lastInsertId := s.engine.lastInsertId } with
        pending := Function.update s.pending session (some key) }
    else if j.statement.isInsert then
      { s.withEngine e with history := s.history ++ [⟨session, key, false⟩] }
    else s.withEngine e

/-- The store of a pending key, and the OK. -/
def store (s : Ids) (session : Nat) : Ids :=
  match s.pending session with
  | none => s
  | some key =>
    { s.withEngine { s.engine with lastInsertId := key } with
      pending := Function.update s.pending session none
      history := s.history ++ [⟨session, key, true⟩] }

def read (s : Ids) (session : Nat) (q : IdQuery) : Ids :=
  if q.asks then
    { s.withEngine (q.run.exec s.engine).2 with
      reads := s.reads ++ [⟨session, q, (q.run.exec s.engine).1, s.history⟩] }
  else s

/-- A session that has a key to store does that before anything else. -/
def step (s : Ids) : IdLabel → Ids
  | .run session j => if (s.pending session).isSome then s else s.runJob session j
  | .store session => s.store session
  | .bump => s.withEngine { s.engine with writeGen := s.engine.writeGen + 1 }
  | .read session q => if (s.pending session).isSome then s else s.read session q
  | .outside (.call userName c) =>
    if c.shortcut.isSome then { s with world := s.world.step (.call userName c) } else s
  | .outside m => { s with world := s.world.step m }

end Ids

/-- The key that the session's last OK INSERT reported, 0 without one. -/
def lastOk (session : Nat) (history : List IdEvent) : UInt64 :=
  ((history.filter fun ev => ev.session == session).getLast?.map IdEvent.key).getD 0

/-- The key stored last, by whichever session, 0 without one. -/
def lastStored (history : List IdEvent) : UInt64 :=
  ((history.filter IdEvent.stored).getLast?.map IdEvent.key).getD 0

/-- The only cell of a result. -/
def shownCell : Rust QueryResult → Option (Option Str)
  | .ok (.rows _ [[cell]]) => some cell
  | _ => none

-- ---------------------------------------------------------------------------
-- The steps against the code
-- ---------------------------------------------------------------------------

/-- **One statement**: the key it reports, where it stores one. -/
theorem lastInsertId_body (j : Job) (e : Engine) :
    (j.body.exec e).2.lastInsertId =
      if j.storesKey then (okKey (j.body.exec e).1).getD e.lastInsertId else e.lastInsertId := by
  cases j with
  | prepared now bound currentDb stmt => exact sameId_execStmtPrepared now bound currentDb stmt e
  | text now currentDb stmt =>
    cases hInsert : stmt.isInsert with
    | false =>
      rw [if_neg (by rw [Job.storesKey, hInsert]; exact Bool.false_ne_true)]
      exact sameId_execStmt hInsert now currentDb e
    | true =>
      rw [if_pos (show (Job.text now currentDb stmt).storesKey = true from hInsert)]
      cases stmt with
      | insert ins => exact lastInsertId_insert now currentDb ins e
      | _ => cases hInsert

/-- The steps of one statement without a break are the statement. -/
theorem uninterrupted_run (s : Ids) (session : Nat) (j : Job) (hIdle : s.pending session = none) :
    ((s.step (.run session j)).step (.store session)).engine = (j.body.exec s.engine).2 := by
  have hStay : ∀ s' : Ids, s'.pending session = none → (s'.step (.store session)).engine = s'.engine := by
    intro s' hNone
    simp only [Ids.step, Ids.store, hNone]
  have hId := lastInsertId_body j s.engine
  have hRun : s.step (.run session j) = s.runJob session j := by
    simp only [Ids.step, hIdle, Option.isSome_none, Bool.false_eq_true, if_false]
  rw [hRun, Ids.runJob]
  cases hKey : okKey (j.body.exec s.engine).1 with
  | none => exact hStay _ hIdle
  | some key =>
    simp only
    split
    · rename_i hStores
      rw [if_pos hStores, hKey, Option.getD_some] at hId
      simp only [Ids.step, Ids.store, Ids.withEngine, Ids.engine, Function.update_self, ← hId]
    · split
      · exact hStay _ hIdle
      · exact hStay _ hIdle

/-- What a read returns, and that it leaves the register. -/
theorem shown_of_asks {q : IdQuery} (h : q.asks = true) (e : Engine) :
    shownCell ((q.run.exec e).1) =
        (if q.asText then some (some (natToString e.lastInsertId.toNat)) else none) ∧
      SameId e (q.run.exec e).2 := by
  cases q with
  | text now sql currentDb userName =>
    have hShort : shortcutOf (toUppercase (trim sql)) = some .lastInsertId := by
      exact eq_of_beq h
    rw [IdQuery.run, exec_execute_shortcut hShort]
    exact ⟨rfl, rfl⟩
  | job j =>
    have hQuery : ∃ q, j.statement = .query q ∧ q.asksId = true := by
      rw [IdQuery.asks] at h
      cases hStmt : j.statement with
      | query q => rw [hStmt] at h; exact ⟨q, rfl, h⟩
      | _ => rw [hStmt] at h; cases h
    obtain ⟨q, hStmt, hAsks⟩ := hQuery
    rw [Query.asksId.eq_def] at hAsks
    split at hAsks
    · rename_i _ item _ _ _ _ _ _
      cases hExpr : item.expr? with
      | none => rw [hExpr] at hAsks; cases hAsks
      | some expr =>
        rw [hExpr] at hAsks
        cases expr with
        | function f =>
          have hName : String.ofList (toUppercase (ObjectName.toString f.name)) = "LAST_INSERT_ID" :=
            eq_of_beq hAsks
          cases j with
          | text now currentDb stmt =>
            obtain rfl : stmt = _ := hStmt
            have hCell : ∀ dbName, constantCell (e.env now) dbName item =
                .ok (some (natToString e.lastInsertId.toNat)) := by
              intro dbName
              simp only [constantCell, hExpr, hName]
              rfl
            refine ⟨?_, rfl⟩
            rw [IdQuery.run, Job.body, execStmt, exec_runQuery]
            show shownCell (selectConstants (e.env now) (dbOrTest currentDb) [item]) = _
            rw [selectConstants, List.mapM_cons, hCell]
            rfl
          | prepared now bound currentDb stmt =>
            obtain rfl : stmt = _ := hStmt
            exact ⟨rfl, rfl⟩
        | _ => cases hAsks
    · cases hAsks

-- ---------------------------------------------------------------------------
-- Runs
-- ---------------------------------------------------------------------------

theorem lastStored_append (history : List IdEvent) (ev : IdEvent) :
    lastStored (history ++ [ev]) = if ev.stored then ev.key else lastStored history := by
  rw [lastStored, List.filter_append]
  cases hStored : ev.stored with
  | true =>
    rw [List.filter_cons_of_pos hStored, List.filter_nil, List.getLast?_concat]
    rfl
  | false =>
    rw [List.filter_cons_of_neg (by rw [hStored]; exact Bool.false_ne_true), List.filter_nil,
      List.append_nil]
    rfl

/-- The register holds the key stored last, and every read has shown it. -/
structure IdsInv (s : Ids) : Prop where
  register : s.engine.lastInsertId = lastStored s.history
  reads : ∀ r ∈ s.reads, shownCell r.shown =
    if r.query.asText then some (some (natToString (lastStored r.history).toNat)) else none

theorem IdsInv.start (rootPassword : Str) : IdsInv (Ids.start rootPassword) where
  register := rfl
  reads r hr := by cases hr

/-- The engine exchanged for one with the same register. -/
theorem IdsInv.withEngine {s : Ids} (h : IdsInv s) {e : Engine} (hSame : SameId s.engine e) :
    IdsInv (s.withEngine e) where
  register := Eq.trans hSame h.register
  reads := h.reads

theorem inv_runJob {s : Ids} (h : IdsInv s) (session : Nat) (j : Job) :
    IdsInv (s.runJob session j) := by
  have hId := lastInsertId_body j s.engine
  rw [Ids.runJob]
  cases hKey : okKey (j.body.exec s.engine).1 with
  | none =>
    rw [hKey, Option.getD_none, ite_self] at hId
    exact h.withEngine hId
  | some key =>
    simp only
    split
    · exact ⟨h.register, h.reads⟩
    · rename_i hNot
      rw [if_neg hNot] at hId
      split
      · refine ⟨?_, h.reads⟩
        show (j.body.exec s.engine).2.lastInsertId = lastStored (s.history ++ [⟨session, key, false⟩])
        rw [lastStored_append, hId]
        exact h.register
      · exact h.withEngine hId

theorem inv_store {s : Ids} (h : IdsInv s) (session : Nat) : IdsInv (s.store session) := by
  rw [Ids.store]
  cases s.pending session with
  | none => exact h
  | some key =>
    refine ⟨?_, h.reads⟩
    show key = lastStored (s.history ++ [⟨session, key, true⟩])
    rw [lastStored_append]
    rfl

theorem inv_read {s : Ids} (h : IdsInv s) (session : Nat) (q : IdQuery) :
    IdsInv (s.read session q) := by
  rw [Ids.read]
  split
  · rename_i hAsks
    obtain ⟨hShown, hSame⟩ := shown_of_asks hAsks s.engine
    refine ⟨(h.withEngine hSame).register, fun r hr => ?_⟩
    rcases List.mem_append.1 hr with hOld | hNew
    · exact h.reads r hOld
    · rw [List.mem_singleton.1 hNew, ← h.register]
      exact hShown
  · exact h

theorem inv_outside {s : Ids} (h : IdsInv s) {m : Move}
    (hSame : SameId s.engine (s.world.step m).engine) :
    IdsInv { s with world := s.world.step m } where
  register := Eq.trans hSame h.register
  reads := h.reads

/-- One step. -/
theorem inv_step {s : Ids} (h : IdsInv s) (l : IdLabel) : IdsInv (s.step l) := by
  cases l with
  | run session j =>
    rw [Ids.step]
    split
    · exact h
    · exact inv_runJob h session j
  | store session => exact inv_store h session
  | bump => exact h.withEngine rfl
  | read session q =>
    rw [Ids.step]
    split
    · exact h
    · exact inv_read h session q
  | outside m =>
    cases m with
    | login db =>
      refine inv_outside h ?_
      show (Engine.addDatabase _ db).lastInsertId = _
      rw [Engine.addDatabase]
      split <;> rfl
    | call userName c =>
      rw [Ids.step]
      split
      · rename_i hShort
        exact inv_outside h (Call.step_shortcut hShort userName s.engine).lastInsertId
      · exact h
    | begin session => exact inv_outside h rfl
    | commit session => exact inv_outside h rfl
    | rollback session =>
      refine inv_outside h ?_
      rw [World.step]
      cases s.world.snapshots session <;> rfl

/-- **LAST_INSERT_ID().** In every interleaving of the statements of any
sessions, a session that asks for its last id is shown the key of its own last
OK INSERT (0 without one) exactly when it asks by text and the key that any
session has stored last is this key. -/
theorem lastInsertId_read_iff (rootPassword : Str) (ls : List IdLabel) :
    ∀ r ∈ (Trace.run Ids.step (Ids.start rootPassword) ls).reads,
      shownCell r.shown = some (some (natToString (lastOk r.session r.history).toNat)) ↔
        r.query.asText = true ∧ lastStored r.history = lastOk r.session r.history := by
  intro r hr
  have hInv := Trace.invariant_run_all (I := IdsInv) (fun _ l hs => inv_step hs l)
    (IdsInv.start rootPassword) ls
  rw [hInv.reads r hr]
  cases r.query.asText with
  | false => exact ⟨fun hNone => (by cases hNone), fun h => (by cases h.1)⟩
  | true =>
    simp only [if_true, Option.some.injEq, true_and]
    rw [natToString_inj, UInt64.toNat_inj]

end LastInsertId

-- ---------------------------------------------------------------------------
-- Two sessions
-- ---------------------------------------------------------------------------

section TwoSessions

set_option maxRecDepth 2000

local instance lastInsertIdPlatform : Platform := tablePlatform []

/-- Session 0 creates `t (a INT PRIMARY KEY)`, inserts 5 and asks for its last id. -/
def oneInsert : List IdLabel :=
  [.run 0 (.text 0 none createKeyed),
    .run 0 (.text 0 none (insertNumbers ["5"])), .store 0,
    .read 0 (.text 0 "SELECT LAST_INSERT_ID()" none "root")]

/-- What it is shown. -/
def ownRead : IdRead where
  session := 0
  query := .text 0 "SELECT LAST_INSERT_ID()" none "root"
  shown := .ok (.rows ["LAST_INSERT_ID()"] [[some "5"]])
  history := [⟨0, 5, true⟩]

theorem lastInsertId_read_own :
    shownCell ownRead.shown =
        some (some (natToString (lastOk ownRead.session ownRead.history).toNat)) ↔
      ownRead.query.asText = true ∧
        lastStored ownRead.history = lastOk ownRead.session ownRead.history :=
  lastInsertId_read_iff [] oneInsert ownRead (List.mem_of_getElem? (i := 0) rfl)

/-- Session 0 creates `t (a INT PRIMARY KEY)` and inserts 5, session 1 inserts 7,
and session 0 asks for its last id. -/
def twoInserts : List IdLabel :=
  [.run 0 (.text 0 none createKeyed),
    .run 0 (.text 0 none (insertNumbers ["5"])), .store 0,
    .run 1 (.text 0 none (insertNumbers ["7"])), .store 1,
    .read 0 (.text 0 "SELECT LAST_INSERT_ID()" none "root")]

/-- Session 0 is shown 7. -/
theorem not_lastInsertId_read :
    ¬ ∀ (rootPassword : Str) (ls : List IdLabel),
      ∀ r ∈ (Trace.run Ids.step (Ids.start rootPassword) ls).reads,
        shownCell r.shown = some (some (natToString (lastOk r.session r.history).toNat)) := by
  intro hAll
  have hRead := hAll [] twoInserts
  have hShown : (Trace.run Ids.step (Ids.start []) twoInserts).reads.map
      (fun r => (shownCell r.shown, lastOk r.session r.history)) = [(some (some ("7" : Str)), 5)] := by
    decide +kernel
  generalize (Trace.run Ids.step (Ids.start []) twoInserts).reads = reads at hRead hShown
  obtain ⟨r, rest, rfl⟩ : ∃ r rest, reads = r :: rest := by
    cases reads with
    | nil => cases hShown
    | cons r rest => exact ⟨r, rest, rfl⟩
  obtain ⟨hCell, hOwn⟩ := Prod.mk.inj (List.cons.inj hShown).1
  have hSame := hRead r (List.mem_cons_self ..)
  rw [hCell, hOwn] at hSame
  revert hSame
  decide

end TwoSessions

end RunAlexDb
