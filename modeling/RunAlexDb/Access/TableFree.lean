import RunAlexDb.Session.Rollback
import RunAlexDb.Statement.Runs

/-!
# TableFree — calls that go to no table

A statement is table-free when its kind and its FROM items lead to no table. A
call that comes to execute such statements only gives the same result whatever
the tables hold, and leaves them all.

Main result: `aside_call`.
-/

set_option linter.unusedSectionVars false

namespace RunAlexDb

open Text Platform
open Prog (Agree)

section TableFree

variable [Platform]

-- ---------------------------------------------------------------------------
-- Engines with other tables
-- ---------------------------------------------------------------------------

/-- The engines differ in the tables of their databases only, and those of the
first are `tables`. -/
structure Aside (tables : Str → Str → Option Table) (e e' : Engine) : Prop where
  tables : ∀ db table, e.table? db table = tables db table
  users : e.users = e'.users
  writeGen : e.writeGen = e'.writeGen
  lastInsertId : e.lastInsertId = e'.lastInsertId
  stmtCache : e.stmtCache = e'.stmtCache
  names : e.databases.keys = e'.databases.keys

variable {tables : Str → Str → Option Table}

/-- Nothing of the databases is seen. -/
theorem Aside.same {e e' : Engine} (h : Aside tables e e') : (View.of fun _ => False).Same e e' :=
  ⟨h.users, h.lastInsertId, fun _ hNone => hNone.elim⟩

theorem Aside.parsed {e e' : Engine} (h : Aside tables e e') (sql : Str) :
    Aside tables (e.parsed sql) (e'.parsed sql) where
  tables := h.tables
  users := h.users
  writeGen := h.writeGen
  lastInsertId := h.lastInsertId
  stmtCache := by
    show cacheAfter e sql = cacheAfter e' sql
    unfold cacheAfter
    rw [h.stmtCache]
  names := h.names

theorem keys_insert {α : Type} (m : HashMap Str α) (k : Str) (a : α) :
    (m.insert k a).keys = if k ∈ m.keys then m.keys else m.keys ++ [k] := by
  unfold HashMap.insert
  split
  · exact HashMap.keys_modify _ _ _
  · exact List.map_append ..

/-- A new database has no table. -/
theorem table?_addDatabase (e : Engine) (name db table : Str) :
    (e.addDatabase name).table? db table = e.table? db table := by
  unfold Engine.addDatabase
  split
  · rfl
  · rename_i hNew
    have hNone : e.databases.get name = none := by
      rw [HashMap.containsKey, Option.not_isSome_iff_eq_none] at hNew
      exact hNew
    unfold Engine.table?
    rw [HashMap.get_insert]
    split
    · rename_i hSame
      rw [hSame, hNone]
      rfl
    · rfl

theorem Aside.addDatabase {e e' : Engine} (h : Aside tables e e') (name : Str) :
    Aside tables (e.addDatabase name) (e'.addDatabase name) := by
  have hKeys : (e.addDatabase name).databases.keys = (e'.addDatabase name).databases.keys := by
    unfold Engine.addDatabase
    by_cases hIn : name ∈ e.databases.keys
    · have hIn' : name ∈ e'.databases.keys := h.names ▸ hIn
      rw [if_pos (HashMap.containsKey_iff.2 hIn), if_pos (HashMap.containsKey_iff.2 hIn')]
      exact h.names
    · have hIn' : name ∉ e'.databases.keys := h.names ▸ hIn
      rw [if_neg fun hKey => hIn (HashMap.containsKey_iff.1 hKey),
        if_neg fun hKey => hIn' (HashMap.containsKey_iff.1 hKey)]
      show (HashMap.insert _ _ _).keys = (HashMap.insert _ _ _).keys
      rw [keys_insert, keys_insert, if_neg hIn, if_neg hIn', h.names]
  have hRest : ∀ x : Engine, (x.addDatabase name).users = x.users ∧
      (x.addDatabase name).writeGen = x.writeGen ∧
        (x.addDatabase name).lastInsertId = x.lastInsertId ∧
          (x.addDatabase name).stmtCache = x.stmtCache := by
    intro x
    unfold Engine.addDatabase
    split <;> exact ⟨rfl, rfl, rfl, rfl⟩
  obtain ⟨hUsers, hGen, hId, hCache⟩ := hRest e
  obtain ⟨hUsers', hGen', hId', hCache'⟩ := hRest e'
  exact {
    tables := fun db table => (table?_addDatabase e name db table).trans (h.tables db table)
    users := by rw [hUsers, hUsers', h.users]
    writeGen := by rw [hGen, hGen', h.writeGen]
    lastInsertId := by rw [hId, hId', h.lastInsertId]
    stmtCache := by rw [hCache, hCache', h.stmtCache]
    names := hKeys }

/-- Work that leaves the databases keeps them aside. -/
theorem Aside.of_same {e e' f f' : Engine} (h : Aside tables e e') (hLeft : f.databases = e.databases)
    (hRight : f'.databases = e'.databases) (hUsers : f.users = f'.users)
    (hGen : f.writeGen = f'.writeGen) (hId : f.lastInsertId = f'.lastInsertId)
    (hCache : f.stmtCache = f'.stmtCache) : Aside tables f f' where
  tables db table := by
    have hTable := h.tables db table
    unfold Engine.table? at hTable ⊢
    rw [hLeft, hTable]
  users := hUsers
  writeGen := hGen
  lastInsertId := hId
  stmtCache := hCache
  names := by rw [hLeft, hRight, h.names]

theorem aside_bumpIfOk (r : QueryResult) : Agree (Aside tables) (bumpIfOk r) (bumpIfOk r) := by
  unfold bumpIfOk
  split
  · refine Agree.bind (Agree.modify fun e e' h => ?_) fun _ => Agree.pure r
    exact h.of_same rfl rfl h.users (congrArg (· + 1) h.writeGen) h.lastInsertId h.stmtCache
  · exact Agree.pure r

-- ---------------------------------------------------------------------------
-- Statements
-- ---------------------------------------------------------------------------

/-- The statement goes to no table. -/
def Statement.tableFree (currentDb : Option Str) : Statement → Bool
  | .createDatabase _ | .use _ | .other _ => true
  | .query q => (readsQuery (dbOrTest currentDb) q).isEmpty
  | .insert ins => ins.source.isNone
  | .drop (.other _) _ _ => true
  | .showColumns _ none => true
  | .showCreate (.other _) _ => true
  | _ => false

/-- The same as a prepared statement: only INSERT ... VALUES is carried out, and
of a query only the first FROM item is looked at. -/
def Statement.tableFreePrepared (currentDb : Option Str) : Statement → Bool
  | .query q => (Statement.namesPrepared currentDb (.query q)).isEmpty
  | .insert ins =>
    match ins.source.map Query.body with
    | some (.values _) => false
    | _ => true
  | stmt => stmt.tableFree currentDb

/-- Work that gives the same result without sight of the databases and leaves
the engine as it is. -/
theorem aside_read {m : EngineM QueryResult}
    (hResult : Agree (View.of fun _ => False).Same m m) (hLeaves : ∀ e, (m.exec e).2 = e) :
    Agree (Aside tables) m m := by
  intro e e' h
  obtain ⟨hSame, -⟩ := hResult e e' h.same
  refine ⟨hSame, ?_⟩
  rw [hLeaves, hLeaves]
  exact h

theorem aside_execStmt (now : Nat) {currentDb : Option Str} {stmt : Statement}
    (hFree : stmt.tableFree currentDb = true) :
    Agree (Aside tables) (execStmt now currentDb stmt) (execStmt now currentDb stmt) := by
  cases stmt with
  | createDatabase dbName =>
    exact Agree.bind (Agree.modify fun e e' h => h.addDatabase _) fun _ => Agree.pure _
  | query q =>
    have hNone : readsQuery (dbOrTest currentDb) q = [] := List.isEmpty_iff.1 hFree
    refine aside_read (agree_execStmt _ now currentDb (.query q) fun d hd => ?_) fun e =>
      exec_of_not_writes (.query q) rfl now currentDb e
    have hIn : d ∈ readsQuery (dbOrTest currentDb) q := hd
    rw [hNone] at hIn
    exact absurd hIn List.not_mem_nil
  | insert ins =>
    have hNone : ins.source = none := Option.isNone_iff_eq_none.1 hFree
    rw [execStmt, hNone]
    exact Agree.pure _
  | drop objectType names ifExists =>
    rcases objectType with _ | _ | _ | text
    · exact absurd hFree Bool.false_ne_true
    · exact absurd hFree Bool.false_ne_true
    · exact absurd hFree Bool.false_ne_true
    · exact Agree.pure _
  | showColumns full parentName =>
    rcases parentName with _ | name
    · exact Agree.pure _
    · exact absurd hFree Bool.false_ne_true
  | showCreate objType objName =>
    rcases objType with _ | text
    · exact absurd hFree Bool.false_ne_true
    · exact Agree.pure _
  | use u => exact Agree.pure _
  | other text => exact Agree.pure _
  | _ => exact absurd hFree Bool.false_ne_true

theorem aside_execStmtPrepared (now : Nat) (bound : List Value) {currentDb : Option Str}
    {stmt : Statement} (hFree : stmt.tableFreePrepared currentDb = true) :
    Agree (Aside tables) (execStmtPrepared now bound currentDb stmt)
      (execStmtPrepared now bound currentDb stmt) := by
  have hText : stmt.tableFree currentDb = true →
      Agree (Aside tables) (execStmt now currentDb stmt) (execStmt now currentDb stmt) :=
    aside_execStmt now
  cases stmt with
  | query q =>
    have hNone : Statement.namesPrepared currentDb (.query q) = [] := List.isEmpty_iff.1 hFree
    refine aside_read (agree_execStmtPrepared _ now bound currentDb (.query q) fun d hd => ?_)
      fun e => exec_of_not_writes_prepared (.query q) rfl now bound currentDb e
    rw [hNone] at hd
    exact absurd hd List.not_mem_nil
  | insert ins =>
    rw [Statement.tableFreePrepared] at hFree
    rw [execStmtPrepared, insertPrepared.eq_def]
    rcases hSource : ins.source with _ | source
    · exact Agree.pure _
    · rw [hSource, Option.map_some] at hFree
      simp only
      rcases hBody : source.body with _ | _ | _ | rows | _ <;> rw [hBody] at hFree <;>
        first | exact Agree.pure _ | exact absurd hFree Bool.false_ne_true
  | update table assignments selection => exact absurd hFree Bool.false_ne_true
  | delete del => exact absurd hFree Bool.false_ne_true
  | _ => exact hText hFree

-- ---------------------------------------------------------------------------
-- Shortcuts
-- ---------------------------------------------------------------------------

/-- The shortcut looks at tables. -/
def Shortcut.readsTables : Shortcut → Bool
  | .showTables | .infoTables | .infoColumns | .infoKeyColumnUsage | .infoStatistics
  | .showIndex => true
  | _ => false

theorem aside_onUsers (f : HashMap Str DbUser → QueryResult × HashMap Str DbUser) :
    Agree (Aside tables) (onUsers f) (onUsers f) := by
  intro e e' h
  unfold onUsers
  rw [Prog.exec_mk, Prog.exec_mk, h.users]
  exact ⟨rfl, h.of_same rfl rfl rfl h.writeGen h.lastInsertId h.stmtCache⟩

theorem aside_execRevoke (sql : Str) : Agree (Aside tables) (execRevoke sql) (execRevoke sql) := by
  unfold execRevoke
  split
  · exact Agree.pure _
  · exact Agree.bind (Agree.ofExcept _) fun _ => Agree.bind (aside_onUsers _) aside_bumpIfOk

theorem aside_execGrant (sql : Str) : Agree (Aside tables) (execGrant sql) (execGrant sql) := by
  unfold execGrant
  split
  · exact Agree.throw _
  · exact Agree.pure _

theorem aside_execShortcut (sql u : Str) (currentDb : Option Str) {s : Shortcut}
    (hFree : s.readsTables = false) :
    Agree (Aside tables) (execShortcut sql u currentDb s) (execShortcut sql u currentDb s) := by
  cases s with
  | createUser => exact Agree.bind (Agree.ofExcept _) fun _ => aside_onUsers _
  | dropUser => exact Agree.bind (Agree.ofExcept _) fun _ => aside_onUsers _
  | grant => exact aside_execGrant _
  | revoke => exact aside_execRevoke _
  | showGrants =>
    refine Agree.bind (Agree.ofExcept _) fun _ => Agree.get_bind fun e e' h => ?_
    rw [h.users]
    exact Agree.pure _
  | showUsers =>
    refine Agree.get_bind fun e e' h => ?_
    rw [h.users]
    exact Agree.pure _
  | showDatabases =>
    refine Agree.get_bind fun e e' h => ?_
    rw [h.names]
    exact Agree.pure _
  | lastInsertId =>
    refine Agree.get_bind fun e e' h => ?_
    rw [h.lastInsertId]
    exact Agree.pure _
  | infoSchemata =>
    refine Agree.get_bind fun e e' h => ?_
    unfold infoSchemata
    rw [h.names]
    exact Agree.pure _
  | showTables => exact absurd hFree.symm Bool.false_ne_true
  | infoTables => exact absurd hFree.symm Bool.false_ne_true
  | infoColumns => exact absurd hFree.symm Bool.false_ne_true
  | infoKeyColumnUsage => exact absurd hFree.symm Bool.false_ne_true
  | infoStatistics => exact absurd hFree.symm Bool.false_ne_true
  | showIndex => exact absurd hFree.symm Bool.false_ne_true
  | selectSysvar => exact Agree.ofExcept _
  | showCreateDatabase => exact Agree.ofExcept _
  | _ => exact Agree.pure _

-- ---------------------------------------------------------------------------
-- Calls
-- ---------------------------------------------------------------------------

def Job.tableFree : Job → Bool
  | .text _ currentDb stmt => stmt.tableFree currentDb
  | .prepared _ _ currentDb stmt => stmt.tableFreePrepared currentDb

/-- The jobs of a call when its statements are these. -/
def Call.jobsOf (stmts : List Statement) : Call → List Job
  | .text now _ currentDb => textJobs now currentDb stmts
  | .prepared now _ params currentDb => preparedJobs now (params.map bindParam) currentDb stmts

/-- The call comes to a table. -/
def Call.touches (userName : Str) (e : Engine) (c : Call) : Bool :=
  c.shortcut.elim ((c.jobs userName e).any fun j => !j.tableFree) Shortcut.readsTables

/-- The text of the call asks for a table. -/
def Call.asks (e : Engine) (c : Call) : Bool :=
  c.shortcut.elim
    (match parseAnswer e c.sql with
      | .error _ => false
      | .ok stmts => (c.jobsOf stmts).any fun j => !j.tableFree)
    Shortcut.readsTables

theorem aside_execBatch (now : Nat) (effDb : Option Str) (last : QueryResult)
    (stmts : List Statement) (hFree : ∀ j ∈ textJobs now effDb stmts, j.tableFree = true) :
    Agree (Aside tables) (execBatch now effDb last stmts) (execBatch now effDb last stmts) := by
  induction stmts generalizing effDb last with
  | nil => exact Agree.pure _
  | cons stmt rest ih =>
    have hStmt : stmt.tableFree (stmt.effDb effDb) = true :=
      hFree (.text now (stmt.effDb effDb) stmt) (List.mem_cons_self ..)
    refine Agree.bind (aside_execStmt now hStmt) fun r => Agree.bind (aside_bumpIfOk r) fun last => ?_
    exact ih _ _ fun j hj => hFree j (List.mem_cons_of_mem _ hj)

theorem aside_execBatchPrepared (now : Nat) (bound : List Value) (currentDb : Option Str)
    (last : QueryResult) (stmts : List Statement)
    (hFree : ∀ j ∈ preparedJobs now bound currentDb stmts, j.tableFree = true) :
    Agree (Aside tables) (execBatchPrepared now bound currentDb last stmts)
      (execBatchPrepared now bound currentDb last stmts) := by
  induction stmts generalizing last with
  | nil => exact Agree.pure _
  | cons stmt rest ih =>
    have hStmt : stmt.tableFreePrepared currentDb = true :=
      hFree (.prepared now bound currentDb stmt) (List.mem_cons_self ..)
    refine Agree.bind (aside_execStmtPrepared now bound hStmt) fun last => ?_
    exact ih last fun j hj => hFree j (List.mem_cons_of_mem _ hj)

/-- **A call that comes to no table** gives the same result whatever the tables
hold, and leaves them. -/
theorem aside_call {e e' : Engine} (h : Aside tables e e') (userName : Str) {c : Call}
    (hFree : c.touches userName e = false) :
    ((c.run userName).exec e).1 = ((c.run userName).exec e').1 ∧
      Aside tables (c.step userName e) (c.step userName e') := by
  have hAnswer := parseAnswer_congr h.stmtCache c.sql
  unfold Call.touches at hFree
  unfold Call.step
  rcases hShort : c.shortcut with _ | s
  · rw [hShort] at hFree
    have hJobs : ∀ j ∈ c.jobs userName e, j.tableFree = true := by
      intro j hj
      have hNone := List.any_eq_false.1 hFree j hj
      simpa using hNone
    rcases c with ⟨now, sql, currentDb⟩ | ⟨now, sql, params, currentDb⟩
    · have hNone : shortcutOf (toUppercase (trim sql)) = none := hShort
      have hAnswer' : parseAnswer e sql = parseAnswer e' sql := hAnswer
      simp only [Call.run, exec_execute_parsed hNone]
      rw [← hAnswer', ← h.users]
      rcases hStmts : parseAnswer e sql with msg | stmts
      · exact ⟨rfl, h.parsed sql⟩
      · simp only
        rcases hCheck : privilegeCheck e.users userName currentDb stmts with _ | refusal
        · have hExecuted := Call.executed_eq hShort hStmts userName
          rw [Call.currentDb, hCheck] at hExecuted
          unfold Call.jobs at hJobs
          simp only [hExecuted] at hJobs
          exact aside_execBatch now currentDb _ stmts hJobs _ _ (h.parsed sql)
        · exact ⟨rfl, h.parsed sql⟩
    · have hAnswer' : parseAnswer e sql = parseAnswer e' sql := hAnswer
      simp only [Call.run, exec_executePrepared]
      rw [← hAnswer', ← h.users]
      rcases hStmts : parseAnswer e sql with msg | stmts
      · exact ⟨rfl, h.parsed sql⟩
      · simp only
        rcases hCheck : privilegeCheck e.users userName currentDb stmts with _ | refusal
        · have hExecuted := Call.executed_eq hShort hStmts userName
          rw [Call.currentDb, hCheck] at hExecuted
          unfold Call.jobs at hJobs
          simp only [hExecuted] at hJobs
          exact aside_execBatchPrepared now _ currentDb _ stmts hJobs _ _ (h.parsed sql)
        · exact ⟨rfl, h.parsed sql⟩
  · rw [hShort] at hFree
    rcases c with ⟨now, sql, currentDb⟩ | ⟨now, sql, params, currentDb⟩
    · simp only [Call.run, exec_execute_shortcut hShort]
      exact aside_execShortcut _ _ _ hFree e e' h
    · cases hShort

/-- Without an account nothing is refused: the call comes to what it asks for. -/
theorem touches_eq_asks {userName : Str} {e : Engine} (h : e.users.get userName = none) (c : Call) :
    c.touches userName e = c.asks e := by
  unfold Call.touches Call.asks
  rcases hShort : c.shortcut with _ | s
  · rcases hStmts : parseAnswer e c.sql with msg | stmts
    · have hNone : c.executed userName e = [] := by
        unfold Call.executed
        rw [hShort, hStmts]
      rcases c with ⟨now, sql, currentDb⟩ | ⟨now, sql, params, currentDb⟩ <;>
        (unfold Call.jobs; rw [hNone]; rfl)
    · have hExecuted : c.executed userName e = stmts := by
        rw [Call.executed_eq hShort hStmts userName]
        unfold privilegeCheck
        rw [h]
      rcases c with ⟨now, sql, currentDb⟩ | ⟨now, sql, params, currentDb⟩ <;>
        (unfold Call.jobs; rw [hExecuted]; rfl)
  · rfl

end TableFree

end RunAlexDb
