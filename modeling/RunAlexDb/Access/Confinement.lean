import RunAlexDb.Model.Concrete
import RunAlexDb.Statement.Runs

/-!
# Confinement — accounts with a list of databases

The check of a user's databases looks at the session's database only. What a
call reads and writes is decided by the names in its text; a call all of whose
names lie in a set of databases cannot tell engines apart that agree on it, and
writes nothing outside.

Main result: `confined_call`.
-/

set_option linter.unusedSectionVars false

namespace RunAlexDb

open Text Platform

section Confinement

variable [Platform]

-- ---------------------------------------------------------------------------
-- The database of an effect
-- ---------------------------------------------------------------------------

def Effect.db : Effect → Str
  | .act db _ _ => db
  | .put db _ => db
  | .dropTable db _ => db
  | .addDatabase db => db
  | .dropDatabase db => db

/-- Every other database stays. -/
theorem get_apply_of_ne {s : Store} {eff : Effect} {d : Str} (h : d ≠ eff.db) :
    HashMap.get (s.apply eff) d = HashMap.get s d := by
  have hModify : ∀ db f, d ≠ db → HashMap.get (s.modifyTables db f) d = HashMap.get s d := by
    intro db f hNe
    rw [Store.modifyTables, HashMap.get_modify, if_neg hNe]
  cases eff with
  | act db table a =>
    rw [Store.apply]
    split
    · rfl
    · exact hModify _ _ h
  | put db t => exact hModify _ _ h
  | dropTable db table => exact hModify _ _ h
  | addDatabase db =>
    rw [Store.apply, Store.addDatabase]
    split
    · rfl
    · exact (HashMap.get_insert ..).trans (if_neg h)
  | dropDatabase db => exact (HashMap.get_remove ..).trans (if_neg h)

theorem get_run_of_ne {s : Store} {effs : List Effect} {d : Str} (h : ∀ eff ∈ effs, d ≠ eff.db) :
    HashMap.get (s.run effs) d = HashMap.get s d := by
  induction effs generalizing s with
  | nil => rfl
  | cons eff effs ih =>
    rw [Store.run_cons, ih fun x hx => h x (List.mem_cons_of_mem _ hx)]
    exact get_apply_of_ne (h eff (List.mem_cons_self ..))

-- ---------------------------------------------------------------------------
-- Effects are on named databases
-- ---------------------------------------------------------------------------

theorem db_of_putEffects {s : Store} {ifNotExists : Bool} {db : Str} {t : Table} {eff : Effect}
    (h : eff ∈ putEffects s ifNotExists db t) : eff.db = db := by
  rw [putEffects] at h
  split at h
  · cases h
  · split at h
    · cases h
    · rw [List.mem_singleton] at h
      rw [h]
      rfl

theorem db_of_dropTableEffects {dbName : Str} {ifExists : Bool} {s : Store}
    {names : List ObjectName} {eff : Effect} (h : eff ∈ dropTableEffects dbName ifExists s names) :
    eff.db ∈ names.map fun n => (resolveName dbName (ObjectName.toString n)).1 := by
  induction names generalizing s with
  | nil => cases h
  | cons name rest ih =>
    rw [List.map_cons]
    rcases hTarget : resolveName dbName (ObjectName.toString name) with ⟨db, table⟩
    simp only [dropTableEffects, hTarget] at h
    split at h
    · split at h
      · exact List.mem_cons_of_mem _ (ih h)
      · cases h
    · split at h
      · rcases List.mem_cons.1 h with rfl | hRest
        · exact List.mem_cons_self ..
        · exact List.mem_cons_of_mem _ (ih hRest)
      · split at h
        · exact List.mem_cons_of_mem _ (ih h)
        · cases h

theorem db_of_dropDatabaseEffects {ifExists : Bool} {s : Store} {names : List ObjectName}
    {eff : Effect} (h : eff ∈ dropDatabaseEffects ifExists s names) :
    eff.db ∈ names.map fun n => trimMatches '`' (ObjectName.toString n) := by
  induction names generalizing s with
  | nil => cases h
  | cons name rest ih =>
    rw [List.map_cons]
    rw [dropDatabaseEffects] at h
    split at h
    · rcases List.mem_cons.1 h with rfl | hRest
      · exact List.mem_cons_self ..
      · exact List.mem_cons_of_mem _ (ih hRest)
    · split at h
      · exact List.mem_cons_of_mem _ (ih h)
      · cases h

theorem db_of_createEffects {now : Nat} {dbName : Str} {create : CreateTable} {e : Engine}
    {eff : Effect} (h : eff ∈ createEffects now dbName create e) :
    eff.db = (createTarget dbName create.name).1 := by
  rcases hTarget : createTarget dbName create.name with ⟨db, table⟩
  simp only [createEffects, hTarget] at h
  cases hQuery : create.query with
  | none =>
    rw [hQuery] at h
    exact db_of_putEffects h
  | some query =>
    rw [hQuery] at h
    simp only at h
    split at h
    · exact db_of_putEffects h
    · cases h

/-- The effects of a statement are on databases it names. -/
theorem db_of_effects (now : Nat) (currentDb : Option Str) (e : Engine) (stmt : Statement)
    {eff : Effect} (h : eff ∈ stmt.effects now currentDb e) : eff.db ∈ stmt.names currentDb := by
  cases stmt with
  | createTable create =>
    rw [db_of_createEffects h]
    exact List.mem_cons_self ..
  | insert ins =>
    rw [Statement.effects, insertEffects] at h
    obtain ⟨rows, _, rfl⟩ := by simpa using h
    exact List.mem_cons_self ..
  | drop objectType names ifExists =>
    cases objectType with
    | table => exact db_of_dropTableEffects h
    | database => exact db_of_dropDatabaseEffects h
    | schema => exact db_of_dropDatabaseEffects h
    | other text => cases h
  | createDatabase dbName => rw [List.mem_singleton.1 h]; exact List.mem_singleton_self _
  | update table assignments selection =>
    rw [List.mem_singleton.1 h]
    exact List.mem_singleton_self _
  | delete del => rw [List.mem_singleton.1 h]; exact List.mem_singleton_self _
  | truncate tableNames => rw [List.mem_singleton.1 h]; exact List.mem_singleton_self _
  | alterTable name operations => rw [List.mem_singleton.1 h]; exact List.mem_singleton_self _
  | query q => cases h
  | use u => cases h
  | explainTable tableName => cases h
  | showColumns full parentName => cases h
  | showCreate objType objName => cases h
  | other text => cases h

theorem db_of_effectsPrepared {now : Nat} {bound : List Value} {currentDb : Option Str} {e : Engine}
    {stmt : Statement} {eff : Effect} (h : eff ∈ stmt.effectsPrepared now bound currentDb e) :
    eff.db ∈ stmt.namesPrepared currentDb := by
  cases stmt with
  | query q => cases h
  | insert ins =>
    simp only [Statement.effectsPrepared] at h
    cases hBody : ins.source.map Query.body with
    | none => simp [hBody] at h
    | some body =>
      cases body with
      | values rows =>
        rw [hBody, List.mem_singleton] at h
        rw [h]
        exact List.mem_singleton_self _
      | _ => simp [hBody] at h
  | update table assignments selection =>
    rw [List.mem_singleton.1 h]
    exact List.mem_singleton_self _
  | delete del => rw [List.mem_singleton.1 h]; exact List.mem_singleton_self _
  | createDatabase dbName => exact db_of_effects now currentDb e (.createDatabase dbName) h
  | createTable create => exact db_of_effects now currentDb e (.createTable create) h
  | drop objectType names ifExists =>
    exact db_of_effects now currentDb e (.drop objectType names ifExists) h
  | truncate tableNames => exact db_of_effects now currentDb e (.truncate tableNames) h
  | alterTable name operations => exact db_of_effects now currentDb e (.alterTable name operations) h
  | _ => cases h

-- ---------------------------------------------------------------------------
-- Calls
-- ---------------------------------------------------------------------------

def Job.names : Job → List Str
  | .text _ currentDb stmt => stmt.names currentDb
  | .prepared _ _ currentDb stmt => stmt.namesPrepared currentDb

theorem db_of_job {e : Engine} {j : Job} {eff : Effect} (h : eff ∈ j.effects e) :
    eff.db ∈ j.names := by
  cases j with
  | text now currentDb stmt => exact db_of_effects now currentDb e stmt h
  | prepared now bound currentDb stmt => exact db_of_effectsPrepared h

theorem get_jobs_of_ne {e : Engine} {jobs : List Job} {d : Str} (h : ∀ j ∈ jobs, d ∉ j.names) :
    (Trace.run Job.step e jobs).databases.get d = e.databases.get d := by
  induction jobs generalizing e with
  | nil => rfl
  | cons j jobs ih =>
    rw [Trace.run_cons, ih fun k hk => h k (List.mem_cons_of_mem _ hk), (wrote_job e j).databases]
    refine get_run_of_ne fun eff hEff hEq => h j (List.mem_cons_self ..) ?_
    rw [hEq]
    exact db_of_job hEff

/-- The databases a call looks up: those a shortcut names, or those of the
statements it comes to execute. -/
def Call.names (userName : Str) (e : Engine) (c : Call) : List Str :=
  match c.shortcut with
  | some s => s.names c.sql c.currentDb
  | none => (c.jobs userName e).flatMap Job.names

/-- The call is answered by going over all databases. -/
def Call.listsDatabases (c : Call) : Bool := c.shortcut.elim false Shortcut.listsDatabases

theorem names_textJobs (now : Nat) (effDb : Option Str) (stmts : List Statement) :
    (textJobs now effDb stmts).flatMap Job.names = batchNames effDb stmts := by
  induction stmts generalizing effDb with
  | nil => rfl
  | cons stmt rest ih => rw [textJobs, List.flatMap_cons, ih, batchNames]; rfl

/-- A call whose names the view sees has the same answer, and leaves what the view
cannot tell apart. -/
theorem same_call (V : View) (userName : Str) {e e' : Engine} (c : Call) (h : V.Same e e')
    (hParse : parseAnswer e c.sql = parseAnswer e' c.sql)
    (hNames : ∀ d ∈ c.names userName e, V.sees d)
    (hLists : c.listsDatabases = true → ∀ a b, V.rel a b → a = b) :
    ((c.run userName).exec e).1 = ((c.run userName).exec e').1 ∧
      V.Same (c.step userName e) (c.step userName e') := by
  cases c with
  | text now sql currentDb =>
    cases hShort : shortcutOf (toUppercase (trim sql)) with
    | some s =>
      have hSome : (Call.text now sql currentDb).shortcut = some s := hShort
      rw [Call.names, hSome] at hNames
      rw [Call.listsDatabases, hSome] at hLists
      simp only [Call.step, Call.run, exec_execute_shortcut hShort]
      exact agree_execShortcut _ _ _ s hNames hLists e e' h
    | none =>
      have hNone : (Call.text now sql currentDb).shortcut = none := hShort
      simp only [Call.step, Call.run, exec_execute_parsed hShort, Call.sql] at hParse ⊢
      rw [← hParse, ← h.users]
      cases hStmts : parseAnswer e sql with
      | error msg => exact ⟨rfl, h.parsed sql⟩
      | ok stmts =>
        simp only
        cases hCheck : privilegeCheck e.users userName currentDb stmts with
        | some refusal => exact ⟨rfl, h.parsed sql⟩
        | none =>
          have hExecuted : (Call.text now sql currentDb).executed userName e = stmts := by
            rw [Call.executed_eq hNone hStmts userName, Call.currentDb, hCheck]
          rw [Call.names, hNone] at hNames
          simp only [Call.jobs, hExecuted, names_textJobs] at hNames
          exact agree_execBatch V now currentDb _ stmts hNames _ _ (h.parsed sql)
  | prepared now sql params currentDb =>
    simp only [Call.step, Call.run, exec_executePrepared, Call.sql] at hParse ⊢
    rw [← hParse, ← h.users]
    cases hStmts : parseAnswer e sql with
    | error msg => exact ⟨rfl, h.parsed sql⟩
    | ok stmts =>
      simp only
      cases hCheck : privilegeCheck e.users userName currentDb stmts with
      | some refusal => exact ⟨rfl, h.parsed sql⟩
      | none =>
        have hNone : (Call.prepared now sql params currentDb).shortcut = none := rfl
        have hExecuted : (Call.prepared now sql params currentDb).executed userName e = stmts := by
          rw [Call.executed_eq hNone hStmts userName, Call.currentDb, hCheck]
        refine agree_execBatchPrepared V now _ currentDb _ stmts (fun stmt hStmt d hd => ?_) _ _
          (h.parsed sql)
        refine hNames d (List.mem_flatMap.2 ⟨.prepared now (params.map bindParam) currentDb stmt, ?_, hd⟩)
        rw [Call.jobs, hExecuted, preparedJobs]
        exact List.mem_map_of_mem hStmt

theorem agree_call (V : View) (userName : Str) {e e' : Engine} (c : Call) (h : V.Same e e')
    (hParse : parseAnswer e c.sql = parseAnswer e' c.sql)
    (hNames : ∀ d ∈ c.names userName e, V.sees d)
    (hLists : c.listsDatabases = true → ∀ a b, V.rel a b → a = b) :
    ((c.run userName).exec e).1 = ((c.run userName).exec e').1 :=
  (same_call V userName c h hParse hNames hLists).1

/-- A call leaves the databases it does not name. -/
theorem get_step_of_ne {userName : Str} {e : Engine} {c : Call} {d : Str}
    (h : d ∉ c.names userName e) : (c.step userName e).databases.get d = e.databases.get d := by
  rw [Call.names] at h
  cases hShort : c.shortcut with
  | some s => rw [(Call.step_shortcut (by rw [hShort]; rfl) userName e).databases]
  | none =>
    rw [hShort] at h
    obtain ⟨jobs, hPrefix, hRun⟩ := Call.step_jobs hShort userName e
    rw [hRun, get_jobs_of_ne fun j hj hd => h (List.mem_flatMap.2 ⟨j, hPrefix.subset hj, hd⟩)]
    rfl

/-- **Confinement.** Let two engines agree on the users, the last insert id and
the databases of `S`, and on what their statement caches answer for the text.
A call, text or prepared, that is no listing of all databases and looks up
databases of `S` only has the same result on both and leaves every database
outside `S` as it is. -/
theorem confined_call (S : HashSet Str) (userName : Str) (e e' : Engine) (c : Call)
    (hSame : (View.of fun d => S.contains d = true).Same e e')
    (hParse : parseAnswer e c.sql = parseAnswer e' c.sql)
    (hNames : ∀ d ∈ c.names userName e, S.contains d = true) (hLists : c.listsDatabases = false) :
    ((c.run userName).exec e).1 = ((c.run userName).exec e').1 ∧
      ∀ d, S.contains d = false →
        (c.step userName e).databases.get d = e.databases.get d := by
  refine ⟨agree_call _ userName c hSame hParse hNames fun hTrue => ?_, fun d hd => ?_⟩
  · rw [hLists] at hTrue
    cases hTrue
  · refine get_step_of_ne fun hIn => ?_
    rw [hNames d hIn] at hd
    cases hd

end Confinement

-- ---------------------------------------------------------------------------
-- A qualified name
-- ---------------------------------------------------------------------------

set_option maxRecDepth 2000

section Qualified

/-- `SELECT * FROM db.t`. -/
def selectAll (db : Str) : Statement :=
  .query (.mk (.select (.mk none [.wildcard "*"]
    [.mk (.table [⟨db, none⟩, ⟨"t", none⟩] []) []] none (.expressions []) none)) none none none)

local instance confinementPlatform : Platform := tablePlatform
  [("SELECT * FROM app.t", [selectAll "app"]), ("SELECT * FROM hr.t", [selectAll "hr"])]

/-- The list of the account bob. -/
def bobsDbs : HashSet Str := HashMap.ofList [("app", ())]

/-- bob may use database app; database hr has a table t with the given rows. -/
def engineOfBob (rows : List Row) : Engine :=
  let table := Table.create "hr" "t" [⟨"a", .int, true, false⟩] rows
  { Engine.fresh [] with
    databases := HashMap.ofList
      [("app", ⟨"app", HashMap.empty⟩), ("hr", ⟨"hr", HashMap.ofList [("t", table)]⟩)]
    users := HashMap.ofList
      [("bob", { newUser [] with allowedDbs := some bobsDbs })] }

theorem same_engineOfBob (rows rows' : List Row) :
    (View.of fun d => HashSet.contains bobsDbs d = true).Same
      (engineOfBob rows) (engineOfBob rows') := by
  refine ⟨rfl, rfl, fun d hd => ?_⟩
  have hApp : d = "app" := by
    by_contra hNe
    have hNone : HashMap.get bobsDbs d = none :=
      (HashMap.get_insert HashMap.empty ("app" : Str) d ()).trans (if_neg hNe)
    have hIn : (HashMap.get bobsDbs d).isSome = true := hd
    rw [hNone] at hIn
    cases hIn
  rw [hApp]
  rfl

theorem confined_call_app :
    (((Call.text 0 "SELECT * FROM app.t" (some "app")).run "bob").exec (engineOfBob [])).1 =
        (((Call.text 0 "SELECT * FROM app.t" (some "app")).run "bob").exec
          (engineOfBob [[.int 1]])).1 ∧
      ∀ d, HashSet.contains bobsDbs d = false →
        ((Call.text 0 "SELECT * FROM app.t" (some "app")).step "bob"
          (engineOfBob [])).databases.get d = (engineOfBob []).databases.get d :=
  confined_call bobsDbs "bob" (engineOfBob []) (engineOfBob [[.int 1]])
    (.text 0 "SELECT * FROM app.t" (some "app")) (same_engineOfBob _ _) rfl (by decide +kernel)
    (by decide +kernel)

/-- What bob reads depends on the rows of a database outside his list. -/
theorem not_confined_call :
    ¬ ∀ (S : HashSet Str) (userName : Str) (account : DbUser) (e e' : Engine) (c : Call),
      e.users.get userName = some account → account.allowedDbs = some S →
      (∀ d, c.currentDb = some d → S.contains d = true) →
      (View.of fun d => S.contains d = true).Same e e' →
      parseAnswer e c.sql = parseAnswer e' c.sql →
      ((c.run userName).exec e).1 = ((c.run userName).exec e').1 := by
  intro hAll
  have hSame := hAll bobsDbs "bob" _ (engineOfBob []) (engineOfBob [[.int 1]])
    (.text 0 "SELECT * FROM hr.t" (some "app")) rfl rfl
    (fun d hd => by rw [← Option.some.inj hd]; decide +kernel) (same_engineOfBob _ _) rfl
  revert hSame
  decide +kernel

end Qualified

end RunAlexDb
