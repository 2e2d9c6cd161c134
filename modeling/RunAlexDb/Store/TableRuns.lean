import RunAlexDb.Statement.Runs

/-!
# TableRuns — laws of tables over whole runs

A `TableLaw` says something of single tables, with the condition under which a
table action, or a new table, keeps it. `World` is an engine with the snapshots
of its sessions' transactions; its moves are the calls, logins and transaction
statements of any sessions in any order.

Main result: `TableLaw.holds_run`: a law holds of every table after every run
whose calls meet its conditions.
-/

set_option linter.unusedSectionVars false

namespace RunAlexDb

open Text Platform

variable [Platform]

-- ---------------------------------------------------------------------------
-- Laws
-- ---------------------------------------------------------------------------

/-- A law of tables that actions keep under the condition `act` on the table
they meet, and that new tables obey under the condition `put` on their columns
and rows. -/
structure TableLaw where
  holds : Table → Prop
  act : Table → TableAction → Prop
  put : List Column → List Row → Prop
  holds_act : ∀ t a, holds t → act t a → holds (a.result t)
  holds_put : ∀ schema name columns rows, put columns rows →
    holds (Table.create schema name columns rows)

/-- Every table of the databases obeys `P`. -/
def Store.Each (P : Table → Prop) (s : Store) : Prop :=
  ∀ db d table t, HashMap.get s db = some d → d.tables.get table = some t → P t

/-- Every table of the snapshot obeys `P`. -/
def Snapshot.Each (P : Table → Prop) (snap : Snapshot) : Prop :=
  ∀ db tables table t, HashMap.get snap db = some tables → tables.get table = some t → P t

/-- A table put in its database is one that CREATE TABLE makes. -/
def Effect.Creates : Effect → Prop
  | .put _ t => ∃ schema name columns rows, t = Table.create schema name columns rows
  | _ => True

theorem creates_putEffects (s : Store) (ifNotExists : Bool) (db schema name : Str)
    (columns : List Column) (rows : List Row) :
    ∀ eff ∈ putEffects s ifNotExists db (Table.create schema name columns rows), eff.Creates := by
  intro eff hMem
  rw [putEffects] at hMem
  split at hMem
  · cases hMem
  · split at hMem
    · cases hMem
    · rw [List.mem_singleton.1 hMem]
      exact ⟨_, _, _, _, rfl⟩

theorem creates_dropTableEffects (dbName : Str) (ifExists : Bool) (s : Store)
    (names : List ObjectName) : ∀ eff ∈ dropTableEffects dbName ifExists s names, eff.Creates := by
  induction names generalizing s with
  | nil => intro eff hMem; cases hMem
  | cons name rest ih =>
    intro eff hMem
    simp only [dropTableEffects] at hMem
    split at hMem
    · split at hMem
      · exact ih s eff hMem
      · cases hMem
    · split at hMem
      · rcases List.mem_cons.1 hMem with rfl | hRest
        · trivial
        · exact ih _ eff hRest
      · split at hMem
        · exact ih s eff hMem
        · cases hMem

theorem creates_dropDatabaseEffects (ifExists : Bool) (s : Store) (names : List ObjectName) :
    ∀ eff ∈ dropDatabaseEffects ifExists s names, eff.Creates := by
  induction names generalizing s with
  | nil => intro eff hMem; cases hMem
  | cons name rest ih =>
    intro eff hMem
    simp only [dropDatabaseEffects] at hMem
    split at hMem
    · rcases List.mem_cons.1 hMem with rfl | hRest
      · trivial
      · exact ih _ eff hRest
    · split at hMem
      · exact ih s eff hMem
      · cases hMem

theorem creates_of_mem_execStmt (now : Nat) (currentDb : Option Str) (e : Engine) (stmt : Statement) :
    ∀ eff ∈ stmt.effects now currentDb e, eff.Creates := by
  intro eff hMem
  cases stmt with
  | createTable create =>
    simp only [Statement.effects, createEffects] at hMem
    split at hMem
    · exact creates_putEffects _ _ _ _ _ _ _ eff hMem
    · split at hMem
      · exact creates_putEffects _ _ _ _ _ _ _ eff hMem
      · cases hMem
  | createDatabase dbName => rw [List.mem_singleton.1 hMem]; trivial
  | insert ins =>
    simp only [Statement.effects, insertEffects, Option.mem_toList,
      Option.map_eq_some_iff] at hMem
    obtain ⟨rows, -, rfl⟩ := hMem
    trivial
  | drop objectType names ifExists =>
    cases objectType with
    | table => exact creates_dropTableEffects _ _ _ _ eff hMem
    | database => exact creates_dropDatabaseEffects _ _ _ eff hMem
    | schema => exact creates_dropDatabaseEffects _ _ _ eff hMem
    | other text => cases hMem
  | update table assignments selection => rw [List.mem_singleton.1 hMem]; trivial
  | delete del => rw [List.mem_singleton.1 hMem]; trivial
  | truncate tableNames => rw [List.mem_singleton.1 hMem]; trivial
  | alterTable name operations => rw [List.mem_singleton.1 hMem]; trivial
  | _ => cases hMem

theorem creates_of_mem_effects (e : Engine) (j : Job) : ∀ eff ∈ j.effects e, eff.Creates := by
  intro eff hMem
  cases j with
  | text now currentDb stmt => exact creates_of_mem_execStmt now currentDb e stmt eff hMem
  | prepared now bound currentDb stmt =>
    have hText := creates_of_mem_execStmt now currentDb e stmt eff
    cases stmt with
    | query q => cases hMem
    | insert ins =>
      simp only [Job.effects, Statement.effectsPrepared] at hMem
      split at hMem
      · rw [List.mem_singleton.1 hMem]; trivial
      · cases hMem
    | update table assignments selection => rw [List.mem_singleton.1 hMem]; trivial
    | delete del => rw [List.mem_singleton.1 hMem]; trivial
    | _ => exact hText hMem

namespace TableLaw

variable (L : TableLaw)

/-- The condition on an effect. -/
def MeetsEffect (s : Store) : Effect → Prop
  | .act db table a => ∀ t, findTable s db table [] [] = .ok t → L.act t a
  | .put _ t => L.put t.columns t.rows
  | _ => True

/-- The condition on a statement: on its effects, one after the other. -/
def MeetsJob (e : Engine) (j : Job) : Prop :=
  Trace.Along Store.apply L.MeetsEffect e.databases (j.effects e)

/-- The condition on a call: on its statements, one after the other. -/
def MeetsCall (userName : Str) (e : Engine) (c : Call) : Prop :=
  Trace.Along Job.step L.MeetsJob (e.parsed c.sql) (c.jobs userName e)

theorem each_modifyTables {P : Table → Prop} {s : Store} (h : s.Each P) (db : Str)
    {f : HashMap Str Table → HashMap Str Table}
    (hf : ∀ d, HashMap.get s db = some d → ∀ table t, (f d.tables).get table = some t → P t) :
    (s.modifyTables db f).Each P := by
  intro db' d' table t hDb hTable
  rw [Store.modifyTables, HashMap.get_modify] at hDb
  split at hDb
  · rename_i hSame
    subst hSame
    obtain ⟨d, hd, rfl⟩ := Option.map_eq_some_iff.1 hDb
    exact hf d hd table t hTable
  · exact h db' d' table t hDb hTable

/-- One effect. -/
theorem each_apply {s : Store} (h : s.Each L.holds) {eff : Effect} (hNew : eff.Creates)
    (hMeets : L.MeetsEffect s eff) : (s.apply eff).Each L.holds := by
  cases eff with
  | act db table a =>
    rw [Store.apply]
    cases hFind : findTable s db table [] [] with
    | error other => exact h
    | ok t =>
      obtain ⟨d, hDb, hTable⟩ := findTable_ok hFind
      have hLaw := L.holds_act t a (h db d table t hDb hTable) (hMeets t hFind)
      refine each_modifyTables h db fun d' hd' table' t' hGet => ?_
      obtain rfl := Option.some.inj (hDb.symm.trans hd')
      rw [HashMap.get_modify] at hGet
      split at hGet
      · obtain ⟨_, -, rfl⟩ := Option.map_eq_some_iff.1 hGet
        exact hLaw
      · exact h db d table' t' hDb hGet
  | put db t =>
    refine each_modifyTables h db fun d hDb table' t' hGet => ?_
    rw [HashMap.get_insert] at hGet
    split at hGet
    · obtain rfl := Option.some.inj hGet
      obtain ⟨schema, name, columns, rows, rfl⟩ := hNew
      exact L.holds_put schema name columns rows hMeets
    · exact h db d table' t' hDb hGet
  | dropTable db table =>
    refine each_modifyTables h db fun d hDb table' t' hGet => ?_
    rw [HashMap.get_remove] at hGet
    split at hGet
    · cases hGet
    · exact h db d table' t' hDb hGet
  | addDatabase db =>
    intro db' d' table t hDb hTable
    rw [Store.apply, Store.addDatabase] at hDb
    split at hDb
    · exact h db' d' table t hDb hTable
    · rw [HashMap.get_insert] at hDb
      split at hDb
      · obtain rfl := Option.some.inj hDb
        cases hTable
      · exact h db' d' table t hDb hTable
  | dropDatabase db =>
    intro db' d' table t hDb hTable
    rw [Store.apply, HashMap.get_remove] at hDb
    split at hDb
    · cases hDb
    · exact h db' d' table t hDb hTable

/-- One statement. -/
theorem each_job {e : Engine} (h : Store.Each L.holds e.databases) {j : Job}
    (hMeets : L.MeetsJob e j) : Store.Each L.holds (j.step e).databases := by
  rw [(wrote_job e j).databases]
  have hNew := creates_of_mem_effects e j
  rw [MeetsJob] at hMeets
  generalize j.effects e = effs at hNew hMeets
  generalize e.databases = s at h hMeets
  induction effs generalizing s with
  | nil => exact h
  | cons eff effs ih =>
    exact ih (fun eff' hMem => hNew eff' (List.mem_cons_of_mem _ hMem)) _
      (L.each_apply h (hNew eff (List.mem_cons_self ..)) hMeets.1) hMeets.2

/-- One call, whatever its outcome. -/
theorem each_call {e : Engine} (h : Store.Each L.holds e.databases) {userName : Str} {c : Call}
    (hMeets : L.MeetsCall userName e c) :
    Store.Each L.holds (c.step userName e).databases := by
  cases hShort : c.shortcut with
  | some s =>
    have hSame := Call.step_shortcut (c := c) (by rw [hShort]; rfl) userName e
    rw [hSame.databases]
    exact h
  | none =>
    obtain ⟨jobs, ⟨rest, hJobs⟩, hStep⟩ := Call.step_jobs hShort userName e
    rw [hStep]
    have hAlong : Trace.Along Job.step L.MeetsJob (e.parsed c.sql) jobs := by
      rw [MeetsCall, ← hJobs] at hMeets
      exact hMeets.prefix
    have hParsed : Store.Each L.holds (e.parsed c.sql).databases := h
    exact Trace.invariant_run (I := fun e => Store.Each L.holds e.databases)
      (fun e j he hj => L.each_job he hj) hParsed hAlong

end TableLaw

-- ---------------------------------------------------------------------------
-- Sessions on a common engine
-- ---------------------------------------------------------------------------

/-- An engine with the snapshots of the sessions that are in a transaction. -/
structure World where
  engine : Engine
  snapshots : Nat → Option Snapshot

/-- What a session does to the engine. -/
inductive Move
  /-- A login makes its database. -/
  | login (db : Str)
  | call (userName : Str) (c : Call)
  | begin (session : Nat)
  | commit (session : Nat)
  | rollback (session : Nat)

/-- A session's snapshot set. -/
def World.withSnapshot (w : World) (session : Nat) (snap : Option Snapshot) : World :=
  { w with snapshots := Function.update w.snapshots session snap }

def World.step (w : World) : Move → World
  | .login db => { w with engine := w.engine.addDatabase db }
  | .call userName c => { w with engine := c.step userName w.engine }
  | .begin session => w.withSnapshot session (some w.engine.takeSnapshot)
  | .commit session => w.withSnapshot session none
  | .rollback session =>
    match w.snapshots session with
    | some snap =>
      World.withSnapshot { w with engine := w.engine.restoreSnapshot snap } session none
    | none => w

/-- The engine `Engine::new` makes, no session in a transaction. -/
def World.fresh (rootPassword : Str) : World := ⟨Engine.fresh rootPassword, fun _ => none⟩

/-- Every table obeys `P`, those of the snapshots too. -/
structure World.Each (P : Table → Prop) (w : World) : Prop where
  tables : Store.Each P w.engine.databases
  snapshots : ∀ session snap, w.snapshots session = some snap → Snapshot.Each P snap

theorem World.Each.mono {P Q : Table → Prop} {w : World} (h : w.Each P) (hPQ : ∀ t, P t → Q t) :
    w.Each Q where
  tables db d table t hDb hTable := hPQ t (h.tables db d table t hDb hTable)
  snapshots session snap hSnap db tables table t hDb hTable :=
    hPQ t (h.snapshots session snap hSnap db tables table t hDb hTable)

theorem each_takeSnapshot {P : Table → Prop} {e : Engine} (h : Store.Each P e.databases) :
    Snapshot.Each P e.takeSnapshot := by
  intro db tables table t hDb hTable
  rw [Engine.takeSnapshot, HashMap.get_mapValues] at hDb
  obtain ⟨d, hd, rfl⟩ := Option.map_eq_some_iff.1 hDb
  exact h db d table t hd hTable

theorem each_restoreSnapshot {P : Table → Prop} {e : Engine} {snap : Snapshot}
    (h : Store.Each P e.databases) (hSnap : Snapshot.Each P snap) :
    Store.Each P (e.restoreSnapshot snap).databases := by
  intro db d' table t hDb hTable
  rw [Engine.restoreSnapshot, HashMap.get_mapValues] at hDb
  obtain ⟨d, hd, rfl⟩ := Option.map_eq_some_iff.1 hDb
  cases hThen : snap.get db with
  | none =>
    simp only [hThen, Option.getD_none] at hTable
    exact h db d table t hd hTable
  | some tables =>
    simp only [hThen, Option.getD_some] at hTable
    exact hSnap db tables table t hThen hTable

theorem World.Each.withSnapshot {P : Table → Prop} {w : World} (h : w.Each P) (session : Nat)
    {snap : Option Snapshot} (hSnap : ∀ s, snap = some s → Snapshot.Each P s) :
    (w.withSnapshot session snap).Each P := by
  refine ⟨h.tables, fun session' s hGet => ?_⟩
  rw [World.withSnapshot] at hGet
  simp only [Function.update_apply] at hGet
  split at hGet
  · exact hSnap s hGet
  · exact h.snapshots session' s hGet

namespace TableLaw

variable (L : TableLaw)

/-- The condition on a move: only calls have one. -/
def Meets (w : World) : Move → Prop
  | .call userName c => L.MeetsCall userName w.engine c
  | _ => True

theorem holds_fresh (rootPassword : Str) : (World.fresh rootPassword).Each L.holds := by
  refine ⟨fun db d table t hDb hTable => ?_, fun session snap hNone => by cases hNone⟩
  have hEmpty : d.tables = HashMap.empty := by
    have hMem := HashMap.mem_of_get_ofList hDb
    obtain ⟨_, -, hEq⟩ := List.mem_map.1 hMem
    rw [← (Prod.mk.inj hEq).2]
  rw [hEmpty] at hTable
  cases hTable

/-- One move. -/
theorem holds_step {w : World} (h : w.Each L.holds) {m : Move} (hMeets : L.Meets w m) :
    (w.step m).Each L.holds := by
  cases m with
  | login db =>
    refine ⟨?_, h.snapshots⟩
    have hAdd : (w.engine.addDatabase db).databases = Store.addDatabase w.engine.databases db := by
      rw [Engine.addDatabase, Store.addDatabase]
      split <;> rfl
    rw [World.step, hAdd]
    exact L.each_apply h.tables (show Effect.Creates (.addDatabase db) from trivial) trivial
  | call userName c => exact ⟨L.each_call h.tables hMeets, h.snapshots⟩
  | begin session =>
    refine h.withSnapshot session fun s hs => ?_
    obtain rfl := Option.some.inj hs
    exact each_takeSnapshot h.tables
  | commit session => exact h.withSnapshot session fun s hs => by cases hs
  | rollback session =>
    rw [World.step]
    cases hSnap : w.snapshots session with
    | none => exact h
    | some snap =>
      have hRestored : World.Each L.holds { w with engine := w.engine.restoreSnapshot snap } :=
        ⟨each_restoreSnapshot h.tables (h.snapshots session snap hSnap), h.snapshots⟩
      exact hRestored.withSnapshot session fun s hs => by cases hs

/-- **Laws over runs.** A law holds of every table after every run from
`Engine::new` whose calls meet its conditions. -/
theorem holds_run (rootPassword : Str) {moves : List Move}
    (hMeets : Trace.Along World.step L.Meets (World.fresh rootPassword) moves) :
    (Trace.run World.step (World.fresh rootPassword) moves).Each L.holds :=
  Trace.invariant_run (I := World.Each L.holds) (fun _ _ hw hm => L.holds_step hw hm)
    (L.holds_fresh rootPassword) hMeets

/-- **What a law gives along a run.** Where the tables that obey `L` and meet its
conditions meet those of `M`, a run that meets the conditions of `L` meets those
of `M` at every table it changes or makes. -/
theorem meets_run (M : TableLaw) (hAct : ∀ t a, L.holds t → L.act t a → M.act t a)
    (hPut : ∀ columns rows, L.put columns rows → M.put columns rows) (rootPassword : Str)
    {moves : List Move}
    (hMeets : Trace.Along World.step L.Meets (World.fresh rootPassword) moves) :
    Trace.Along World.step M.Meets (World.fresh rootPassword) moves := by
  have hEffects : ∀ (effs : List Effect) (s : Store), (∀ eff ∈ effs, eff.Creates) →
      Store.Each L.holds s → Trace.Along Store.apply L.MeetsEffect s effs →
        Trace.Along Store.apply M.MeetsEffect s effs := by
    intro effs
    induction effs with
    | nil => intro s _ _ _; trivial
    | cons eff effs ih =>
      intro s hNew hEach hAlong
      refine ⟨?_, ih _ (fun eff' hMem => hNew eff' (List.mem_cons_of_mem _ hMem))
        (L.each_apply hEach (hNew eff (List.mem_cons_self ..)) hAlong.1) hAlong.2⟩
      cases eff with
      | act db table a =>
        intro t hFind
        obtain ⟨d, hDb, hTable⟩ := findTable_ok hFind
        exact hAct t a (hEach db d table t hDb hTable) (hAlong.1 t hFind)
      | put db t => exact hPut _ _ hAlong.1
      | _ => trivial
  have hJob : ∀ (e : Engine) (j : Job), Store.Each L.holds e.databases → L.MeetsJob e j →
      M.MeetsJob e j := fun e j hEach hJob =>
    hEffects _ _ (creates_of_mem_effects e j) hEach hJob
  refine Trace.Along.of_invariant (I := World.Each L.holds) (fun _ _ hw hm => L.holds_step hw hm)
    (fun w m hw hm => ?_) (L.holds_fresh rootPassword) hMeets
  cases m with
  | call userName c =>
    have hParsed : Store.Each L.holds (w.engine.parsed c.sql).databases := hw.tables
    exact Trace.Along.of_invariant (I := fun e => Store.Each L.holds e.databases)
      (fun e j he hj => L.each_job he hj) hJob hParsed hm
  | _ => trivial

-- ---------------------------------------------------------------------------
-- Conditions that can be evaluated
-- ---------------------------------------------------------------------------

variable [∀ t a, Decidable (L.act t a)] [∀ columns rows, Decidable (L.put columns rows)]

instance decidableMeetsEffect (s : Store) : ∀ eff : Effect, Decidable (L.MeetsEffect s eff)
  | .act db table a =>
    match hFind : findTable s db table [] [] with
    | .error _ => isTrue fun t h => by rw [hFind] at h; cases h
    | .ok t =>
      decidable_of_iff (L.act t a)
        ⟨fun h t' h' => by rw [hFind] at h'; exact Except.ok.inj h' ▸ h, fun h => h t hFind⟩
  | .put _ t => inferInstanceAs (Decidable (L.put t.columns t.rows))
  | .dropTable .. | .addDatabase _ | .dropDatabase _ => isTrue trivial

instance decidableMeetsJob (e : Engine) (j : Job) : Decidable (L.MeetsJob e j) :=
  inferInstanceAs (Decidable (Trace.Along Store.apply L.MeetsEffect e.databases (j.effects e)))

instance decidableMeets (w : World) : ∀ m : Move, Decidable (L.Meets w m)
  | .call userName c =>
    inferInstanceAs (Decidable (Trace.Along Job.step L.MeetsJob (w.engine.parsed c.sql)
      (c.jobs userName w.engine)))
  | .login _ | .begin _ | .commit _ | .rollback _ => isTrue trivial

end TableLaw

/-- The law at a table that is there. -/
theorem World.Each.of_findTable {P : Table → Prop} {w : World} (h : w.Each P) {db table : Str}
    {t : Table} (hFind : findTable w.engine.databases db table [] [] = .ok t) : P t := by
  obtain ⟨d, hDb, hTable⟩ := findTable_ok hFind
  exact h.tables db d table t hDb hTable

end RunAlexDb
