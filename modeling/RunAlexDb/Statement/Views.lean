import RunAlexDb.Model.Prepared
import RunAlexDb.Statement.Reads

/-!
# Views — a statement depends on the databases it names

`Statement.names` lists the databases a statement resolves a name in. A `View`
is a relation between two maps of databases that hides some of them; a
statement all of whose names the view sees cannot tell related engines apart,
whatever their write generations and statement caches.

Main results: `agree_execStmt` and `agree_execStmtPrepared`.
-/

set_option linter.unusedSectionVars false

namespace RunAlexDb

open Text Platform
open Prog (Agree)

variable [Platform]

-- ---------------------------------------------------------------------------
-- The names
-- ---------------------------------------------------------------------------

/-- The databases a statement reads or writes, run in `currentDb`. -/
def Statement.names (currentDb : Option Str) : Statement → List Str
  | .createDatabase dbName => [ObjectName.toString dbName]
  | .createTable create =>
    (createTarget (dbOrTest currentDb) create.name).1 ::
      create.query.elim [] (readsQuery (dbOrTest currentDb))
  | .insert ins =>
    let db := (insertTarget (dbOrTest currentDb) ins.table.toString).1
    db :: ins.source.elim [] (readsQuery db)
  | .query q => readsQuery (dbOrTest currentDb) q
  | .drop objectType names _ =>
    match objectType with
    | .table => names.map fun n => (resolveName (dbOrTest currentDb) (ObjectName.toString n)).1
    | .database | .schema => names.map fun n => trimMatches '`' (ObjectName.toString n)
    | .other _ => []
  | .update table _ _ => [(resolveName (dbOrTest currentDb) table.relation.toString).1]
  | .delete del => [(resolveName (dbOrTest currentDb) del.tableName).1]
  | .use _ => []
  | .truncate tableNames =>
    [(resolveName (currentDb.getD []) ((tableNames.head?.map ObjectName.toString).getD [])).1]
  | .explainTable tableName => [(resolveName (dbOrTest currentDb) (ObjectName.toString tableName)).1]
  | .showColumns _ parentName =>
    parentName.elim [] fun n => [(resolveName (dbOrTest currentDb) (ObjectName.toString n)).1]
  | .showCreate _ objName => [(resolveName (dbOrTest currentDb) (ObjectName.toString objName)).1]
  | .alterTable name _ => [(resolveName (dbOrTest currentDb) (ObjectName.toString name)).1]
  | .other _ => []

/-- A prepared statement resolves the target of INSERT as UPDATE does, and
looks up the first table of a query only. -/
def Statement.namesPrepared (currentDb : Option Str) : Statement → List Str
  | .query q =>
    match q.body with
    | .select (.mk _ _ (from_ :: _) _ _ _) =>
      [(resolveName (dbOrTest currentDb) from_.relation.toString).1]
    | _ => []
  | .insert ins => [(resolveName (dbOrTest currentDb) ins.table.toString).1]
  | stmt => stmt.names currentDb

-- ---------------------------------------------------------------------------
-- Views
-- ---------------------------------------------------------------------------

/-- A relation between maps of databases that every update keeps and that
equates the databases it sees. -/
structure View where
  sees : Str → Prop
  rel : HashMap Str Database → HashMap Str Database → Prop
  get_eq {a b d} : rel a b → sees d → a.get d = b.get d
  modify {a b} d f : rel a b → rel (a.modify d f) (b.modify d f)
  insert {a b} d x : rel a b → rel (a.insert d x) (b.insert d x)
  remove {a b} d : rel a b → rel (a.remove d) (b.remove d)

/-- The view that sees everything. -/
def View.all : View where
  sees _ := True
  rel a b := a = b
  get_eq h _ := by rw [h]
  modify _ _ h := by rw [h]
  insert _ _ h := by rw [h]
  remove _ h := by rw [h]

/-- The view of the databases in `S`. -/
def View.of (S : Str → Prop) : View where
  sees := S
  rel a b := ∀ d, S d → a.get d = b.get d
  get_eq h hd := h _ hd
  modify d f h d' hd := by rw [HashMap.get_modify, HashMap.get_modify, h d' hd]
  insert d x h d' hd := by rw [HashMap.get_insert, HashMap.get_insert, h d' hd]
  remove d h d' hd := by rw [HashMap.get_remove, HashMap.get_remove, h d' hd]

/-- Engines a view cannot tell apart. -/
structure View.Same (V : View) (e e' : Engine) : Prop where
  users : e.users = e'.users
  lastInsertId : e.lastInsertId = e'.lastInsertId
  databases : V.rel e.databases e'.databases

namespace View.Same

variable {V : View} {e e' : Engine}

theorem env (h : V.Same e e') (now : Nat) {names : List Str} (hNames : ∀ d ∈ names, V.sees d) :
    QueryEnv.AgreeOn names (e.env now) (e'.env now) :=
  ⟨rfl, h.lastInsertId, fun d hd => V.get_eq h.databases (hNames d hd)⟩

theorem modifyTables (h : V.Same e e') (db : Str) (f : HashMap Str Table → HashMap Str Table) :
    V.Same (e.modifyTables db f) (e'.modifyTables db f) :=
  ⟨h.users, h.lastInsertId, V.modify db (fun d => { d with tables := f d.tables }) h.databases⟩

theorem findTable (h : V.Same e e') {db : Str} (hSees : V.sees db) (table noDb noTable : Str) :
    findTable e.databases db table noDb noTable = findTable e'.databases db table noDb noTable :=
  findTable_congr (V.get_eq h.databases hSees) _ _ _

theorem trans {e e' e'' : Engine} (h : View.all.Same e e') (h' : View.all.Same e' e'') :
    View.all.Same e e'' :=
  ⟨h.users.trans h'.users, h.lastInsertId.trans h'.lastInsertId, h.databases.trans h'.databases⟩

theorem symm {e e' : Engine} (h : View.all.Same e e') : View.all.Same e' e :=
  ⟨h.users.symm, h.lastInsertId.symm, Eq.symm h.databases⟩

end View.Same

-- ---------------------------------------------------------------------------
-- The parts of the statements
-- ---------------------------------------------------------------------------

section Parts

variable {V : View}

theorem agree_bumpWriteGen : Agree V.Same bumpWriteGen bumpWriteGen :=
  Agree.modify fun _ _ h => ⟨h.users, h.lastInsertId, h.databases⟩

theorem agree_bumpIfOk (r : QueryResult) : Agree V.Same (bumpIfOk r) (bumpIfOk r) := by
  rw [bumpIfOk]
  split
  · exact Agree.bind agree_bumpWriteGen fun _ => Agree.pure _
  · exact Agree.pure _

theorem same_bumpIfOk (r : QueryResult) (e : Engine) : View.all.Same ((bumpIfOk r).exec e).2 e := by
  rw [bumpIfOk]
  split <;> exact ⟨rfl, rfl, rfl⟩

theorem agree_runQuery (now : Nat) {dbName : Str} {q : Query}
    (hSees : ∀ d ∈ readsQuery dbName q, V.sees d) :
    Agree V.Same (runQuery now dbName q) (runQuery now dbName q) := by
  refine Agree.get_bind fun e e' h => ?_
  rw [select_congr dbName q (h.env now hSees)]
  exact Agree.ofExcept _

theorem agree_withTable {db : Str} (hSees : V.sees db) (table noDb noTable : Str)
    (act : TableM QueryResult) :
    Agree V.Same (withTable db table noDb noTable act) (withTable db table noDb noTable act) := by
  intro e e' h
  rw [withTable, Prog.exec_mk, Prog.exec_mk, h.findTable hSees]
  cases findTable e'.databases db table noDb noTable with
  | error other => exact ⟨rfl, h⟩
  | ok t => exact ⟨rfl, h.modifyTables db _⟩

theorem agree_addDatabase {name : Str} (hSees : V.sees name) {e e' : Engine} (h : V.Same e e') :
    V.Same (e.addDatabase name) (e'.addDatabase name) := by
  rw [Engine.addDatabase, Engine.addDatabase, HashMap.containsKey, HashMap.containsKey,
    V.get_eq h.databases hSees]
  split
  · exact h
  · exact ⟨h.users, h.lastInsertId, V.insert _ _ h.databases⟩

theorem agree_putNewTable (ifNotExists : Bool) {db : Str} (hSees : V.sees db) (t : Table)
    (bump : Bool) :
    Agree V.Same (putNewTable ifNotExists db t bump) (putNewTable ifNotExists db t bump) := by
  intro e e' h
  rw [putNewTable, Prog.exec_get_bind, Prog.exec_get_bind, V.get_eq h.databases hSees]
  cases e'.databases.get db with
  | none => exact ⟨rfl, h⟩
  | some d =>
    have hPut := h.modifyTables db fun tables => tables.insert t.name t
    by_cases hKeep : (ifNotExists && d.tables.containsKey t.name) = true
    · simpa only [hKeep, if_true] using ⟨rfl, h⟩
    · cases bump with
      | true =>
        have hBump : Agree V.Same (do bumpWriteGen; return QueryResult.ok 0 0)
            (do bumpWriteGen; return QueryResult.ok 0 0) :=
          Agree.bind agree_bumpWriteGen fun _ => Agree.pure _
        simpa [hKeep] using hBump _ _ hPut
      | false => simpa [hKeep] using ⟨rfl, hPut⟩

theorem agree_createTableAs (now : Nat) {dbName : Str} {create : CreateTable} {query : Query}
    (hTarget : V.sees (createTarget dbName create.name).1)
    (hSees : ∀ d ∈ readsQuery dbName query, V.sees d) :
    Agree V.Same (createTableAs now dbName create query)
      (createTableAs now dbName create query) := by
  refine Agree.bind (agree_runQuery now hSees) fun r => ?_
  cases asTextRows r with
  | error other => exact Agree.pure _
  | ok result => exact agree_putNewTable _ hTarget _ _

theorem agree_sourceRows (now : Nat) {db : Str} (table : Str) {source : Query} (hDb : V.sees db)
    (hSees : ∀ d ∈ readsQuery db source, V.sees d) :
    Agree V.Same (sourceRows now db table source) (sourceRows now db table source) := by
  rw [sourceRows]
  split
  · exact Agree.pure _
  · refine Agree.get_bind fun e e' h => ?_
    rw [columnTypes, columnTypes, h.findTable hDb]
    exact Agree.bind (agree_runQuery now hSees) fun r => Agree.pure _

theorem agree_insert (now : Nat) (dbName tableName : Str) (source : Option Query)
    (replaceInto : Bool) (insertColumns : List Str)
    (hDb : V.sees (insertTarget dbName tableName).1)
    (hSees : ∀ d ∈ source.elim [] (readsQuery (insertTarget dbName tableName).1), V.sees d) :
    Agree V.Same (insert now dbName tableName source replaceInto insertColumns)
      (insert now dbName tableName source replaceInto insertColumns) := by
  cases source with
  | none => exact Agree.pure _
  | some source =>
    refine Agree.bind (agree_sourceRows now _ hDb hSees) fun rows => ?_
    cases rows with
    | error other => exact Agree.pure _
    | ok rows =>
      refine Agree.bind (agree_withTable hDb _ _ _ _) fun r => ?_
      cases r with
      | ok count pkVal =>
        exact Agree.bind (Agree.modify fun _ _ h => ⟨h.users, rfl, h.databases⟩) fun _ =>
          Agree.pure _
      | err code message => exact Agree.pure _
      | rows columns rows => exact Agree.pure _
      | valueRows columns rows => exact Agree.pure _

theorem agree_dropTables (dbName : Str) (ifExists : Bool) (names : List ObjectName)
    (hSees : ∀ n ∈ names, V.sees (resolveName dbName (ObjectName.toString n)).1) :
    Agree V.Same (dropTables dbName ifExists names) (dropTables dbName ifExists names) := by
  induction names with
  | nil => exact Agree.bind agree_bumpWriteGen fun _ => Agree.pure _
  | cons name rest ih =>
    have hRest := ih fun n hn => hSees n (List.mem_cons_of_mem _ hn)
    have hName := hSees name (List.mem_cons_self ..)
    intro e e' h
    rcases hTarget : resolveName dbName (ObjectName.toString name) with ⟨db, table⟩
    rw [hTarget] at hName
    simp only [dropTables, hTarget, Prog.exec_get_bind, V.get_eq h.databases hName]
    cases e'.databases.get db with
    | none =>
      cases ifExists with
      | true => exact hRest e e' h
      | false => exact ⟨rfl, h⟩
    | some d =>
      by_cases hThere : d.tables.containsKey table = true
      · simp only [hThere, if_true, Prog.exec_set_bind]
        exact hRest _ _ (h.modifyTables db _)
      · cases ifExists with
        | true => simpa only [hThere, Bool.false_eq_true, if_false, if_true] using hRest e e' h
        | false => simpa only [hThere, Bool.false_eq_true, if_false] using ⟨rfl, h⟩

theorem agree_dropDatabases (ifExists : Bool) (names : List ObjectName)
    (hSees : ∀ n ∈ names, V.sees (trimMatches '`' (ObjectName.toString n))) :
    Agree V.Same (dropDatabases ifExists names) (dropDatabases ifExists names) := by
  induction names with
  | nil => exact Agree.bind agree_bumpWriteGen fun _ => Agree.pure _
  | cons name rest ih =>
    have hRest := ih fun n hn => hSees n (List.mem_cons_of_mem _ hn)
    have hName := hSees name (List.mem_cons_self ..)
    intro e e' h
    simp only [dropDatabases, Prog.exec_get_bind, HashMap.containsKey, V.get_eq h.databases hName]
    by_cases hThere : (e'.databases.get (trimMatches '`' (ObjectName.toString name))).isSome = true
    · simp only [hThere, if_true, Prog.exec_set_bind]
      exact hRest _ _ ⟨h.users, h.lastInsertId, V.remove _ h.databases⟩
    · cases ifExists with
      | true => simpa only [hThere, Bool.false_eq_true, if_false, if_true] using hRest e e' h
      | false => simpa only [hThere, Bool.false_eq_true, if_false] using ⟨rfl, h⟩

theorem agree_readTable (currentDb : Option Str) (name : ObjectName)
    (show_ : Str → Table → QueryResult)
    (hSees : V.sees (resolveName (dbOrTest currentDb) (ObjectName.toString name)).1) :
    Agree V.Same (readTable currentDb name show_) (readTable currentDb name show_) := by
  refine Agree.get_bind fun e e' h => ?_
  simp only [h.findTable hSees]
  cases findTable e'.databases _ _ _ _ with
  | error other => exact Agree.pure _
  | ok t => exact Agree.pure _

end Parts

-- ---------------------------------------------------------------------------
-- Statements
-- ---------------------------------------------------------------------------

/-- **A statement sees only what it names.** On engines that a view cannot tell
apart, a statement whose names the view sees gives the same result and leaves
engines the view cannot tell apart. -/
theorem agree_execStmt (V : View) (now : Nat) (currentDb : Option Str) (stmt : Statement)
    (hNames : ∀ d ∈ stmt.names currentDb, V.sees d) :
    Agree V.Same (execStmt now currentDb stmt) (execStmt now currentDb stmt) := by
  cases stmt with
  | createDatabase dbName =>
    have hDb := hNames _ (List.mem_singleton_self _)
    exact Agree.bind (Agree.modify fun _ _ => agree_addDatabase hDb) fun _ => Agree.pure _
  | createTable create =>
    have hDb := hNames _ (List.mem_cons_self ..)
    rw [execStmt]
    cases hQuery : create.query with
    | some query =>
      exact agree_createTableAs now hDb fun d hd => hNames d (by simp [Statement.names, hQuery, hd])
    | none => exact agree_putNewTable _ hDb _ _
  | insert ins =>
    exact agree_insert now _ _ _ _ _ (hNames _ (List.mem_cons_self ..)) fun d hd =>
      hNames d (List.mem_cons_of_mem _ hd)
  | query q => exact agree_runQuery now hNames
  | drop objectType names ifExists =>
    cases objectType with
    | table =>
      exact agree_dropTables _ _ _ fun n hn => hNames _ (List.mem_map_of_mem hn)
    | database => exact agree_dropDatabases _ _ fun n hn => hNames _ (List.mem_map_of_mem hn)
    | schema => exact agree_dropDatabases _ _ fun n hn => hNames _ (List.mem_map_of_mem hn)
    | other text => exact Agree.pure _
  | update table assignments selection =>
    exact agree_withTable (hNames _ (List.mem_singleton_self _)) _ _ _ _
  | delete del => exact agree_withTable (hNames _ (List.mem_singleton_self _)) _ _ _ _
  | use u => exact Agree.pure _
  | truncate tableNames =>
    exact Agree.bind (agree_withTable (hNames _ (List.mem_singleton_self _)) _ _ _ _) agree_bumpIfOk
  | explainTable tableName => exact agree_readTable _ _ _ (hNames _ (List.mem_singleton_self _))
  | showColumns full parentName =>
    cases parentName with
    | none => exact Agree.pure _
    | some name => exact agree_readTable _ _ _ (hNames _ (List.mem_singleton_self _))
  | showCreate objType objName =>
    cases objType with
    | table => exact agree_readTable _ _ _ (hNames _ (List.mem_singleton_self _))
    | other text => exact Agree.pure _
  | alterTable name operations =>
    exact Agree.bind (agree_withTable (hNames _ (List.mem_singleton_self _)) _ _ _ _) agree_bumpIfOk
  | other text => exact Agree.pure _

theorem agree_selectPrepared (V : View) (now : Nat) (dbName : Str) (q : Query) (bound : List Value)
    (hSees : ∀ projection from_ rest selection groupBy having distinct,
      q.body = .select (.mk distinct projection (from_ :: rest) selection groupBy having) →
        V.sees (resolveName dbName from_.relation.toString).1) :
    Agree V.Same
      (do let e ← get; Prog.ofExcept (selectPrepared (e.env now) dbName q bound))
      (do let e ← get; Prog.ofExcept (selectPrepared (e.env now) dbName q bound)) := by
  refine Agree.get_bind fun e e' h => ?_
  have hEq : selectPrepared (e.env now) dbName q bound =
      selectPrepared (e'.env now) dbName q bound := by
    rw [selectPrepared, selectPrepared]
    split
    · rfl
    · rename_i hBody
      simp only [Engine.env, h.findTable (hSees _ _ _ _ _ _ _ hBody)]
    · rfl
  rw [hEq]
  exact Agree.ofExcept _

/-- The same for a prepared statement. -/
theorem agree_execStmtPrepared (V : View) (now : Nat) (bound : List Value) (currentDb : Option Str)
    (stmt : Statement) (hNames : ∀ d ∈ stmt.namesPrepared currentDb, V.sees d) :
    Agree V.Same (execStmtPrepared now bound currentDb stmt)
      (execStmtPrepared now bound currentDb stmt) := by
  cases stmt with
  | query q =>
    refine agree_selectPrepared V now _ q bound fun _ _ _ _ _ _ _ hBody => hNames _ ?_
    simp [Statement.namesPrepared, hBody]
  | insert ins =>
    have hDb := hNames _ (List.mem_singleton_self _)
    rw [execStmtPrepared]
    cases ins.source with
    | none => exact Agree.pure _
    | some source =>
      rw [insertPrepared]
      split
      · exact agree_withTable hDb _ _ _ _
      · exact Agree.pure _
  | update table assignments selection =>
    exact agree_withTable (hNames _ (List.mem_singleton_self _)) _ _ _ _
  | delete del => exact agree_withTable (hNames _ (List.mem_singleton_self _)) _ _ _ _
  | createDatabase dbName => exact agree_execStmt V now currentDb _ hNames
  | createTable create => exact agree_execStmt V now currentDb _ hNames
  | drop objectType names ifExists => exact agree_execStmt V now currentDb _ hNames
  | use u => exact agree_execStmt V now currentDb _ hNames
  | truncate tableNames => exact agree_execStmt V now currentDb _ hNames
  | explainTable tableName => exact agree_execStmt V now currentDb _ hNames
  | showColumns full parentName => exact agree_execStmt V now currentDb _ hNames
  | showCreate objType objName => exact agree_execStmt V now currentDb _ hNames
  | alterTable name operations => exact agree_execStmt V now currentDb _ hNames
  | other text => exact agree_execStmt V now currentDb _ hNames

end RunAlexDb
