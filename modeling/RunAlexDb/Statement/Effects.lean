import RunAlexDb.Model.Execute

/-!
# Effects — what a statement does to the databases

An `Effect` is one write to the map of databases. `Statement.effects` lists the
writes a statement makes in a given engine, in order; a statement that fails
before it writes has none. Whatever holds of the databases after a run is
derived from these lists, not from the statements.

Main results: `execStmt_frame` and `execStmt_databases`, with their versions
for prepared statements.
-/

set_option linter.unusedSectionVars false

namespace RunAlexDb

open Text Platform

variable [Platform]

/-- The map of databases. -/
abbrev Store := HashMap Str Database

-- ---------------------------------------------------------------------------
-- Effects
-- ---------------------------------------------------------------------------

/-- What a statement runs on one table. -/
inductive TableAction
  | insert (replaceInto : Bool) (names : List Str) (rows : List Row)
  | insertPrepared (rows : List Row)
  | update (now : Nat) (assignments : List Assignment) (selection : Option Expr)
  | updatePrepared (now : Nat) (assignments : List Assignment) (selection : Option Expr)
      (bound : List Value)
  | delete (now : Nat) (selection : Option Expr)
  | deletePrepared (now : Nat) (selection : Option Expr) (bound : List Value)
  | truncate
  | alter (operations : List AlterTableOperation)

def TableAction.run : TableAction → TableM QueryResult
  | .insert replaceInto names rows => insertRows replaceInto names rows
  | .insertPrepared rows => insertRowsPrepared rows
  | .update now assignments selection => updateTable now assignments selection
  | .updatePrepared now assignments selection bound =>
    updateTablePrepared now assignments selection bound
  | .delete now selection => deleteTable now selection
  | .deletePrepared now selection bound => deleteTablePrepared now selection bound
  | .truncate => truncateTable
  | .alter operations => alterTable operations

/-- The table an action leaves, panic or not. -/
def TableAction.result (a : TableAction) (t : Table) : Table := (a.run.exec t).2

inductive Effect
  /-- Run an action on a table, if it is there. -/
  | act (db table : Str) (a : TableAction)
  /-- Put a new table in its database. -/
  | put (db : Str) (t : Table)
  | dropTable (db table : Str)
  | addDatabase (db : Str)
  | dropDatabase (db : Str)

/-- Change the tables of a database. -/
def Store.modifyTables (s : Store) (db : Str) (f : HashMap Str Table → HashMap Str Table) : Store :=
  HashMap.modify s db fun d => { d with tables := f d.tables }

def Store.addDatabase (s : Store) (name : Str) : Store :=
  if HashMap.containsKey s name then s else HashMap.insert s name ⟨name, HashMap.empty⟩

def Store.apply (s : Store) : Effect → Store
  | .act db table a =>
    match findTable s db table [] [] with
    | .error _ => s
    | .ok t => s.modifyTables db fun tables => tables.modify table fun _ => a.result t
  | .put db t => s.modifyTables db fun tables => tables.insert t.name t
  | .dropTable db table => s.modifyTables db fun tables => tables.remove table
  | .addDatabase db => s.addDatabase db
  | .dropDatabase db => HashMap.remove s db

/-- Effects in order. -/
def Store.run (s : Store) (effs : List Effect) : Store := effs.foldl Store.apply s

@[simp] theorem Store.run_nil (s : Store) : s.run [] = s := rfl

@[simp] theorem Store.run_cons (s : Store) (eff : Effect) (effs : List Effect) :
    s.run (eff :: effs) = (s.apply eff).run effs := rfl

theorem Store.run_append (s : Store) (effs effs' : List Effect) :
    s.run (effs ++ effs') = (s.run effs).run effs' := List.foldl_append

-- ---------------------------------------------------------------------------
-- The effects of a statement
-- ---------------------------------------------------------------------------

/-- CREATE TABLE puts its table unless the database is missing or the table is
to be kept. -/
def putEffects (s : Store) (ifNotExists : Bool) (db : Str) (t : Table) : List Effect :=
  match s.get db with
  | none => []
  | some d => if ifNotExists && d.tables.containsKey t.name then [] else [.put db t]

def dropTableEffects (dbName : Str) (ifExists : Bool) : Store → List ObjectName → List Effect
  | _, [] => []
  | s, name :: rest =>
    let (db, table) := resolveName dbName (ObjectName.toString name)
    match s.get db with
    | none => if ifExists then dropTableEffects dbName ifExists s rest else []
    | some d =>
      if d.tables.containsKey table then
        .dropTable db table :: dropTableEffects dbName ifExists (s.apply (.dropTable db table)) rest
      else if ifExists then dropTableEffects dbName ifExists s rest
      else []

def dropDatabaseEffects (ifExists : Bool) : Store → List ObjectName → List Effect
  | _, [] => []
  | s, name :: rest =>
    let db := trimMatches '`' (ObjectName.toString name)
    if HashMap.containsKey s db then
      .dropDatabase db :: dropDatabaseEffects ifExists (s.apply (.dropDatabase db)) rest
    else if ifExists then dropDatabaseEffects ifExists s rest
    else []

/-- The tables CREATE TABLE makes: one, or none when its query fails. -/
def createEffects (now : Nat) (dbName : Str) (create : CreateTable) (e : Engine) : List Effect :=
  let (db, table) := createTarget dbName create.name
  match create.query with
  | none =>
    putEffects e.databases create.ifNotExists db
      (Table.create db table (create.columns.map createColumn) [])
  | some query =>
    match (select (e.env now) dbName query).map asTextRows with
    | .ok (.ok (qcols, qrows)) =>
      putEffects e.databases create.ifNotExists db (tableAs dbName create qcols qrows)
    | _ => []

/-- The source rows of an INSERT. -/
def Insert.rows? (now : Nat) (dbName : Str) (ins : Insert) (e : Engine) : Option (List Row) :=
  let (db, table) := insertTarget dbName ins.table.toString
  ins.source.bind fun source =>
    match ((sourceRows now db table source).exec e).1 with
    | .ok (.ok rows) => some rows
    | _ => none

def insertEffects (now : Nat) (dbName : Str) (ins : Insert) (e : Engine) : List Effect :=
  let (db, table) := insertTarget dbName ins.table.toString
  ((ins.rows? now dbName e).map fun rows =>
    Effect.act db table (.insert ins.replaceInto (ins.columns.map Ident.value) rows)).toList

/-- The writes of a statement to the databases. -/
def Statement.effects (now : Nat) (currentDb : Option Str) (e : Engine) : Statement → List Effect
  | .createDatabase dbName => [.addDatabase (ObjectName.toString dbName)]
  | .createTable create => createEffects now (dbOrTest currentDb) create e
  | .insert ins => insertEffects now (dbOrTest currentDb) ins e
  | .drop objectType names ifExists =>
    match objectType with
    | .table => dropTableEffects (dbOrTest currentDb) ifExists e.databases names
    | .database | .schema => dropDatabaseEffects ifExists e.databases names
    | .other _ => []
  | .update table assignments selection =>
    let (db, table) := resolveName (dbOrTest currentDb) table.relation.toString
    [.act db table (.update now assignments selection)]
  | .delete del =>
    let (db, table) := resolveName (dbOrTest currentDb) del.tableName
    [.act db table (.delete now del.selection)]
  | .truncate tableNames =>
    let (db, table) :=
      resolveName (currentDb.getD []) ((tableNames.head?.map ObjectName.toString).getD [])
    [.act db table .truncate]
  | .alterTable name operations =>
    let (db, table) := resolveName (dbOrTest currentDb) (ObjectName.toString name)
    [.act db table (.alter operations)]
  | _ => []

/-- The writes of a prepared statement. -/
def Statement.effectsPrepared (now : Nat) (bound : List Value) (currentDb : Option Str)
    (e : Engine) : Statement → List Effect
  | .query _ => []
  | .insert ins =>
    let (db, table) := resolveName (dbOrTest currentDb) ins.table.toString
    match ins.source.map Query.body with
    | some (.values rows) => [.act db table (.insertPrepared (bindRows bound 0 rows))]
    | _ => []
  | .update table assignments selection =>
    let (db, table) := resolveName (dbOrTest currentDb) table.relation.toString
    [.act db table (.updatePrepared now assignments selection bound)]
  | .delete del =>
    let (db, table) := resolveName (dbOrTest currentDb) del.tableName
    [.act db table (.deletePrepared now del.selection bound)]
  | stmt => stmt.effects now currentDb e

-- ---------------------------------------------------------------------------
-- What the programs do
-- ---------------------------------------------------------------------------

/-- The engine `e'` has the users and the statement cache of `e` and its
databases after the given effects. -/
structure Wrote (e : Engine) (effs : List Effect) (e' : Engine) : Prop where
  users : e'.users = e.users
  stmtCache : e'.stmtCache = e.stmtCache
  databases : e'.databases = Store.run e.databases effs

theorem Wrote.none (e : Engine) : Wrote e [] e := ⟨rfl, rfl, rfl⟩

theorem Wrote.trans {e e' e'' : Engine} {effs effs' : List Effect} (h : Wrote e effs e')
    (h' : Wrote e' effs' e'') : Wrote e (effs ++ effs') e'' where
  users := h'.users.trans h.users
  stmtCache := h'.stmtCache.trans h.stmtCache
  databases := by rw [h'.databases, h.databases, Store.run_append]

/-- A change of write generation and last insert id adds nothing. -/
theorem Wrote.quiet {e e' e'' : Engine} {effs : List Effect} (h : Wrote e effs e')
    (hUsers : e''.users = e'.users) (hCache : e''.stmtCache = e'.stmtCache)
    (hDatabases : e''.databases = e'.databases) : Wrote e effs e'' :=
  ⟨hUsers.trans h.users, hCache.trans h.stmtCache, hDatabases.trans h.databases⟩

theorem wrote_bumpIfOk {e e' : Engine} {effs : List Effect} (h : Wrote e effs e') (r : QueryResult) :
    Wrote e effs ((bumpIfOk r).exec e').2 := by
  rw [bumpIfOk]
  split
  · exact h.quiet rfl rfl rfl
  · exact h

theorem exec_runQuery (now : Nat) (dbName : Str) (q : Query) (e : Engine) :
    (runQuery now dbName q).exec e = (select (e.env now) dbName q, e) := rfl

/-- The texts of the errors do not matter to what is found. -/
theorem findTable_ok_iff {s : Store} {db table noDb noTable : Str} {t : Table} :
    findTable s db table noDb noTable = .ok t ↔ findTable s db table [] [] = .ok t := by
  simp only [findTable]
  split <;> [skip; split] <;> simp

theorem findTable_ok {s : Store} {db table noDb noTable : Str} {t : Table}
    (h : findTable s db table noDb noTable = .ok t) :
    ∃ d, HashMap.get s db = some d ∧ d.tables.get table = some t := by
  rw [findTable] at h
  cases hDb : HashMap.get s db with
  | none => rw [hDb] at h; cases h
  | some d =>
    rw [hDb] at h
    refine ⟨d, rfl, ?_⟩
    simp only at h
    cases hTable : d.tables.get table with
    | none => rw [hTable] at h; cases h
    | some t' => rw [hTable] at h; exact congrArg some (Except.ok.inj h)

theorem wrote_withTable (db table noDb noTable : Str) (a : TableAction) (e : Engine) :
    Wrote e [.act db table a] ((withTable db table noDb noTable a.run).exec e).2 := by
  rw [withTable, Prog.exec_mk]
  cases hTable : findTable e.databases db table noDb noTable with
  | ok t =>
    refine ⟨rfl, rfl, ?_⟩
    rw [Store.run_cons, Store.run_nil, Store.apply, findTable_ok_iff.1 hTable]
    rfl
  | error other =>
    refine ⟨rfl, rfl, ?_⟩
    rw [Store.run_cons, Store.run_nil, Store.apply]
    cases hNone : findTable e.databases db table [] [] with
    | error _ => rfl
    | ok t => rw [findTable_ok_iff.2 hNone] at hTable; cases hTable

theorem wrote_putNewTable (ifNotExists : Bool) (db : Str) (t : Table) (bump : Bool) (e : Engine) :
    Wrote e (putEffects e.databases ifNotExists db t)
      ((putNewTable ifNotExists db t bump).exec e).2 := by
  rw [putNewTable, Prog.exec_get_bind, putEffects]
  cases e.databases.get db with
  | none => exact Wrote.none e
  | some d =>
    by_cases hKeep : (ifNotExists && d.tables.containsKey t.name) = true
    · simp only [hKeep, if_true]
      exact Wrote.none e
    · have hPut : Wrote e [.put db t] (e.modifyTables db fun tables => tables.insert t.name t) :=
        ⟨rfl, rfl, rfl⟩
      simp only [hKeep]
      cases bump with
      | true => exact hPut.quiet rfl rfl rfl
      | false => exact hPut

theorem wrote_createTable (now : Nat) (currentDb : Option Str) (create : CreateTable) (e : Engine) :
    Wrote e (createEffects now (dbOrTest currentDb) create e)
      ((execStmt now currentDb (.createTable create)).exec e).2 := by
  rw [execStmt, createEffects]
  cases create.query with
  | none => exact wrote_putNewTable _ _ _ _ e
  | some query =>
    simp only [createTableAs, Prog.exec_bind, exec_runQuery]
    cases select (e.env now) (dbOrTest currentDb) query with
    | error fault => exact Wrote.none e
    | ok r =>
      simp only [Except.map]
      cases asTextRows r with
      | error other => exact Wrote.none e
      | ok result => exact wrote_putNewTable _ _ _ _ e

/-- Reading the source of an INSERT leaves the engine as it is. -/
theorem exec_sourceRows (now : Nat) (db table : Str) (source : Query) (e : Engine) :
    ((sourceRows now db table source).exec e).2 = e := by
  rw [sourceRows]
  split
  · rfl
  · rw [Prog.exec_get_bind, Prog.exec_bind, exec_runQuery]
    cases select (e.env now) db source <;> rfl

theorem wrote_insert (now : Nat) (dbName : Str) (ins : Insert) (e : Engine) :
    Wrote e (insertEffects now dbName ins e)
      ((insert now dbName ins.table.toString ins.source ins.replaceInto
        (ins.columns.map Ident.value)).exec e).2 := by
  rw [insertEffects, Insert.rows?]
  cases ins.source with
  | none => exact Wrote.none e
  | some source =>
    rcases hTarget : insertTarget dbName ins.table.toString with ⟨db, table⟩
    have hSource := exec_sourceRows now db table source e
    simp only [insert, hTarget, Prog.exec_bind, Option.bind_some]
    rcases hRows : (sourceRows now db table source).exec e with ⟨_ | _ | rows, e'⟩ <;>
      rw [hRows] at hSource <;> obtain rfl := hSource <;>
      simp only [Option.map_some, Option.map_none, Option.toList_some, Option.toList_none]
    · exact Wrote.none _
    · exact Wrote.none _
    · have hAct := wrote_withTable db table (unknownDatabase db) (unknownTable (db ++ "." ++ table))
        (.insert ins.replaceInto (ins.columns.map Ident.value) rows) e'
      simp only [TableAction.run] at hAct
      rw [Prog.exec_bind]
      rcases hRun : (withTable db table (unknownDatabase db) (unknownTable (db ++ "." ++ table))
        (insertRows ins.replaceInto (ins.columns.map Ident.value) rows)).exec e' with ⟨_ | r, e''⟩ <;>
        rw [hRun] at hAct
      · exact hAct
      · cases r with
        | ok count pkVal => exact hAct.quiet rfl rfl rfl
        | err code message => exact hAct
        | rows columns rows => exact hAct
        | valueRows columns rows => exact hAct

theorem wrote_dropTables (dbName : Str) (ifExists : Bool) (names : List ObjectName) (e : Engine) :
    Wrote e (dropTableEffects dbName ifExists e.databases names)
      ((dropTables dbName ifExists names).exec e).2 := by
  induction names generalizing e with
  | nil => exact ⟨rfl, rfl, rfl⟩
  | cons name rest ih =>
    rcases hTarget : resolveName dbName (ObjectName.toString name) with ⟨db, table⟩
    simp only [dropTables, dropTableEffects, hTarget, Prog.exec_get_bind]
    cases e.databases.get db with
    | none =>
      cases ifExists with
      | true => exact ih e
      | false => exact Wrote.none e
    | some d =>
      by_cases hThere : d.tables.containsKey table = true
      · simp only [hThere, if_true, Prog.exec_set_bind]
        have hDrop : Wrote e [.dropTable db table]
            (e.modifyTables db fun tables => tables.remove table) := ⟨rfl, rfl, rfl⟩
        exact hDrop.trans (ih _)
      · simp only [hThere]
        cases ifExists with
        | true => exact ih e
        | false => exact Wrote.none e

theorem wrote_dropDatabases (ifExists : Bool) (names : List ObjectName) (e : Engine) :
    Wrote e (dropDatabaseEffects ifExists e.databases names)
      ((dropDatabases ifExists names).exec e).2 := by
  induction names generalizing e with
  | nil => exact ⟨rfl, rfl, rfl⟩
  | cons name rest ih =>
    simp only [dropDatabases, dropDatabaseEffects, Prog.exec_get_bind]
    by_cases hThere :
        e.databases.containsKey (trimMatches '`' (ObjectName.toString name)) = true
    · simp only [hThere, if_true, Prog.exec_set_bind]
      have hDrop : Wrote e [.dropDatabase (trimMatches '`' (ObjectName.toString name))]
          { e with databases := e.databases.remove (trimMatches '`' (ObjectName.toString name)) } :=
        ⟨rfl, rfl, rfl⟩
      exact hDrop.trans (ih _)
    · simp only [hThere]
      cases ifExists with
      | true => exact ih e
      | false => exact Wrote.none e

theorem wrote_readTable (currentDb : Option Str) (name : ObjectName)
    (show_ : Str → Table → QueryResult) (e : Engine) :
    Wrote e [] ((readTable currentDb name show_).exec e).2 := by
  simp only [readTable, Prog.exec_get_bind]
  split <;> exact Wrote.none e

/-- A program on a table followed by the bump of a successful result. -/
theorem wrote_act_bump {db table : Str} (noDb noTable : Str) (a : TableAction) (e : Engine) :
    Wrote e [.act db table a]
      ((withTable db table noDb noTable a.run >>= bumpIfOk).exec e).2 := by
  have hAct := wrote_withTable db table noDb noTable a e
  rw [Prog.exec_bind]
  rcases hRun : (withTable db table noDb noTable a.run).exec e with ⟨_ | r, e'⟩ <;>
    rw [hRun] at hAct
  · exact hAct
  · exact wrote_bumpIfOk hAct r

-- ---------------------------------------------------------------------------
-- Statements
-- ---------------------------------------------------------------------------

/-- **Statements are their effects.** A statement leaves users and statement
cache alone and writes its effects to the databases, whatever its outcome. -/
theorem wrote_execStmt (now : Nat) (currentDb : Option Str) (stmt : Statement) (e : Engine) :
    Wrote e (stmt.effects now currentDb e) ((execStmt now currentDb stmt).exec e).2 := by
  cases stmt with
  | createDatabase dbName =>
    refine ⟨?_, ?_, ?_⟩ <;>
      simp only [execStmt, createDatabase, Prog.exec_modify_bind, Prog.exec_pure,
        Engine.addDatabase, Statement.effects, Store.run_cons, Store.run_nil, Store.apply,
        Store.addDatabase] <;> split <;> rfl
  | createTable create => exact wrote_createTable now currentDb create e
  | insert ins => exact wrote_insert now _ ins e
  | query q => exact Wrote.none e
  | drop objectType names ifExists =>
    cases objectType with
    | table => exact wrote_dropTables _ ifExists names e
    | database => exact wrote_dropDatabases ifExists names e
    | schema => exact wrote_dropDatabases ifExists names e
    | other text => exact Wrote.none e
  | update table assignments selection =>
    exact wrote_withTable _ _ _ _ (.update now assignments selection) e
  | delete del => exact wrote_withTable _ _ _ _ (.delete now del.selection) e
  | use u => exact Wrote.none e
  | truncate tableNames => exact wrote_act_bump _ _ .truncate e
  | explainTable tableName => exact wrote_readTable _ _ _ e
  | showColumns full parentName =>
    cases parentName with
    | none => exact Wrote.none e
    | some name => exact wrote_readTable _ _ _ e
  | showCreate objType objName =>
    cases objType with
    | table => exact wrote_readTable _ _ _ e
    | other text => exact Wrote.none e
  | alterTable name operations => exact wrote_act_bump _ _ (.alter operations) e
  | other text => exact Wrote.none e

/-- The same for prepared statements. -/
theorem wrote_execStmtPrepared (now : Nat) (bound : List Value) (currentDb : Option Str)
    (stmt : Statement) (e : Engine) :
    Wrote e (stmt.effectsPrepared now bound currentDb e)
      ((execStmtPrepared now bound currentDb stmt).exec e).2 := by
  cases stmt with
  | query q => exact Wrote.none e
  | insert ins =>
    rw [execStmtPrepared, Statement.effectsPrepared]
    cases hSource : ins.source with
    | none => exact Wrote.none e
    | some source =>
      rw [insertPrepared, Option.map_some]
      cases hBody : source.body with
      | values rows => exact wrote_withTable _ _ _ _ (.insertPrepared (bindRows bound 0 rows)) e
      | select s => exact Wrote.none e
      | query q => exact Wrote.none e
      | setOperation op quantifier left right => exact Wrote.none e
      | other text => exact Wrote.none e
  | update table assignments selection =>
    exact wrote_withTable _ _ _ _ (.updatePrepared now assignments selection bound) e
  | delete del => exact wrote_withTable _ _ _ _ (.deletePrepared now del.selection bound) e
  | createDatabase dbName => exact wrote_execStmt now currentDb (.createDatabase dbName) e
  | createTable create => exact wrote_execStmt now currentDb (.createTable create) e
  | drop objectType names ifExists =>
    exact wrote_execStmt now currentDb (.drop objectType names ifExists) e
  | use u => exact wrote_execStmt now currentDb (.use u) e
  | truncate tableNames => exact wrote_execStmt now currentDb (.truncate tableNames) e
  | explainTable tableName => exact wrote_execStmt now currentDb (.explainTable tableName) e
  | showColumns full parentName =>
    exact wrote_execStmt now currentDb (.showColumns full parentName) e
  | showCreate objType objName => exact wrote_execStmt now currentDb (.showCreate objType objName) e
  | alterTable name operations => exact wrote_execStmt now currentDb (.alterTable name operations) e
  | other text => exact wrote_execStmt now currentDb (.other text) e

/-- The statement kinds that can write. -/
def Statement.writes : Statement → Bool
  | .createDatabase _ | .createTable _ | .insert _ | .drop .. | .update .. | .delete _
  | .truncate _ | .alterTable .. => true
  | _ => false

theorem exec_readTable (currentDb : Option Str) (name : ObjectName)
    (show_ : Str → Table → QueryResult) (e : Engine) :
    ((readTable currentDb name show_).exec e).2 = e := by
  simp only [readTable, Prog.exec_get_bind]
  split <;> rfl

/-- A statement of another kind leaves the engine as it is. -/
theorem exec_of_not_writes (stmt : Statement) (h : stmt.writes = false) (now : Nat)
    (currentDb : Option Str) (e : Engine) : ((execStmt now currentDb stmt).exec e).2 = e := by
  cases stmt with
  | query q => rfl
  | use u => rfl
  | other text => rfl
  | explainTable tableName => exact exec_readTable _ _ _ e
  | showColumns full parentName =>
    cases parentName with
    | none => rfl
    | some name => exact exec_readTable _ _ _ e
  | showCreate objType objName =>
    cases objType with
    | table => exact exec_readTable _ _ _ e
    | other text => rfl
  | _ => cases h

theorem exec_of_not_writes_prepared (stmt : Statement) (h : stmt.writes = false) (now : Nat)
    (bound : List Value) (currentDb : Option Str) (e : Engine) :
    ((execStmtPrepared now bound currentDb stmt).exec e).2 = e := by
  cases stmt with
  | query q => rfl
  | use u => exact exec_of_not_writes (.use u) rfl now currentDb e
  | other text => exact exec_of_not_writes (.other text) rfl now currentDb e
  | explainTable tableName =>
    exact exec_of_not_writes (.explainTable tableName) rfl now currentDb e
  | showColumns full parentName =>
    exact exec_of_not_writes (.showColumns full parentName) rfl now currentDb e
  | showCreate objType objName =>
    exact exec_of_not_writes (.showCreate objType objName) rfl now currentDb e
  | _ => cases h

-- ---------------------------------------------------------------------------
-- Batches
-- ---------------------------------------------------------------------------

/-- A batch writes effects only. -/
theorem wrote_execBatch (now : Nat) (effDb : Option Str) (last : QueryResult)
    (stmts : List Statement) (e : Engine) :
    ∃ effs, Wrote e effs ((execBatch now effDb last stmts).exec e).2 := by
  induction stmts generalizing effDb last e with
  | nil => exact ⟨[], Wrote.none e⟩
  | cons stmt rest ih =>
    have hStmt := wrote_execStmt now (stmt.effDb effDb) stmt e
    rw [execBatch, Prog.exec_bind]
    rcases hRun : (execStmt now (stmt.effDb effDb) stmt).exec e with ⟨_ | r, e'⟩ <;> rw [hRun] at hStmt
    · exact ⟨_, hStmt⟩
    · have hBump := wrote_bumpIfOk hStmt r
      simp only
      rw [Prog.exec_bind_ok (show (bumpIfOk r).exec e' = (.ok r, ((bumpIfOk r).exec e').2) from ?_)]
      · obtain ⟨effs, hRest⟩ := ih (stmt.effDb effDb) r ((bumpIfOk r).exec e').2
        exact ⟨_, hBump.trans hRest⟩
      · rw [bumpIfOk]
        split <;> rfl

end RunAlexDb
