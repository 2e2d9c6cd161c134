import RunAlexDb.Model.TableOps

/-!
# Statements — `exec_stmt`

One statement on the engine. `now` is the clock, `currentDb` the database of
the session.
-/

namespace RunAlexDb

open Text Platform

variable [Platform]

/-- `fetch_add(1)`, wrapping. -/
def bumpWriteGen : EngineM Unit := modify fun e => { e with writeGen := e.writeGen + 1 }

/-- What a query reads of the engine. -/
def Engine.env (e : Engine) (now : Nat) : QueryEnv := ⟨e.databases, e.lastInsertId, now⟩

def runQuery (now : Nat) (dbName : Str) (q : Query) : EngineM QueryResult := do
  let e ← get
  Prog.ofExcept (select (e.env now) dbName q)

/-- Change the tables of a database. -/
def Engine.modifyTables (e : Engine) (db : Str) (f : HashMap Str Table → HashMap Str Table) : Engine :=
  { e with databases := e.databases.modify db fun d => { d with tables := f d.tables } }

/-- Run a program on a table of a database, or return the error of a missing
one. -/
def withTable (db table noDb noTable : Str) (act : TableM QueryResult) : EngineM QueryResult :=
  Prog.mk fun e =>
    match findTable e.databases db table noDb noTable with
    | .error other => (.ok other, e)
    | .ok t =>
      ((act.exec t).1, e.modifyTables db fun tables => tables.modify table fun _ => (act.exec t).2)

/-- The session's database, `test` when none is selected. -/
def dbOrTest (currentDb : Option Str) : Str := currentDb.getD "test"

/-- Bump the write generation when the statement succeeded. -/
def bumpIfOk (r : QueryResult) : EngineM QueryResult := do
  if r.isOk then bumpWriteGen
  return r

-- ---------------------------------------------------------------------------
-- CREATE
-- ---------------------------------------------------------------------------

/-- `dbs.entry(name).or_insert_with(..)`. -/
def Engine.addDatabase (e : Engine) (name : Str) : Engine :=
  if e.databases.containsKey name then e
  else { e with databases := e.databases.insert name ⟨name, HashMap.empty⟩ }

def ensureDatabase (name : Str) : EngineM Unit := modify fun e => e.addDatabase name

def createDatabase (name : Str) : EngineM QueryResult := do
  modify fun e => e.addDatabase name
  return .ok 1 0

/-- Database and table of a created name: its last two parts. -/
def createTarget (dbName : Str) (name : ObjectName) : Str × Str :=
  match name.reverse with
  | [] => (dbName, [])
  | [t] => (dbName, t.value)
  | t :: d :: _ => (d.value, t.value)

def createColumn (c : ColumnDef) : Column :=
  let isPk := c.options.any fun o => o == .unique true
  { name := c.name.value, colType := sqlTypeToColType c.dataType, nullable := !isPk, primaryKey := isPk }

/-- Put a new table in its database, in place of one of that name. With IF NOT
EXISTS an existing table stays. -/
def putNewTable (ifNotExists : Bool) (db : Str) (t : Table) (bump : Bool) : EngineM QueryResult := do
  let e ← get
  match e.databases.get db with
  | none => return .err 1049 (unknownDatabase db)
  | some d =>
    if ifNotExists && d.tables.containsKey t.name then return .ok 0 0
    else
      set (e.modifyTables db fun tables => tables.insert t.name t)
      if bump then bumpWriteGen
      return .ok 0 0

def createTable (dbName : Str) (name : ObjectName) (colDefs : List ColumnDef) (ifNotExists : Bool) :
    EngineM QueryResult :=
  let (db, table) := createTarget dbName name
  putNewTable ifNotExists db (Table.create db table (colDefs.map createColumn) []) false

/-- The type of a column of CREATE TABLE AS SELECT, from the first row. -/
def inferType : Option (Option Str) → ColumnType
  | some (some s) =>
    if (parseI64 s).isSome then .bigInt
    else if (f64Parse s).isSome then .float
    else .varChar 255
  | _ => .varChar 255

/-- A cell of CREATE TABLE AS SELECT, read as its column's type. -/
def readAs (col : Option Column) : Option Str → Value
  | none => .null
  | some s =>
    match col.map Column.colType with
    | some .int | some .bigInt => (parseI64 s).elim (.text s) .int
    | some .float => (f64Parse s).elim (.text s) .float
    | _ => .text s

/-- The table of CREATE TABLE AS SELECT. -/
def tableAs (dbName : Str) (create : CreateTable) (qcols : List Str) (qrows : List TextRow) : Table :=
  let (db, table) := createTarget dbName create.name
  let columns : List Column :=
    if !create.columns.isEmpty then create.columns.map createColumn
    else qcols.mapIdx fun i n =>
      { name := n, colType := inferType (qrows.head?.bind fun r => r[i]?), nullable := true,
        primaryKey := false }
  Table.create db table columns (qrows.map fun r => r.mapIdx fun ci v => readAs columns[ci]? v)

def createTableAs (now : Nat) (dbName : Str) (create : CreateTable) (query : Query) :
    EngineM QueryResult := do
  match asTextRows (← runQuery now dbName query) with
  | .error other => return other
  | .ok (qcols, qrows) =>
    putNewTable create.ifNotExists (createTarget dbName create.name).1
      (tableAs dbName create qcols qrows) true

-- ---------------------------------------------------------------------------
-- INSERT
-- ---------------------------------------------------------------------------

/-- Target of an INSERT. An unqualified name is taken as it is, in its quotes. -/
def insertTarget (dbName tableName : Str) : Str × Str :=
  match splitOnce '.' tableName with
  | some (db, table) => (trimMatches '`' db, trimMatches '`' table)
  | none => (dbName, tableName)

/-- A cell of INSERT ... SELECT, read as its column's type. -/
def coerceTo (colType : Option ColumnType) : Option Str → Value
  | none => .null
  | some s =>
    match colType with
    | some .int | some .bigInt => .int ((parseI64 s).getD 0)
    | some .float => .float ((f64Parse s).getD f64Zero)
    | _ => .text s

/-- The types of a table's columns, none for a missing table. -/
def columnTypes (databases : HashMap Str Database) (db table : Str) : List ColumnType :=
  match findTable databases db table [] [] with
  | .ok t => t.columns.map Column.colType
  | .error _ => []

/-- The rows an INSERT inserts, or the result to return instead. -/
def sourceRows (now : Nat) (db table : Str) (source : Query) :
    EngineM (Except QueryResult (List Row)) :=
  match source.body with
  | .values rows => return .ok (rows.map fun exprs => exprs.map exprToValue)
  | _ => do
    let e ← get
    let colTypes := columnTypes e.databases db table
    return (asTextRows (← runQuery now db source)).map fun r =>
      r.2.map fun row => row.mapIdx fun i v => coerceTo colTypes[i]? v

def insert (now : Nat) (dbName tableName : Str) (source : Option Query) (replaceInto : Bool)
    (insertColumns : List Str) : EngineM QueryResult :=
  match source with
  | none => return .err 1064 "INSERT without VALUES"
  | some source => do
    let (db, table) := insertTarget dbName tableName
    match ← sourceRows now db table source with
    | .error other => return other
    | .ok rows =>
      let r ← withTable db table (unknownDatabase db) (unknownTable (db ++ "." ++ table))
        (insertRows replaceInto insertColumns rows)
      match r with
      | .ok count pkVal =>
        modify fun e => { e with lastInsertId := pkVal }
        return .ok count pkVal
      | other => return other

-- ---------------------------------------------------------------------------
-- UPDATE, DELETE, TRUNCATE, ALTER
-- ---------------------------------------------------------------------------

def update (now : Nat) (dbName tableName : Str) (assignments : List Assignment)
    (selection : Option Expr) : EngineM QueryResult :=
  let (db, table) := resolveName dbName tableName
  withTable db table (unknownDatabase db) (unknownTable (db ++ "." ++ table))
    (updateTable now assignments selection)

def delete (now : Nat) (dbName tableName : Str) (selection : Option Expr) : EngineM QueryResult :=
  let (db, table) := resolveName dbName tableName
  withTable db table (unknownDatabase db) (unknownTable (db ++ "." ++ table))
    (deleteTable now selection)

/-- The table a DELETE is from. -/
def Delete.tableName (del : Delete) : Str :=
  (del.from_.head?.map fun t => t.relation.toString).getD []

/-- TRUNCATE: without a selected database an unqualified name is in database ``. -/
def truncate (currentDb : Option Str) (tableNames : List ObjectName) : EngineM QueryResult := do
  let (db, table) := resolveName (currentDb.getD []) ((tableNames.head?.map ObjectName.toString).getD [])
  bumpIfOk (← withTable db table "Unknown database" "Table not found" truncateTable)

def alter (currentDb : Option Str) (name : ObjectName) (operations : List AlterTableOperation) :
    EngineM QueryResult := do
  let (db, table) := resolveName (dbOrTest currentDb) (ObjectName.toString name)
  bumpIfOk (← withTable db table "Unknown database" "Table not found" (alterTable operations))

-- ---------------------------------------------------------------------------
-- DROP
-- ---------------------------------------------------------------------------

/-- DROP TABLE, name by name; a missing one ends it unless IF EXISTS is given. -/
def dropTables (dbName : Str) (ifExists : Bool) : List ObjectName → EngineM QueryResult
  | [] => do
    bumpWriteGen
    return .ok 0 0
  | name :: rest => do
    let e ← get
    let (db, table) := resolveName dbName (ObjectName.toString name)
    match e.databases.get db with
    | none =>
      if ifExists then dropTables dbName ifExists rest
      else return .err 1049 (unknownDatabase db)
    | some d =>
      if d.tables.containsKey table then
        set (e.modifyTables db fun tables => tables.remove table)
        dropTables dbName ifExists rest
      else if ifExists then dropTables dbName ifExists rest
      else return .err 1051 ("Unknown table '" ++ db ++ "." ++ table ++ "'")

/-- DROP DATABASE, name by name. -/
def dropDatabases (ifExists : Bool) : List ObjectName → EngineM QueryResult
  | [] => do
    bumpWriteGen
    return .ok 0 0
  | name :: rest => do
    let e ← get
    let db := trimMatches '`' (ObjectName.toString name)
    if e.databases.containsKey db then
      set { e with databases := e.databases.remove db }
      dropDatabases ifExists rest
    else if ifExists then dropDatabases ifExists rest
    else return .err 1049 (unknownDatabase db)

-- ---------------------------------------------------------------------------
-- DESCRIBE, SHOW COLUMNS, SHOW CREATE TABLE
-- ---------------------------------------------------------------------------

/-- The type of a column in DESCRIBE and SHOW. -/
def ColumnType.display : ColumnType → Str
  | .int => "int"
  | .bigInt => "bigint"
  | .float => "double"
  | .varChar n => "varchar(" ++ natToString n.toNat ++ ")"
  | .text => "text"
  | .blob => "blob"
  | .timestamp => "timestamp"

def describeColumn (c : Column) : TextRow :=
  [some c.name, some c.colType.display, some (if c.nullable then "YES" else "NO"),
    some (if c.primaryKey then "PRI" else ""), none,
    some (if c.primaryKey then "auto_increment" else "")]

def describeColumnFull (c : Column) : TextRow :=
  [some c.name, some c.colType.display,
    if c.colType.isStr then some "utf8mb4_general_ci" else none,
    some (if c.nullable then "YES" else "NO"), some (if c.primaryKey then "PRI" else ""), none,
    some (if c.primaryKey then "auto_increment" else ""), some "select,insert,update,references",
    some ""]

/-- A table read by a statement that changes nothing. -/
def readTable (currentDb : Option Str) (name : ObjectName) (show_ : Str → Table → QueryResult) :
    EngineM QueryResult := do
  let e ← get
  let (db, table) := resolveName (dbOrTest currentDb) (ObjectName.toString name)
  match findTable e.databases db table "Unknown database" "Table not found" with
  | .error other => return other
  | .ok t => return show_ table t

def explainTable (_name : Str) (t : Table) : QueryResult :=
  .rows ["Field", "Type", "Null", "Key", "Default", "Extra"] (t.columns.map describeColumn)

def showColumns (full : Bool) (_name : Str) (t : Table) : QueryResult :=
  if full then
    .rows ["Field", "Type", "Collation", "Null", "Key", "Default", "Extra", "Privileges", "Comment"]
      (t.columns.map describeColumnFull)
  else .rows ["Field", "Type", "Null", "Key", "Default", "Extra"] (t.columns.map describeColumn)

def showCreateTable (name : Str) (t : Table) : QueryResult :=
  let colDef (c : Column) : Str :=
    "  `" ++ c.name ++ "` " ++ c.colType.display ++ (if c.nullable then "" else " NOT NULL") ++
      (if c.primaryKey then " PRIMARY KEY" else "")
  let ddl : Str := "CREATE TABLE `" ++ name ++ "` (\n" ++ join ",\n" (t.columns.map colDef) ++
    "\n) ENGINE=RunAlexDB"
  .rows ["Table", "Create Table"] [[some name, some ddl]]

-- ---------------------------------------------------------------------------
-- exec_stmt
-- ---------------------------------------------------------------------------

def execStmt (now : Nat) (currentDb : Option Str) : Statement → EngineM QueryResult
  | .createDatabase dbName => createDatabase (ObjectName.toString dbName)
  | .createTable create =>
    match create.query with
    | some query => createTableAs now (dbOrTest currentDb) create query
    | none => createTable (dbOrTest currentDb) create.name create.columns create.ifNotExists
  | .insert ins =>
    insert now (dbOrTest currentDb) ins.table.toString ins.source ins.replaceInto
      (ins.columns.map Ident.value)
  | .query q => runQuery now (dbOrTest currentDb) q
  | .drop objectType names ifExists =>
    match objectType with
    | .table => dropTables (dbOrTest currentDb) ifExists names
    | .database | .schema => dropDatabases ifExists names
    | .other _ => return .ok 0 0
  | .update table assignments selection =>
    update now (dbOrTest currentDb) table.relation.toString assignments selection
  | .delete del => delete now (dbOrTest currentDb) del.tableName del.selection
  | .use _ => return .ok 0 0
  | .truncate tableNames => truncate currentDb tableNames
  | .explainTable tableName => readTable currentDb tableName explainTable
  | .showColumns full parentName =>
    match parentName with
    | some name => readTable currentDb name (showColumns full)
    | none => return .err 1295 "SHOW COLUMNS requires FROM table_name"
  | .showCreate objType objName =>
    match objType with
    | .table => readTable currentDb objName showCreateTable
    | .other _ => return .err 1295 "SHOW CREATE only supported for TABLE"
  | .alterTable name operations => alter currentDb name operations
  | .other _ => return .err 1295 "Statement not yet supported"

end RunAlexDb
