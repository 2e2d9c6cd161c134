import RunAlexDb.Model.Prepared
import RunAlexDb.Model.Users

/-!
# Execute — `Engine::execute` and `Engine::execute_prepared`

A statement text is first held against the texts the engine answers without
parsing (`shortcutOf`), in the order of the source; the rest is parsed, checked
against the user's rights and executed statement by statement.
-/

namespace RunAlexDb

open Text Platform

variable [Platform]

-- ---------------------------------------------------------------------------
-- Dispatch by text
-- ---------------------------------------------------------------------------

/-- The kinds of text that are answered without parsing. -/
inductive Shortcut
  | selectOne | selectVersion | selectDatabase
  | createUser | dropUser | grant | revoke | showGrants | showUsers
  | showDatabases | showTables | selectSysvar | lastInsertId | ignored
  | infoTables | infoColumns | infoKeyColumnUsage | infoStatistics | infoSchemata
  | showCreateDatabase | showVariables | showProcesslist | showWarnings | showIndex | showStatus
deriving DecidableEq, Repr

/-- The first shortcut a trimmed, upper-cased text matches. -/
def shortcutOf (u : Str) : Option Shortcut :=
  let bare := trimEndMatches (· == ';') u
  if u = "SELECT 1" ∨ u = "SELECT 1;" then some .selectOne
  else if startsWith u "SELECT VERSION" then some .selectVersion
  else if bare = "SELECT DATABASE()" ∨ bare = "SELECT SCHEMA()" ∨
      bare = "SELECT DATABASE() AS DATABASE()" then some .selectDatabase
  else if startsWith u "CREATE USER" then some .createUser
  else if startsWith u "DROP USER" then some .dropUser
  else if startsWith u "GRANT " then some .grant
  else if startsWith u "REVOKE " then some .revoke
  else if startsWith u "SHOW GRANTS" then some .showGrants
  else if startsWith u "SHOW USERS" ∨ u = "SELECT USER FROM MYSQL.USER" then some .showUsers
  else if startsWith u "SHOW DATABASES" then some .showDatabases
  else if startsWith u "SHOW TABLES" then some .showTables
  else if startsWith u "SELECT @@" then some .selectSysvar
  else if startsWith u "SELECT LAST_INSERT_ID()" then some .lastInsertId
  else if startsWith u "SET " ∨ u = "BEGIN" ∨ u = "COMMIT" ∨ u = "ROLLBACK" ∨ u = "ROLLBACK;" ∨
      u = "COMMIT;" then some .ignored
  else if contains u "INFORMATION_SCHEMA.TABLES" ∨ contains u "INFORMATION_SCHEMA.`TABLES`" then
    some .infoTables
  else if contains u "INFORMATION_SCHEMA.COLUMNS" ∨ contains u "INFORMATION_SCHEMA.`COLUMNS`" then
    some .infoColumns
  else if contains u "INFORMATION_SCHEMA.KEY_COLUMN_USAGE" then some .infoKeyColumnUsage
  else if contains u "INFORMATION_SCHEMA.STATISTICS" then some .infoStatistics
  else if contains u "INFORMATION_SCHEMA.SCHEMATA" then some .infoSchemata
  else if startsWith u "SHOW CREATE DATABASE" ∨ startsWith u "SHOW CREATE SCHEMA" then
    some .showCreateDatabase
  else if startsWith u "SHOW VARIABLES" ∨ startsWith u "SHOW SESSION VARIABLES" then
    some .showVariables
  else if startsWith u "SHOW PROCESSLIST" ∨ startsWith u "SHOW FULL PROCESSLIST" then
    some .showProcesslist
  else if startsWith u "SHOW WARNINGS" ∨ startsWith u "SHOW ERRORS" then some .showWarnings
  else if startsWith u "SHOW INDEX" ∨ startsWith u "SHOW INDEXES" ∨ startsWith u "SHOW KEYS" then
    some .showIndex
  else if startsWith u "SHOW STATUS" ∨ startsWith u "SHOW GLOBAL STATUS" then some .showStatus
  else none

-- ---------------------------------------------------------------------------
-- Session variables
-- ---------------------------------------------------------------------------

def sysvarValue (name : Str) : Option Str :=
  let bare := trimStartPat "global." (trimStartPat "session."
    (trimStartMatches (· == '@') (toLowercase name)))
  match String.ofList bare with
  | "max_allowed_packet" => some "67108864"
  | "character_set_client" => some "utf8mb4"
  | "character_set_connection" => some "utf8mb4"
  | "character_set_results" => some "utf8mb4"
  | "character_set_server" => some "utf8mb4"
  | "collation_connection" => some "utf8mb4_general_ci"
  | "collation_server" => some "utf8mb4_general_ci"
  | "time_zone" => some "UTC"
  | "sql_mode" => some "STRICT_TRANS_TABLES"
  | "auto_increment_increment" => some "1"
  | "transaction_isolation" => some "REPEATABLE-READ"
  | "tx_isolation" => some "REPEATABLE-READ"
  | "lower_case_table_names" => some "0"
  | "version" => some "8.0.32-RunAlexDB"
  | "version_comment" => some "RunAlexDB"
  | "wait_timeout" => some "28800"
  | "interactive_timeout" => some "28800"
  | "net_write_timeout" => some "60"
  | "net_read_timeout" => some "30"
  | "init_connect" => some ""
  | _ => none

/-- Label and value of one item of `SELECT @@..`. -/
def sysvarItem (part : Str) : Rust (Str × Str) := do
  let part := trim part
  let (var, label) ← match find (toUppercase part) " AS " with
    | some idx => do
      let v := trim (← orPanic (sliceTo part idx))
      let a := trim (← orPanic (sliceFrom part (idx + 4)))
      pure (v, trimMatches '\'' (trimMatches '`' a))
    | none => pure (part, trimMatches '`' part)
  return (label, (sysvarValue (trim var)).getD (trim var))

def execSelectSysvar (sql : Str) : Rust QueryResult := do
  let items ← match find (toUppercase sql) "SELECT " with
    | some pos => orPanic (sliceFrom sql (pos + 7))
    | none => pure sql
  let cells ← (split ',' items).mapM sysvarItem
  return .rows (cells.map Prod.fst) [cells.map fun c => some c.2]

-- ---------------------------------------------------------------------------
-- SHOW and INFORMATION_SCHEMA
-- ---------------------------------------------------------------------------

/-- Databases that SHOW DATABASES and SCHEMATA list. -/
def isListed (name : Str) : Bool :=
  !startsWith name "information_schema" && !startsWith name "performance_schema" &&
    name != ("mysql" : Str) && name != ("sys" : Str)

def showTables (databases : HashMap Str Database) (currentDb : Option Str) : QueryResult :=
  match databases.get (dbOrTest currentDb) with
  | some d => .rows ["Tables"] (d.tables.keys.map fun n => [some n])
  | none => .ok 0 0

/-- The value after a column name of the WHERE clause: up to a quote, or to
whatever else ends it. -/
def filterValue (ends : Char → Bool) (rest : Str) : Option Str :=
  let raw := trimStartMatches (· == '"') (trimStartMatches (· == '\'') rest)
  let val := before (fun c => c == '\'' || c == '"' || ends c) raw
  if val.isEmpty then none else some (toLowercase val)

/-- `key = 'value'` in an upper-cased text. -/
def whereFilter (key u : Str) : Option Str :=
  (after key u).bind fun rest =>
    filterValue (· == ' ') (trimStartMatches (fun c => isWhitespace c || c == '=') rest)

/-- The first TABLE_NAME that is followed by `=`. -/
def tableNameFilter (u : Str) : Option Str := go u.length u
where
  go : Nat → Str → Option Str
    | 0, _ => none
    | n + 1, u =>
      match after "TABLE_NAME" u with
      | none => none
      | some rest =>
        match trimStart rest with
        | '=' :: rest => filterValue (fun _ => false) (trimStart rest)
        | _ => go n rest

/-- A filter lets everything through when there is none. -/
def passes (filter : Option Str) (name : Str) : Bool :=
  filter.elim true fun f => eqIgnoreAsciiCase name f

/-- The tables the INFORMATION_SCHEMA answers go over. -/
def infoEntries (databases : HashMap Str Database) (schema table : Option Str) :
    List (Str × Str × Table) :=
  (databases.entries.filter fun d =>
    !startsWith d.1 "information_schema" && !startsWith d.1 "performance_schema" &&
      passes schema d.1).flatMap fun d =>
    (d.2.tables.entries.filter fun t => passes table t.1).map fun t => (d.1, t.1, t.2)

def infoTablesRow (x : Str × Str × Table) : TextRow :=
  [some "def", some x.1, some x.2.1, some "BASE TABLE", some "RunAlexDB", some "10",
    some "Dynamic", some (natToString x.2.2.rows.length), some "0", some "0", some "0", some "0",
    some "0", x.2.2.pkColIdx.map fun _ => i64ToString x.2.2.nextAuto, none, none, none,
    some "utf8mb4_general_ci", none, some "", some ""]

def infoTables (databases : HashMap Str Database) (u : Str) : QueryResult :=
  .rows ["TABLE_CATALOG", "TABLE_SCHEMA", "TABLE_NAME", "TABLE_TYPE", "ENGINE", "VERSION",
      "ROW_FORMAT", "TABLE_ROWS", "AVG_ROW_LENGTH", "DATA_LENGTH", "MAX_DATA_LENGTH",
      "INDEX_LENGTH", "DATA_FREE", "AUTO_INCREMENT", "CREATE_TIME", "UPDATE_TIME", "CHECK_TIME",
      "TABLE_COLLATION", "CHECKSUM", "CREATE_OPTIONS", "TABLE_COMMENT"]
    ((infoEntries databases (whereFilter "TABLE_SCHEMA" u) (tableNameFilter u)).map infoTablesRow)

/-- Data type, maximal length and precision of a column type. -/
def infoType : ColumnType → Str × Option Str × Option Str
  | .int => ("int", none, some "10")
  | .bigInt => ("bigint", none, some "20")
  | .float => ("double", none, some "22")
  | .varChar n => ("varchar", some (natToString n.toNat), none)
  | .text => ("text", some "65535", none)
  | .blob => ("blob", some "65535", none)
  | .timestamp => ("timestamp", none, none)

def infoColumnsRows (x : Str × Str × Table) : List TextRow :=
  x.2.2.columns.mapIdx fun pos c =>
    let (dataType, charMax, numPrec) := infoType c.colType
    [some "def", some x.1, some x.2.1, some c.name, some (natToString (pos + 1)), none,
      some (if c.nullable then "YES" else "NO"), some dataType, charMax, numPrec,
      some c.colType.display, some (if c.primaryKey then "PRI" else ""),
      some (if c.primaryKey then "auto_increment" else ""),
      some "select,insert,update,references", some ""]

def infoColumns (databases : HashMap Str Database) (u : Str) : QueryResult :=
  .rows ["TABLE_CATALOG", "TABLE_SCHEMA", "TABLE_NAME", "COLUMN_NAME", "ORDINAL_POSITION",
      "COLUMN_DEFAULT", "IS_NULLABLE", "DATA_TYPE", "CHARACTER_MAXIMUM_LENGTH",
      "NUMERIC_PRECISION", "COLUMN_TYPE", "COLUMN_KEY", "EXTRA", "PRIVILEGES", "COLUMN_COMMENT"]
    ((infoEntries databases (whereFilter "TABLE_SCHEMA" u) (whereFilter "TABLE_NAME" u)).flatMap
      infoColumnsRows)

/-- One row for each table with a primary key. -/
def infoKeyRows (entries : List (Str × Str × Table)) (row : Str × Str × Table → Str → TextRow) :
    Rust (List TextRow) :=
  (entries.filterMap fun x => x.2.2.pkColIdx.map fun p => (x, p)).mapM fun (x, p) => do
    let c ← orPanic x.2.2.columns[p]?
    return row x c.name

def infoKeyColumnUsage (databases : HashMap Str Database) (u : Str) : Rust QueryResult := do
  let rows ← infoKeyRows (infoEntries databases (whereFilter "TABLE_SCHEMA" u) none) fun x col =>
    [some "def", some x.1, some "PRIMARY", some "def", some x.1, some x.2.1, some col, some "1",
      none, none, none, none]
  return .rows ["CONSTRAINT_CATALOG", "CONSTRAINT_SCHEMA", "CONSTRAINT_NAME", "TABLE_CATALOG",
    "TABLE_SCHEMA", "TABLE_NAME", "COLUMN_NAME", "ORDINAL_POSITION",
    "POSITION_IN_UNIQUE_CONSTRAINT", "REFERENCED_TABLE_SCHEMA", "REFERENCED_TABLE_NAME",
    "REFERENCED_COLUMN_NAME"] rows

def infoStatistics (databases : HashMap Str Database) (u : Str) : Rust QueryResult := do
  let rows ← infoKeyRows (infoEntries databases (whereFilter "TABLE_SCHEMA" u) none) fun x col =>
    [some "def", some x.1, some x.2.1, some "0", some x.1, some "PRIMARY", some "1", some col,
      some "A", some (natToString x.2.2.rows.length), none, none, some "", some "BTREE", some "",
      some ""]
  return .rows ["TABLE_CATALOG", "TABLE_SCHEMA", "TABLE_NAME", "NON_UNIQUE", "INDEX_SCHEMA",
    "INDEX_NAME", "SEQ_IN_INDEX", "COLUMN_NAME", "COLLATION", "CARDINALITY", "SUB_PART", "PACKED",
    "NULLABLE", "INDEX_TYPE", "COMMENT", "INDEX_COMMENT"] rows

def infoSchemata (databases : HashMap Str Database) : QueryResult :=
  .rows ["CATALOG_NAME", "SCHEMA_NAME", "DEFAULT_CHARACTER_SET_NAME", "DEFAULT_COLLATION_NAME"]
    ((databases.keys.filter isListed).map fun n =>
      [some "def", some n, some "utf8mb4", some "utf8mb4_0900_ai_ci"])

/-- SHOW CREATE DATABASE: the name is cut from the untrimmed text. -/
def showCreateDatabase (sql u : Str) : Rust QueryResult := do
  let tail ← orPanic (sliceFrom sql (if startsWith u "SHOW CREATE DATABASE" then 20 else 19))
  let name := trimMatches '`' (trim tail)
  return .rows ["Database", "Create Database"] [[some name,
    some ("CREATE DATABASE `" ++ name ++ "` /*!40100 DEFAULT CHARACTER SET utf8mb4 */")]]

def showVariables : QueryResult :=
  .rows ["Variable_name", "Value"]
    [[some "character_set_client", some "utf8mb4"], [some "character_set_connection", some "utf8mb4"],
      [some "character_set_results", some "utf8mb4"],
      [some "collation_connection", some "utf8mb4_0900_ai_ci"],
      [some "max_allowed_packet", some "67108864"], [some "net_write_timeout", some "60"],
      [some "interactive_timeout", some "28800"], [some "wait_timeout", some "28800"],
      [some "sql_mode", some "STRICT_TRANS_TABLES"]]

/-- The table SHOW INDEX is about, as the text names it. -/
def showIndexName (sql : Str) : Str :=
  let rest := (trimStart sql).dropWhile fun c => !isWhitespace c
  let rest := trimStart (trimStartPat "KEYS" (trimStartPat "INDEX" (trimStartPat "INDEXES"
    (trimStart rest))))
  let rest := trimStart (trimStartPat "from" (trimStartPat "FROM" rest))
  trimMatches '`' ((splitWhitespace rest).headD [])

def showIndex (databases : HashMap Str Database) (currentDb : Option Str) (sql : Str) :
    Rust QueryResult := do
  let (db, table) := resolveName (dbOrTest currentDb) (showIndexName sql)
  let rows ← match findTable databases db table [] [] with
    | .error _ => pure []
    | .ok t =>
      match t.pkColIdx with
      | none => pure []
      | some p => do
        let c ← orPanic t.columns[p]?
        pure [[some table, some "0", some "PRIMARY", some "1", some c.name, some "A",
          some (natToString t.rows.length), none, none, some "", some "BTREE", some "", some "",
          some "YES"]]
  return .rows ["Table", "Non_unique", "Key_name", "Seq_in_index", "Column_name", "Collation",
    "Cardinality", "Sub_part", "Packed", "Null", "Index_type", "Comment", "Index_comment",
    "Visible"] rows

-- ---------------------------------------------------------------------------
-- Shortcuts
-- ---------------------------------------------------------------------------

def execShortcut (sql u : Str) (currentDb : Option Str) : Shortcut → EngineM QueryResult
  | .selectOne => return .rows ["1"] [[some "1"]]
  | .selectVersion => return .rows ["VERSION()"] [[some "8.0.32-RunAlexDB"]]
  | .selectDatabase =>
    let db := currentDb.getD []
    return .rows [if contains u "SCHEMA" then "SCHEMA()" else "DATABASE()"]
      [[if db.isEmpty then none else some db]]
  | .createUser => execCreateUser (trim sql)
  | .dropUser => execDropUser (trim sql)
  | .grant => execGrant (trim sql)
  | .revoke => execRevoke (trim sql)
  | .showGrants => execShowGrants (trim sql)
  | .showUsers => do
    let e ← get
    return .rows ["User"] (e.users.keys.map fun n => [some n])
  | .showDatabases => do
    let e ← get
    return .rows ["Database"] ((e.databases.keys.filter isListed).map fun n => [some n])
  | .showTables => do
    let e ← get
    return showTables e.databases currentDb
  | .selectSysvar => Prog.ofExcept (execSelectSysvar (trim sql))
  | .lastInsertId => do
    let e ← get
    return .rows ["LAST_INSERT_ID()"] [[some (natToString e.lastInsertId.toNat)]]
  | .ignored => return .ok 0 0
  | .infoTables => do
    let e ← get
    return infoTables e.databases u
  | .infoColumns => do
    let e ← get
    return infoColumns e.databases u
  | .infoKeyColumnUsage => do
    let e ← get
    Prog.ofExcept (infoKeyColumnUsage e.databases u)
  | .infoStatistics => do
    let e ← get
    Prog.ofExcept (infoStatistics e.databases u)
  | .infoSchemata => do
    let e ← get
    return infoSchemata e.databases
  | .showCreateDatabase => Prog.ofExcept (showCreateDatabase sql u)
  | .showVariables => return showVariables
  | .showProcesslist =>
    return .rows ["Id", "User", "Host", "db", "Command", "Time", "State", "Info"] []
  | .showWarnings => return .rows ["Level", "Code", "Message"] []
  | .showIndex => do
    let e ← get
    Prog.ofExcept (showIndex e.databases currentDb sql)
  | .showStatus =>
    return .rows ["Variable_name", "Value"]
      [[some "Uptime", some "0"], [some "Threads_connected", some "1"]]

-- ---------------------------------------------------------------------------
-- Parsing and rights
-- ---------------------------------------------------------------------------

/-- Parsed statements of a text, from the cache when its hash is there. -/
def parseCached (sql : Str) : EngineM (Except Str (List Statement)) := do
  let e ← get
  let key := hashQuery sql
  match e.stmtCache.get key with
  | some stmts => return .ok stmts
  | none =>
    match parseSql sql with
    | .error msg => return .error ("Parse error: " ++ msg)
    | .ok stmts =>
      let cache := if 8192 < e.stmtCache.size then HashMap.empty else e.stmtCache
      set { e with stmtCache := cache.insert key stmts }
      return .ok stmts

/-- The statement kinds that need the write privilege. -/
def Statement.needsWrite : Statement → Bool
  | .insert _ => true
  | .update .. => true
  | .delete _ => true
  | .createTable _ => true
  | .createDatabase _ => true
  | .drop .. => true
  | _ => false

/-- The refusal of a batch, for a user of the table. -/
def privilegeCheck (users : HashMap Str DbUser) (userName : Str) (currentDb : Option Str)
    (stmts : List Statement) : Option QueryResult :=
  match users.get userName with
  | none => none
  | some user =>
    let denied : Option Str := currentDb.bind fun db =>
      user.allowedDbs.bind fun allowed => if HashSet.contains allowed db then none else some db
    match denied with
    | some db =>
      some (.err 1044 ("Access denied for user '" ++ userName ++ "' to database '" ++ db ++ "'"))
    | none =>
      if !user.canWrite && stmts.any Statement.needsWrite then
        some (.err 1142 "Command denied to user (no write privilege)")
      else none

-- ---------------------------------------------------------------------------
-- execute
-- ---------------------------------------------------------------------------

/-- The database a statement of a batch works in: USE moves it. -/
def Statement.effDb (effDb : Option Str) : Statement → Option Str
  | .use (.object name) => some (trimMatches '`' (ObjectName.toString name))
  | _ => effDb

/-- The statements of a batch, one after the other; the result is the last one. -/
def execBatch (now : Nat) : Option Str → QueryResult → List Statement → EngineM QueryResult
  | _, last, [] => pure last
  | effDb, _, stmt :: rest => do
    let r ← execStmt now (stmt.effDb effDb) stmt
    let last ← bumpIfOk r
    execBatch now (stmt.effDb effDb) last rest

/-- `Engine::execute`. -/
def execute (now : Nat) (sql : Str) (currentDb : Option Str) (userName : Str) :
    EngineM QueryResult := do
  let u := toUppercase (trim sql)
  match shortcutOf u with
  | some s => execShortcut sql u currentDb s
  | none =>
    match ← parseCached sql with
    | .error e => return .err 1064 e
    | .ok stmts =>
      let e ← get
      match privilegeCheck e.users userName currentDb stmts with
      | some refusal => return refusal
      | none => execBatch now currentDb (.ok 0 0) stmts

-- ---------------------------------------------------------------------------
-- execute_prepared
-- ---------------------------------------------------------------------------

/-- A bound parameter as a value. -/
def bindParam : Option Str → Value := retype

def execBatchPrepared (now : Nat) (bound : List Value) (currentDb : Option Str) :
    QueryResult → List Statement → EngineM QueryResult
  | last, [] => pure last
  | _, stmt :: rest => do
    let last ← execStmtPrepared now bound currentDb stmt
    execBatchPrepared now bound currentDb last rest

/-- `Engine::execute_prepared`. -/
def executePrepared (now : Nat) (sql : Str) (params : List (Option Str)) (currentDb : Option Str)
    (userName : Str) : EngineM QueryResult := do
  match ← parseCached sql with
  | .error e => return .err 1064 e
  | .ok stmts =>
    let e ← get
    match privilegeCheck e.users userName currentDb stmts with
    | some refusal => return refusal
    | none => execBatchPrepared now (params.map bindParam) currentDb (.ok 0 0) stmts

-- ---------------------------------------------------------------------------
-- Engine::new and snapshots
-- ---------------------------------------------------------------------------

/-- The engine `Engine::new` builds before it loads persisted data. -/
def Engine.fresh (rootPassword : Str) : Engine where
  databases := HashMap.ofList
    (["information_schema", "performance_schema", "mysql", "sys", "test"].map fun (n : String) =>
      (n.toList, ⟨n.toList, HashMap.empty⟩))
  users := HashMap.ofList [(("root" : Str), {
    passwordSha1Sha1 := doubleSha1 (bytes rootPassword)
    allowedDbs := none
    canWrite := true
    isRoot := true })]
  writeGen := 0
  lastInsertId := 0
  stmtCache := HashMap.empty

/-- The tables of every database. -/
abbrev Snapshot := HashMap Str (HashMap Str Table)

def Engine.takeSnapshot (e : Engine) : Snapshot := e.databases.mapValues fun _ d => d.tables

/-- Write a snapshot back: the tables of every database it has and that is
still there. -/
def Engine.restoreSnapshot (e : Engine) (snap : Snapshot) : Engine :=
  { e with
    databases := e.databases.mapValues fun n d => { d with tables := (snap.get n).getD d.tables }
    writeGen := e.writeGen + 1 }

end RunAlexDb
