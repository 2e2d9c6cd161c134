import RunAlexDb.Model.Concrete
import RunAlexDb.Statement.Runs

/-!
# Interception — texts that never reach the parser

`execute` holds the upper-cased text against some forty beginnings, whole texts
and names before it parses. The tests know nothing of SQL: a name counts inside
a string literal, and a beginning inside a longer word.

Main result: `carriesOut_iff`.
-/

set_option linter.unusedSectionVars false

namespace RunAlexDb

open Text Platform
open Prog (Returns)

-- ---------------------------------------------------------------------------
-- The tests
-- ---------------------------------------------------------------------------

/-- Texts that are answered as they stand. -/
def builtinTexts : List Str :=
  [("SELECT 1" : Str), ("SELECT 1;" : Str), ("SELECT USER FROM MYSQL.USER" : Str), ("BEGIN" : Str),
    ("COMMIT" : Str), ("ROLLBACK" : Str), ("ROLLBACK;" : Str), ("COMMIT;" : Str)]

/-- Texts that are answered with any number of semicolons behind. -/
def builtinBareTexts : List Str :=
  [("SELECT DATABASE()" : Str), ("SELECT SCHEMA()" : Str), ("SELECT DATABASE() AS DATABASE()" : Str)]

/-- Beginnings that are answered whatever follows. -/
def builtinPrefixes : List Str :=
  [("SELECT VERSION" : Str), ("CREATE USER" : Str), ("DROP USER" : Str), ("GRANT " : Str),
    ("REVOKE " : Str), ("SHOW GRANTS" : Str), ("SHOW USERS" : Str), ("SHOW DATABASES" : Str),
    ("SHOW TABLES" : Str), ("SELECT @@" : Str), ("SELECT LAST_INSERT_ID()" : Str), ("SET " : Str),
    ("SHOW CREATE DATABASE" : Str), ("SHOW CREATE SCHEMA" : Str), ("SHOW VARIABLES" : Str),
    ("SHOW SESSION VARIABLES" : Str), ("SHOW PROCESSLIST" : Str), ("SHOW FULL PROCESSLIST" : Str),
    ("SHOW WARNINGS" : Str), ("SHOW ERRORS" : Str), ("SHOW INDEX" : Str), ("SHOW INDEXES" : Str),
    ("SHOW KEYS" : Str), ("SHOW STATUS" : Str), ("SHOW GLOBAL STATUS" : Str)]

/-- Names that are answered wherever they stand. -/
def builtinNames : List Str :=
  [("INFORMATION_SCHEMA.TABLES" : Str), ("INFORMATION_SCHEMA.`TABLES`" : Str),
    ("INFORMATION_SCHEMA.COLUMNS" : Str), ("INFORMATION_SCHEMA.`COLUMNS`" : Str),
    ("INFORMATION_SCHEMA.KEY_COLUMN_USAGE" : Str), ("INFORMATION_SCHEMA.STATISTICS" : Str),
    ("INFORMATION_SCHEMA.SCHEMATA" : Str)]

/-- A trimmed, upper-cased text that none of the tests is about. -/
structure Ordinary (u : Str) : Prop where
  text : u ∉ builtinTexts
  bareText : trimEndMatches (· == ';') u ∉ builtinBareTexts
  start : ∀ p ∈ builtinPrefixes, startsWith u p = false
  names : ∀ p ∈ builtinNames, contains u p = false

theorem ite_some_eq_none {α : Type} {c : Prop} [Decidable c] {a : α} {o : Option α} :
    (if c then some a else o) = none ↔ ¬c ∧ o = none := by
  split <;> simp_all

theorem shortcutOf_eq_none_iff (u : Str) : shortcutOf u = none ↔ Ordinary u := by
  constructor
  · intro h
    simp only [shortcutOf, ite_some_eq_none, not_or, Bool.not_eq_true] at h
    obtain ⟨⟨hOne, hOne'⟩, hVersion, ⟨hDb, hSchema, hAlias⟩, hCreate, hDrop, hGrant, hRevoke, hGrants,
      ⟨hUsers, hUser⟩, hDbs, hTables, hSysvar, hLast,
      ⟨hSet, hBegin, hCommit, hRollback, hRollback', hCommit'⟩, ⟨hInfo, hInfo'⟩, ⟨hCols, hCols'⟩,
      hUsage, hStats, hSchemata, ⟨hCreateDb, hCreateSchema⟩, ⟨hVars, hVars'⟩, ⟨hProcs, hProcs'⟩,
      ⟨hWarnings, hErrors⟩, ⟨hIndex, hIndexes, hKeys⟩, ⟨hStatus, hStatus'⟩, -⟩ := h
    refine ⟨?_, ?_, ?_, ?_⟩
    · simp only [builtinTexts, List.mem_cons, List.not_mem_nil, or_false, not_or]
      exact ⟨hOne, hOne', hUser, hBegin, hCommit, hRollback, hRollback', hCommit'⟩
    · simp only [builtinBareTexts, List.mem_cons, List.not_mem_nil, or_false, not_or]
      exact ⟨hDb, hSchema, hAlias⟩
    · simp only [builtinPrefixes, List.forall_mem_cons]
      exact ⟨hVersion, hCreate, hDrop, hGrant, hRevoke, hGrants, hUsers, hDbs, hTables, hSysvar, hLast,
        hSet, hCreateDb, hCreateSchema, hVars, hVars', hProcs, hProcs', hWarnings, hErrors, hIndex,
        hIndexes, hKeys, hStatus, hStatus', fun p hp => absurd hp List.not_mem_nil⟩
    · simp only [builtinNames, List.forall_mem_cons]
      exact ⟨hInfo, hInfo', hCols, hCols', hUsage, hStats, hSchemata,
        fun p hp => absurd hp List.not_mem_nil⟩
  · rintro ⟨hText, hBare, hStart, hNames⟩
    simp only [builtinTexts, List.mem_cons, List.not_mem_nil, or_false, not_or] at hText
    simp only [builtinBareTexts, List.mem_cons, List.not_mem_nil, or_false, not_or] at hBare
    simp only [builtinPrefixes, List.forall_mem_cons] at hStart
    simp only [builtinNames, List.forall_mem_cons] at hNames
    obtain ⟨hOne, hOne', hUser, hBegin, hCommit, hRollback, hRollback', hCommit'⟩ := hText
    obtain ⟨hVersion, hCreate, hDrop, hGrant, hRevoke, hGrants, hUsers, hDbs, hTables, hSysvar, hLast,
      hSet, hCreateDb, hCreateSchema, hVars, hVars', hProcs, hProcs', hWarnings, hErrors, hIndex,
      hIndexes, hKeys, hStatus, hStatus', -⟩ := hStart
    obtain ⟨hInfo, hInfo', hCols, hCols', hUsage, hStats, hSchemata, -⟩ := hNames
    simp only [shortcutOf, ite_some_eq_none, not_or, Bool.not_eq_true]
    exact ⟨⟨hOne, hOne'⟩, hVersion, hBare, hCreate, hDrop, hGrant, hRevoke, hGrants, ⟨hUsers, hUser⟩,
      hDbs, hTables, hSysvar, hLast, ⟨hSet, hBegin, hCommit, hRollback, hRollback', hCommit'⟩,
      ⟨hInfo, hInfo'⟩, ⟨hCols, hCols'⟩, hUsage, hStats, hSchemata, ⟨hCreateDb, hCreateSchema⟩,
      ⟨hVars, hVars'⟩, ⟨hProcs, hProcs'⟩, ⟨hWarnings, hErrors⟩, ⟨hIndex, hIndexes, hKeys⟩,
      ⟨hStatus, hStatus'⟩, trivial⟩

section Interception

variable [Platform]

-- ---------------------------------------------------------------------------
-- Executing what was parsed
-- ---------------------------------------------------------------------------

/-- What `execute` does with a text once it is parsed: the user's rights, then
the statements. -/
def carryOut (now : Nat) (sql : Str) (currentDb : Option Str) (userName : Str)
    (stmts : List Statement) (e : Engine) : Except Fault QueryResult × Engine :=
  match privilegeCheck e.users userName currentDb stmts with
  | some refusal => (.ok refusal, e.parsed sql)
  | none => (execBatch now currentDb (.ok 0 0) stmts).exec (e.parsed sql)

/-- `execute` gives the result and leaves the databases of the statement. -/
def CarriesOut (sql : Str) (stmt : Statement) : Prop :=
  ∀ now currentDb userName e, parseAnswer e sql = .ok [stmt] →
    ((execute now sql currentDb userName).exec e).1 = (carryOut now sql currentDb userName [stmt] e).1 ∧
      ((execute now sql currentDb userName).exec e).2.databases =
        (carryOut now sql currentDb userName [stmt] e).2.databases

/-- A text that the cache does not have is parsed. -/
theorem parseAnswer_uncached {e : Engine} {sql : Str} (h : e.stmtCache.get (hashQuery sql) = none) :
    parseAnswer e sql = directParse sql := by
  rw [parseAnswer, h, directParse]

/-- A text that reaches the parser is carried out, the state it leaves
included. -/
theorem exec_execute_ordinary {sql : Str} (h : Ordinary (toUppercase (trim sql))) (now : Nat)
    (currentDb : Option Str) (userName : Str) {e : Engine} {stmts : List Statement}
    (hParse : parseAnswer e sql = .ok stmts) :
    (execute now sql currentDb userName).exec e = carryOut now sql currentDb userName stmts e := by
  rw [exec_execute_parsed ((shortcutOf_eq_none_iff _).2 h), hParse]
  rfl

/-- A text that does not reach the parser changes no database, whatever it
says. -/
theorem databases_of_not_ordinary {sql : Str} (h : ¬Ordinary (toUppercase (trim sql))) (now : Nat)
    (currentDb : Option Str) (userName : Str) (e : Engine) :
    ((execute now sql currentDb userName).exec e).2.databases = e.databases := by
  cases hShort : shortcutOf (toUppercase (trim sql)) with
  | none => exact absurd ((shortcutOf_eq_none_iff _).1 hShort) h
  | some s =>
    rw [exec_execute_shortcut hShort]
    exact (usersOnly_execShortcut _ _ _ s e).databases

-- ---------------------------------------------------------------------------
-- What the shortcuts answer
-- ---------------------------------------------------------------------------

/-- Rows, OK for no row, or an error of the account statements. -/
def BuiltinAnswer : QueryResult → Prop
  | .ok affected lastInsertId => affected = 0 ∧ lastInsertId = 0
  | .err code _ => code = 1064 ∨ code = 1141 ∨ code = 1396
  | _ => True

theorem builtin_rows (columns : List Str) (rows : List TextRow) :
    BuiltinAnswer (.rows columns rows) := trivial

theorem builtin_ok : BuiltinAnswer (.ok 0 0) := ⟨rfl, rfl⟩

theorem builtin_malformed (message : Str) : BuiltinAnswer (.err 1064 message) := .inl rfl

theorem builtin_unknown (message : Str) : BuiltinAnswer (.err 1141 message) := .inr (.inl rfl)

theorem builtin_failed (message : Str) : BuiltinAnswer (.err 1396 message) := .inr (.inr rfl)

theorem builtin_onUsers {f : HashMap Str DbUser → QueryResult × HashMap Str DbUser}
    (h : ∀ users, BuiltinAnswer (f users).1) : Returns BuiltinAnswer (onUsers f) := by
  intro e r hExec
  rw [onUsers, Prog.exec_mk] at hExec
  cases hExec
  exact h e.users

theorem builtin_execCreateUser (sql : Str) : Returns BuiltinAnswer (execCreateUser sql) :=
  Returns.bind fun args => builtin_onUsers fun users => by
    split
    · exact builtin_malformed _
    · split
      · exact builtin_failed _
      · split
        · exact builtin_failed _
        · exact builtin_ok

theorem builtin_execDropUser (sql : Str) : Returns BuiltinAnswer (execDropUser sql) :=
  Returns.bind fun username => builtin_onUsers fun users => by
    split
    · exact builtin_failed _
    · split
      · exact builtin_ok
      · exact builtin_failed _

theorem builtin_execGrant (sql : Str) : Returns BuiltinAnswer (execGrant sql) := by
  rw [execGrant]
  split
  · exact fun e r hExec => by cases hExec
  · exact Returns.pure (builtin_malformed _)

theorem builtin_execRevoke (sql : Str) : Returns BuiltinAnswer (execRevoke sql) := by
  rw [execRevoke]
  split
  · exact Returns.pure (builtin_malformed _)
  · refine Returns.bind fun args => fun e r hExec => ?_
    rw [Prog.exec_bind, onUsers, Prog.exec_mk] at hExec
    simp only at hExec
    rw [exec_bumpIfOk] at hExec
    cases hExec
    split
    · exact builtin_ok
    · exact builtin_failed _

theorem builtin_execShowGrants (sql : Str) : Returns BuiltinAnswer (execShowGrants sql) :=
  Returns.bind fun forUser => Returns.bind fun e => Returns.pure (by
    rw [showGrants]
    split
    · exact builtin_unknown _
    · exact builtin_rows _ _)

theorem builtin_execSelectSysvar (sql : Str) :
    Returns BuiltinAnswer (Prog.ofExcept (execSelectSysvar sql) : EngineM QueryResult) := by
  rw [execSelectSysvar]
  split
  · exact Returns.ofExcept_bind fun items => Returns.ofExcept_bind fun cells =>
      Returns.ofExcept_pure (builtin_rows _ _)
  · exact Returns.ofExcept_bind fun items => Returns.ofExcept_bind fun cells =>
      Returns.ofExcept_pure (builtin_rows _ _)

theorem builtin_showIndex (databases : HashMap Str Database) (currentDb : Option Str) (sql : Str) :
    Returns BuiltinAnswer (Prog.ofExcept (showIndex databases currentDb sql) : EngineM QueryResult) := by
  simp only [showIndex]
  split
  · exact Returns.ofExcept_pure (builtin_rows _ _)
  · split
    · exact Returns.ofExcept_pure (builtin_rows _ _)
    · exact Returns.ofExcept_bind fun c => Returns.ofExcept_pure (builtin_rows _ _)

theorem builtin_execShortcut (sql u : Str) (currentDb : Option Str) (s : Shortcut) :
    Returns BuiltinAnswer (execShortcut sql u currentDb s) := by
  have hRows : ∀ columns rows, Returns BuiltinAnswer (pure (.rows columns rows) : EngineM QueryResult) :=
    fun columns rows => Returns.pure (builtin_rows columns rows)
  cases s with
  | selectOne => exact hRows _ _
  | selectVersion => exact hRows _ _
  | selectDatabase => exact hRows _ _
  | createUser => exact builtin_execCreateUser _
  | dropUser => exact builtin_execDropUser _
  | grant => exact builtin_execGrant _
  | revoke => exact builtin_execRevoke _
  | showGrants => exact builtin_execShowGrants _
  | showUsers => exact Returns.bind fun e => hRows _ _
  | showDatabases => exact Returns.bind fun e => hRows _ _
  | showTables =>
    refine Returns.bind fun e => Returns.pure ?_
    rw [showTables]
    split
    · exact builtin_rows _ _
    · exact builtin_ok
  | selectSysvar => exact builtin_execSelectSysvar _
  | lastInsertId => exact Returns.bind fun e => hRows _ _
  | ignored => exact Returns.pure (builtin_ok)
  | infoTables => exact Returns.bind fun e => hRows _ _
  | infoColumns => exact Returns.bind fun e => hRows _ _
  | infoKeyColumnUsage =>
    exact Returns.bind fun e => Returns.ofExcept_bind fun rows =>
      Returns.ofExcept_pure (builtin_rows _ _)
  | infoStatistics =>
    exact Returns.bind fun e => Returns.ofExcept_bind fun rows =>
      Returns.ofExcept_pure (builtin_rows _ _)
  | infoSchemata => exact Returns.bind fun e => hRows _ _
  | showCreateDatabase =>
    exact Returns.ofExcept_bind fun tail => Returns.ofExcept_pure (builtin_rows _ _)
  | showVariables => exact hRows _ _
  | showProcesslist => exact hRows _ _
  | showWarnings => exact hRows _ _
  | showIndex => exact Returns.bind fun e => builtin_showIndex _ _ _
  | showStatus => exact hRows _ _

-- ---------------------------------------------------------------------------
-- Which texts are carried out
-- ---------------------------------------------------------------------------

/-- An engine with one user, who may use no database. -/
def lockedEngine : Engine where
  databases := HashMap.empty
  users := HashMap.ofList [([], newUser [])]
  writeGen := 0
  lastInsertId := 0
  stmtCache := HashMap.empty

/-- **Interception.** A text that the parser takes for one statement is carried
out by `execute`, whoever sends it in whatever state, exactly when it is none of
the built-in texts, has none of the built-in beginnings, and contains none of
the INFORMATION_SCHEMA names, not even inside a literal. -/
theorem carriesOut_iff (sql : Str) (stmt : Statement) (hParse : parseSql sql = .ok [stmt]) :
    CarriesOut sql stmt ↔ Ordinary (toUppercase (trim sql)) := by
  constructor
  · intro h
    cases hShort : shortcutOf (toUppercase (trim sql)) with
    | none => exact (shortcutOf_eq_none_iff _).1 hShort
    | some s =>
      exfalso
      have hAnswer : parseAnswer lockedEngine sql = .ok [stmt] := by
        rw [parseAnswer_uncached rfl, directParse, hParse]
      have hSame := (h 0 (some []) [] lockedEngine hAnswer).1
      have hDenied : (carryOut 0 sql (some []) [] [stmt] lockedEngine).1 =
          .ok (.err 1044 "Access denied for user '' to database ''") := rfl
      rw [exec_execute_shortcut hShort, hDenied] at hSame
      have hCode : 1044 = 1064 ∨ 1044 = 1141 ∨ 1044 = 1396 :=
        builtin_execShortcut _ _ _ _ _ _ hSame
      omega
  · intro h now currentDb userName e hAnswer
    rw [exec_execute_ordinary h now currentDb userName hAnswer]
    exact ⟨rfl, rfl⟩

/-- INSERT, REPLACE, UPDATE, DELETE and SELECT. -/
def Statement.isQueryOrDml : Statement → Bool
  | .insert _ | .update .. | .delete _ | .query _ => true
  | _ => false

end Interception

-- ---------------------------------------------------------------------------
-- A literal that is taken for a table
-- ---------------------------------------------------------------------------

section Literal

set_option maxRecDepth 2000

/-- `INSERT INTO t VALUES ('literal')` -/
def insertText (literal : Str) : Statement :=
  .insert {
    table := .tableName [⟨"t", none⟩], columns := []
    source := some (.mk (.values [[.value (.singleQuotedString literal)]]) none none none)
    replaceInto := false }

/-- `SELECT versions FROM t` -/
def selectVersions : Statement :=
  .query (.mk (.select (.mk none [.unnamedExpr (.identifier ⟨"versions", none⟩)]
    [.mk (.table [⟨"t", none⟩] []) []] none (.expressions []) none)) none none none)

local instance interceptionPlatform : Platform := tablePlatform
  [("CREATE TABLE t (versions TEXT)", [.createTable {
      name := [⟨"t", none⟩], columns := [⟨⟨"versions", none⟩, .text, []⟩], ifNotExists := false
      query := none }]),
    ("INSERT INTO t VALUES ('x')", [insertText "x"]),
    ("INSERT INTO t VALUES ('information_schema.tables')", [insertText "information_schema.tables"]),
    ("SELECT versions FROM t", [selectVersions])]

/-- A new engine after `CREATE TABLE t (versions TEXT)`. -/
def versionsEngine : Engine :=
  ((execute 0 "CREATE TABLE t (versions TEXT)" none "root").exec (Engine.fresh [])).2

theorem carriesOut_iff_insert :
    CarriesOut "INSERT INTO t VALUES ('x')" (insertText "x") ↔
      Ordinary (toUppercase (trim "INSERT INTO t VALUES ('x')")) :=
  carriesOut_iff _ _ rfl

/-- An INSERT whose literal is `information_schema.tables` lists the tables and
inserts nothing. -/
theorem not_carriesOut :
    ¬ ∀ (sql : Str) (stmt : Statement), parseSql sql = .ok [stmt] → stmt.isQueryOrDml = true →
      CarriesOut sql stmt := by
  intro hAll
  have hUncached : (versionsEngine.stmtCache.get
      (hashQuery "INSERT INTO t VALUES ('information_schema.tables')")).isNone = true := by
    decide +kernel
  have hAnswer := parseAnswer_uncached (Option.isNone_iff_eq_none.1 hUncached)
  have hSame := (hAll "INSERT INTO t VALUES ('information_schema.tables')" _ rfl rfl 0 none "root"
    versionsEngine hAnswer).2
  have hRows := congrArg (fun s : Store => (s.get "test").map fun d =>
    (d.tables.get "t").map fun t => t.rows.length) hSame
  revert hRows
  decide +kernel

example : ((execute 0 "SELECT versions FROM t" none "root").exec versionsEngine).1 =
    .ok (.rows ["VERSION()"] [[some "8.0.32-RunAlexDB"]]) := by
  decide +kernel

end Literal

end RunAlexDb
