import RunAlexDb.Model.Execute

/-!
# Dump — `dump_sql` and `restore_sql`

The text dump of the user databases and the line-based restore, which ignores
the result of every statement.
-/

namespace RunAlexDb

open Text Platform

variable [Platform]

-- ---------------------------------------------------------------------------
-- dump_sql
-- ---------------------------------------------------------------------------

/-- Databases a dump leaves out. -/
def systemDbs : List Str := ["information_schema", "performance_schema", "mysql", "sys", "test"]

/-- The type of a column in a dump. -/
def ColumnType.ddl : ColumnType → Str
  | .int => "INT"
  | .bigInt => "BIGINT"
  | .float => "DOUBLE"
  | .varChar n => "VARCHAR(" ++ natToString n.toNat ++ ")"
  | .text => "TEXT"
  | .blob => "BLOB"
  | .timestamp => "TIMESTAMP"

/-- A name between backticks, as it is. -/
def backticked (name : Str) : Str := '`' :: name ++ ['`']

def dumpColumn (c : Column) : Str :=
  "  " ++ backticked c.name ++ " " ++ c.colType.ddl ++ (if c.primaryKey then " PRIMARY KEY" else "")

/-- A value as a literal: backslashes and quotes of a text escaped. -/
def dumpValue : Value → Str
  | .null => "NULL"
  | .int i => i64ToString i
  | .float f => f64ToString f
  | .text s => '\'' :: replaceChar '\'' "\\'" (replaceChar '\\' "\\\\" s) ++ ['\'']
  | .bytes b => "X'" ++ hexEncode b ++ ['\'']

def dumpRow (row : Row) : Str := "  (" ++ join ", " (row.map dumpValue) ++ ")"

def dumpCreate (name : Str) (t : Table) : Str :=
  "CREATE TABLE IF NOT EXISTS " ++ backticked name ++ " (\n" ++
    join ",\n" (t.columns.map dumpColumn) ++ "\n);\n\n"

def dumpInsert (name : Str) (t : Table) : Str :=
  "INSERT INTO " ++ backticked name ++ " (" ++
    join ", " (t.columns.map fun c => backticked c.name) ++ ") VALUES\n" ++
    join ",\n" (t.rows.map dumpRow) ++ ";\n\n"

def dumpTable (name : Str) (t : Table) : Str :=
  dumpCreate name t ++ (if t.rows.isEmpty then [] else dumpInsert name t)

def dumpDatabase (name : Str) (d : Database) : Str :=
  "CREATE DATABASE IF NOT EXISTS " ++ backticked name ++ ";\n" ++
    "USE " ++ backticked name ++ ";\n\n" ++
    (d.tables.entries.map fun t => dumpTable t.1 t.2).flatten

/-- `dump_sql` at time `ts`. -/
def Engine.dumpSql (e : Engine) (ts : Nat) : Str :=
  "-- RunAlexDB SQL dump\n" ++ "-- Generated: unix_ts=" ++ natToString ts ++ "\n\n" ++
    ((e.databases.entries.filter fun d => !systemDbs.contains d.1).map fun d =>
      dumpDatabase d.1 d.2).flatten

-- ---------------------------------------------------------------------------
-- restore_sql
-- ---------------------------------------------------------------------------

/-- One statement of a dump. USE is taken out of the text here. -/
def restoreStatement (now : Nat) (currentDb : Option Str) (stmt : Str) : EngineM (Option Str) := do
  if startsWith (toUppercase stmt) "USE " then
    let rest ← Prog.ofExcept (orPanic (sliceFrom stmt 4))
    return some (trimMatches '`' (trimEndMatches (· == ';') (trim rest)))
  else
    let _ ← execute now stmt currentDb "root"
    return currentDb

/-- The lines from here on, with the database and the lines of the statement
read so far. -/
def restoreLines (now : Nat) : Option Str → Str → List Str → EngineM Unit
  | _, _, [] => pure ()
  | currentDb, batch, line :: rest => do
    let line := trim line
    if startsWith line "--" || line.isEmpty then restoreLines now currentDb batch rest
    else
      let batch := batch ++ line ++ " "
      if endsWith line ";" then
        let currentDb ← restoreStatement now currentDb (trim batch)
        restoreLines now currentDb [] rest
      else restoreLines now currentDb batch rest

def restoreSql (now : Nat) (dump : Str) : EngineM Unit := restoreLines now none [] (lines dump)

end RunAlexDb
