import RunAlexDb.Model.Auth
import RunAlexDb.Model.Dump

/-!
# Persistence — the dump file over the lives of the server

The checkpoint task dumps the databases into `runalexdb.sql.tmp` and renames it to
`runalexdb.sql`; on a signal the databases are dumped into `runalexdb.sql` itself. The
process may end at any point, and a new one reads the file. A dump reads one database
after the other, under a read lock on the map of the databases.
-/

namespace RunAlexDb

open Text Platform

variable [Platform]

-- ---------------------------------------------------------------------------
-- Start
-- ---------------------------------------------------------------------------

/-- `read_to_string`. -/
def readToString (content : Bytes) : Option Str :=
  if bytes (fromUtf8Lossy content) = content then some (fromUtf8Lossy content) else none

/-- `Engine::new`, for what the dump file holds. -/
def Engine.new (cfg : Config) (now : Nat) (file : Option Bytes) : Rust Engine :=
  match file.bind readToString with
  | none => .ok (Engine.fresh cfg.rootPassword)
  | some sql =>
    let e := (restoreSql now sql).exec (Engine.fresh cfg.rootPassword)
    e.1.map fun _ => e.2

-- ---------------------------------------------------------------------------
-- The two tasks
-- ---------------------------------------------------------------------------

/-- A dump under way: when it began, what it has read, and the databases to come. -/
structure DumpTask where
  ts : Nat
  parts : List (Str × Database)
  todo : List Str

/-- The text of a dump of these databases. -/
def dumpOf (ts : Nat) (parts : List (Str × Database)) : Str :=
  "-- RunAlexDB SQL dump\n" ++ "-- Generated: unix_ts=" ++ natToString ts ++ "\n\n" ++
    (parts.map fun d => dumpDatabase d.1 d.2).flatten

/-- The databases a dump writes. -/
def Engine.userDatabases (e : Engine) : List (Str × Database) :=
  e.databases.entries.filter fun d => !systemDbs.contains d.1

def Engine.beginDump (e : Engine) (ts : Nat) : DumpTask := ⟨ts, [], e.userDatabases.map Prod.fst⟩

/-- The next database is read. -/
def DumpTask.read (d : DumpTask) (e : Engine) : DumpTask :=
  match d.todo with
  | [] => d
  | name :: todo => ⟨d.ts, d.parts ++ ((e.databases.get name).map (name, ·)).toList, todo⟩

/-- `runalexdb.sql` and `runalexdb.sql.tmp`. -/
structure Disk where
  file : Option Bytes
  tmp : Option Bytes
deriving DecidableEq, Repr

inductive CheckpointTask
  | waiting
  | dumping (d : DumpTask)
  /-- `runalexdb.sql.tmp` is being written. -/
  | writing (text : Str)
  | written

inductive ShutdownTask
  | waiting
  | dumping (d : DumpTask)
  /-- `runalexdb.sql` is being written; the open file is still the one of that name. -/
  | writing (text : Str) (inPlace : Bool)
  | exiting

def CheckpointTask.isDumping : CheckpointTask → Bool
  | .dumping _ => true
  | _ => false

def ShutdownTask.isDumping : ShutdownTask → Bool
  | .dumping _ => true
  | _ => false

/-- After a rename to `runalexdb.sql` the file that is open has no name. -/
def ShutdownTask.renamed : ShutdownTask → ShutdownTask
  | .writing text _ => .writing text false
  | t => t

-- ---------------------------------------------------------------------------
-- Lives
-- ---------------------------------------------------------------------------

/-- A process and the disk; without an engine there is no process. -/
structure Life where
  engine : Option Engine
  checkpoint : CheckpointTask
  shutdown : ShutdownTask
  disk : Disk

inductive CheckpointMove
  /-- The interval is over. -/
  | tick (ts : Nat)
  | reads
  /-- The file is created, or cannot be. -/
  | creates (ok : Bool)
  /-- So many bytes are written. -/
  | writes (n : Nat)
  /-- The write ends, with all bytes written or with an error. -/
  | writeEnds (ok : Bool)
  | renames (ok : Bool)
deriving DecidableEq, Repr

inductive ShutdownMove
  /-- SIGTERM or ctrl-c. -/
  | signal (ts : Nat)
  | reads
  | creates (ok : Bool)
  | writes (n : Nat)
  | writeEnds (ok : Bool)
deriving DecidableEq, Repr

inductive LifeMove
  /-- Sessions have worked. -/
  | work (e : Engine)
  | checkpoint (m : CheckpointMove)
  | shutdown (m : ShutdownMove)
  /-- The process ends, by its own exit or not. -/
  | ends
  /-- A process is started. -/
  | starts (now : Nat)

namespace Life

/-- The map of the databases is read-locked. -/
def locked (l : Life) : Bool := l.checkpoint.isDumping || l.shutdown.isDumping

def checkpointStep (l : Life) (e : Engine) : CheckpointMove → Life
  | .tick ts =>
    match l.checkpoint with
    | .waiting => { l with checkpoint := .dumping (e.beginDump ts) }
    | _ => l
  | .reads =>
    match l.checkpoint with
    | .dumping d => { l with checkpoint := .dumping (d.read e) }
    | _ => l
  | .creates ok =>
    match l.checkpoint with
    | .dumping ⟨ts, parts, []⟩ =>
      if ok then { l with checkpoint := .writing (dumpOf ts parts), disk := { l.disk with tmp := some [] } }
      else { l with checkpoint := .waiting }
    | _ => l
  | .writes n =>
    match l.checkpoint with
    | .writing text => { l with disk := { l.disk with tmp := some ((bytes text).take n) } }
    | _ => l
  | .writeEnds ok =>
    match l.checkpoint with
    | .writing text =>
      if ok then { l with checkpoint := .written, disk := { l.disk with tmp := some (bytes text) } }
      else { l with checkpoint := .waiting }
    | _ => l
  | .renames ok =>
    match l.checkpoint with
    | .written =>
      if ok then
        { l with checkpoint := .waiting, shutdown := l.shutdown.renamed, disk := ⟨l.disk.tmp, none⟩ }
      else { l with checkpoint := .waiting }
    | _ => l

def shutdownStep (l : Life) (e : Engine) : ShutdownMove → Life
  | .signal ts =>
    match l.shutdown with
    | .waiting => { l with shutdown := .dumping (e.beginDump ts) }
    | _ => l
  | .reads =>
    match l.shutdown with
    | .dumping d => { l with shutdown := .dumping (d.read e) }
    | _ => l
  | .creates ok =>
    match l.shutdown with
    | .dumping ⟨ts, parts, []⟩ =>
      if ok then { l with shutdown := .writing (dumpOf ts parts) true, disk := { l.disk with file := some [] } }
      else { l with shutdown := .exiting }
    | _ => l
  | .writes n =>
    match l.shutdown with
    | .writing text true => { l with disk := { l.disk with file := some ((bytes text).take n) } }
    | _ => l
  | .writeEnds ok =>
    match l.shutdown with
    | .writing text inPlace =>
      { l with
        shutdown := .exiting
        disk := if ok && inPlace then { l.disk with file := some (bytes text) } else l.disk }
    | _ => l

def step (cfg : Config) (l : Life) (m : LifeMove) : Life :=
  match l.engine, m with
  | _, .ends => ⟨none, .waiting, .waiting, l.disk⟩
  | none, .starts now => { l with engine := (Engine.new cfg now l.disk.file).toOption }
  | none, _ => l
  | some _, .starts _ => l
  -- work that changes which databases there are waits for the dumps
  | some e, .work e' =>
    if l.locked && e'.databases.keys ≠ e.databases.keys then l else { l with engine := some e' }
  | some e, .checkpoint m => l.checkpointStep e m
  | some e, .shutdown m => l.shutdownStep e m

end Life

end RunAlexDb
