import RunAlexDb.Lib.Map
import RunAlexDb.Lib.Text

/-!
# IcmpGuard — the lock file of the ICMP protection

The processes of a machine that set the protection up and tear it down, and the
lock file they share. Every access to the file is a step of its own; the steps of
all processes interleave as they like. Of the firewall commands only the outcome
counts.
-/

namespace RunAlexDb

open Text

-- ---------------------------------------------------------------------------
-- The lock file
-- ---------------------------------------------------------------------------

/-- `str::parse::<u32>`. -/
def parseU32 (s : Str) : Option UInt32 :=
  let digits := match s with
    | '+' :: r => r
    | r => r
  (parseNat digits).bind fun n => if n < 2 ^ 32 then some (UInt32.ofNat n) else none

/-- The pid that a lock file names. -/
def lockPid (content : Str) : Option UInt32 :=
  parseU32 (trim (((split ':' content)[1]?).getD []))

/-- `lock_is_held`, for what reading the file gave and whether `/proc/{pid}` exists. -/
def lockIsHeld (content : Option Str) (exists_ : UInt32 → Bool) : Bool :=
  match content with
  | none => false
  | some content =>
    match lockPid content with
    | none => false
    | some pid => exists_ pid

/-- What `write_lock` writes. -/
def lockContent (pid : UInt32) : Str := "runnginx:" ++ natToString pid.toNat ++ "\n"

/-- A write at the start of a file. -/
def overwrite (content new : Str) : Str := new ++ content.drop new.length

/-- The file behind the path, by the number it was created with. -/
structure LockFile where
  inode : Nat
  content : Str
deriving DecidableEq, Repr

/-- The path, and how many files have been created there. -/
structure LockPath where
  file : Option LockFile
  created : Nat
deriving DecidableEq, Repr

namespace LockPath

def content (p : LockPath) : Option Str := p.file.map LockFile.content

/-- `OpenOptions::new().write(true).create(true).truncate(true).open`: the file of
the path, now empty, and its number. -/
def truncate (p : LockPath) : LockPath × Nat :=
  match p.file with
  | some file => ({ p with file := some ⟨file.inode, []⟩ }, file.inode)
  | none => (⟨some ⟨p.created, []⟩, p.created + 1⟩, p.created)

/-- A write to an open file; it is lost when the path has another file by now, or none. -/
def write (p : LockPath) (inode : Nat) (new : Str) : LockPath :=
  { p with
    file := p.file.map fun file =>
      if file.inode = inode then { file with content := overwrite file.content new } else file }

/-- `fs::remove_file`. -/
def removeFile (p : LockPath) : LockPath := { p with file := none }

end LockPath

-- ---------------------------------------------------------------------------
-- The guard
-- ---------------------------------------------------------------------------

inductive Backend
  | iptables | nftables | none
deriving DecidableEq, Repr

structure IcmpGuard where
  isOwner : Bool
  backend : Backend
  enabled : Bool
deriving DecidableEq, Repr

/-- `detect_backend`, for what `which` finds. -/
def detectBackend (nft iptables : Bool) : Backend :=
  if nft then .nftables else if iptables then .iptables else .none

/-- `apply_rules`, for the outcome of the commands for the two rules: the second
runs when the first has succeeded. -/
def applyRules (backend : Backend) (accept drop : Bool) : Bool :=
  match backend with
  | .iptables => accept && drop
  | .nftables => accept && drop
  | .none => true

/-- Where a process is. -/
inductive GuardPhase
  /-- Without a guard. -/
  | running
  /-- In `setup`, before the lock file. -/
  | entered
  /-- With what reading the lock file gave. -/
  | read (content : Option Str)
  /-- The lock was not held. -/
  | free
  | detected (backend : Backend)
  | applied (backend : Backend)
  /-- In `write_lock`, the file open. -/
  | opened (backend : Backend) (inode : Nat)
  /-- With the guard that `setup` returned. -/
  | guarded (guard : IcmpGuard)
  /-- In `teardown`, the rules removed. -/
  | unruled (guard : IcmpGuard)
  /-- In `teardown`, the lock file removed. -/
  | unlocked (guard : IcmpGuard)
deriving DecidableEq, Repr

/-- The guard a process has, up to the end of its drop. -/
def GuardPhase.guard : GuardPhase → Option IcmpGuard
  | .guarded g => some g
  | .unruled g => some g
  | .unlocked g => some g
  | _ => none

/-- Between `lock_is_held` and the end of `write_lock`. -/
def GuardPhase.setsUp : GuardPhase → Bool
  | .free => true
  | .detected _ => true
  | .applied _ => true
  | .opened _ _ => true
  | _ => false

/-- Between the removal of the lock file and the end of the drop. -/
def GuardPhase.leaves : GuardPhase → Bool
  | .unlocked _ => true
  | _ => false

-- ---------------------------------------------------------------------------
-- Processes
-- ---------------------------------------------------------------------------

/-- What a process does, with the outcome where it is not up to the process. -/
inductive GuardAction
  /-- The process starts. -/
  | start
  /-- It ends, by a signal or through `exit`; its guard is not dropped. -/
  | exit
  | setup (enabled : Bool)
  /-- `read_to_string`. -/
  | readLock (ok : Bool)
  /-- The look at `/proc/{pid}`. -/
  | checkPid
  | detect (nft iptables : Bool)
  | apply (accept drop : Bool)
  | openLock (ok : Bool)
  /-- `write_all`, up to this many bytes. -/
  | writeLock (bytes : Nat)
  | removeRules
  | removeLock (ok : Bool)
  /-- The end of the drop. -/
  | dropped
deriving DecidableEq, Repr

structure GuardStep where
  pid : UInt32
  action : GuardAction
deriving DecidableEq, Repr

/-- The live processes and the lock file. -/
structure Processes where
  path : LockPath
  procs : HashMap UInt32 GuardPhase
deriving DecidableEq

namespace Processes

/-- `/proc/{pid}` exists. -/
def live (w : Processes) (pid : UInt32) : Bool := w.procs.containsKey pid

/-- A step of process `pid` in its phase: the phase and the path after it, none when
the step is not its next. -/
def next (w : Processes) (pid : UInt32) : GuardPhase → GuardAction → Option (GuardPhase × LockPath)
  | .running, .setup enabled =>
    some (if enabled then .entered else .guarded ⟨false, .none, false⟩, w.path)
  | .entered, .readLock ok => some (.read (if ok then w.path.content else none), w.path)
  | .read content, .checkPid =>
    some (if lockIsHeld content w.live then .guarded ⟨false, .none, true⟩ else .free, w.path)
  | .free, .detect nft iptables =>
    let backend := detectBackend nft iptables
    some (if backend = .none then .guarded ⟨false, .none, true⟩ else .detected backend, w.path)
  | .detected backend, .apply accept drop =>
    some (if applyRules backend accept drop then .applied backend
      else .guarded ⟨false, .none, true⟩, w.path)
  | .applied backend, .openLock ok =>
    some (if ok then (.opened backend w.path.truncate.2, w.path.truncate.1)
      else (.guarded ⟨true, backend, true⟩, w.path))
  | .opened backend inode, .writeLock bytes =>
    some (.guarded ⟨true, backend, true⟩, w.path.write inode ((lockContent pid).take bytes))
  | .guarded g, .removeRules => if g.isOwner then some (.unruled g, w.path) else none
  | .unruled g, .removeLock ok => some (.unlocked g, if ok then w.path.removeFile else w.path)
  | .unlocked _, .dropped => some (.running, w.path)
  | .guarded g, .dropped => if g.isOwner then none else some (.running, w.path)
  | _, _ => none

/-- One step; a step that is not the process's next does nothing. -/
def step (w : Processes) (l : GuardStep) : Processes :=
  match w.procs.get l.pid with
  | none => if l.action = .start then { w with procs := w.procs.insert l.pid .running } else w
  | some phase =>
    if l.action = .exit then { w with procs := w.procs.remove l.pid }
    else
      match w.next l.pid phase l.action with
      | none => w
      | some r => ⟨r.2, w.procs.insert l.pid r.1⟩

/-- A process that is alive has a guard with `is_owner`. -/
def owns (w : Processes) (pid : UInt32) : Prop :=
  ∃ phase g, w.procs.get pid = some phase ∧ phase.guard = some g ∧ g.isOwner = true

/-- No process, and a lock file that may be there from before. -/
def start (content : Option Str) : Processes where
  path := ⟨content.map fun c => ⟨0, c⟩, 1⟩
  procs := HashMap.empty

end Processes

end RunAlexDb
