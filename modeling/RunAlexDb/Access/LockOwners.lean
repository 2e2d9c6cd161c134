import RunAlexDb.Lib.Exclusion
import RunAlexDb.Lib.Trace
import RunAlexDb.Lib.Words
import RunAlexDb.Model.IcmpGuard

/-!
# LockOwners — how many processes own the ICMP protection

A process is a party of `Exclusion`: it claims from the end of `lock_is_held` to
the end of `write_lock`, holds until it removes the lock file and leaves until its
guard is dropped. The lock file is the record. Two processes own the protection
only when one takes the lock for free while another does, or on an outdated
reading, or over a guard that is not dropped yet, or when a lock file could not be
written.

Main result: `at_most_one_owner`.
-/

set_option linter.unusedSectionVars false

namespace RunAlexDb

open Text Exclusion

-- ---------------------------------------------------------------------------
-- What a lock file says
-- ---------------------------------------------------------------------------

/-- A digit is no blank, no sign, no colon. -/
theorem isDigit_table {c : Char} (h : c.isDigit = true) :
    isWhitespace c = false ∧ c ≠ ':' ∧ c ≠ '+' := by
  refine ⟨?_, ?_, ?_⟩
  · unfold Char.isDigit at h
    unfold isWhitespace
    rw [Bool.and_eq_true, decide_eq_true_eq, decide_eq_true_eq] at h
    have hLow : 48 ≤ c.toNat := h.1
    have hHigh : c.toNat ≤ 57 := h.2
    simp only [Bool.or_eq_false_iff, Bool.and_eq_false_iff, decide_eq_false_iff_not, beq_eq_false_iff_ne]
    omega
  · rintro rfl
    revert h
    decide
  · rintro rfl
    revert h
    decide

theorem trim_line {s : Str} (h : Trimmed s) (hSome : s ≠ []) : trim (s ++ ['\n']) = s := by
  unfold trim trimStart trimStartMatches
  rw [dropWhile_head, trimEnd, trimEndMatches, List.reverse_append]
  · show ((('\n' : Char) :: s.reverse).dropWhile isWhitespace).reverse = s
    rw [List.dropWhile_cons_of_pos (by decide), dropWhile_head, List.reverse_reverse]
    rw [List.head?_reverse]
    exact h.last
  · rw [List.head?_append_of_ne_nil _ hSome]
    exact h.head

/-- **Round trip.** A lock file names the process that wrote it. -/
theorem lockPid_lockContent (pid : UInt32) : lockPid (lockContent pid) = some pid := by
  have hDigit : ∀ c ∈ natToString pid.toNat, c.isDigit = true := fun c hc => isDigit_natToString hc
  have hSome : natToString pid.toNat ≠ [] := Nat.toDigits_ne_nil
  have hTrimmed : Trimmed (natToString pid.toNat) :=
    ⟨fun c hc => (isDigit_table (hDigit c (List.mem_of_mem_head? hc))).1,
      fun c hc => (isDigit_table (hDigit c (List.mem_of_mem_getLast? hc))).1⟩
  have hSplit : split ':' (lockContent pid) = [("runnginx" : Str), natToString pid.toNat ++ ['\n']] := by
    have hText : lockContent pid = ("runnginx" : Str) ++ ':' :: (natToString pid.toNat ++ ['\n']) := rfl
    have hNoColon : ∀ c ∈ natToString pid.toNat ++ ['\n'], (c == ':') = false := by
      intro c hc
      rcases List.mem_append.1 hc with hNumber | hLine
      · exact beq_eq_false_iff_ne.2 (isDigit_table (hDigit c hNumber)).2.1
      · rw [List.mem_singleton.1 hLine]
        decide
    have hName : ∀ c ∈ ("runnginx" : Str), (c == ':') = false := by
      intro c hc
      have hAll : ("runnginx" : Str).all (fun c => !(c == ':')) = true := by decide
      exact by simpa using List.all_eq_true.1 hAll c hc
    unfold split
    rw [hText, List.splitOnP_append_cons_of_forall_mem hName ':' rfl,
      List.splitOnP_eq_singleton hNoColon]
  unfold lockPid
  rw [hSplit]
  show parseU32 (trim (natToString pid.toNat ++ ['\n'])) = some pid
  rw [trim_line hTrimmed hSome]
  obtain ⟨c, r, hText, -, hPlus⟩ := natToString_cons pid.toNat
  have hParse := parseNat_natToString pid.toNat
  rw [hText] at hParse ⊢
  unfold parseU32
  split
  · exact absurd (List.cons.inj ‹_›).1 hPlus
  · dsimp only
    rw [hParse, Option.bind_some, if_pos pid.toNat_lt, UInt32.ofNat_toNat]
-- ---------------------------------------------------------------------------
-- Orderly steps
-- ---------------------------------------------------------------------------

namespace Processes

/-- No other process is in such a phase. -/
def noOther (w : Processes) (pid : UInt32) (f : GuardPhase → Bool) : Bool :=
  w.procs.entries.all fun p => decide (p.1 = pid) || !f p.2

/-- A process takes the lock for free when it is, and nobody else is setting up;
`write_lock` succeeds, and no other guard is in its drop when it does. -/
def orderly (w : Processes) (l : GuardStep) : Bool :=
  match w.procs.get l.pid, l.action with
  | some (.read content), .checkPid =>
    lockIsHeld content w.live ||
      (!lockIsHeld w.path.content w.live && w.noOther l.pid GuardPhase.setsUp)
  | some (.applied _), .openLock ok => ok
  | some (.opened _ _), .writeLock bytes =>
    decide ((lockContent l.pid).length ≤ bytes) && w.noOther l.pid GuardPhase.leaves
  | _, _ => true

theorem noOther_iff {w : Processes} {pid : UInt32} {f : GuardPhase → Bool} :
    w.noOther pid f = true ↔ ∀ q phase, w.procs.get q = some phase → q ≠ pid → f phase = false := by
  unfold noOther
  rw [List.all_eq_true]
  constructor
  · intro h q phase hGet hNe
    have hEntry := h (q, phase) (HashMap.get_eq_some_iff.1 hGet)
    simpa [hNe] using hEntry
  · rintro h ⟨q, phase⟩ hIn
    have hOther := h q phase (HashMap.get_eq_some_iff.2 hIn)
    by_cases hNe : q = pid
    · simp [hNe]
    · simp [hOther hNe]

-- ---------------------------------------------------------------------------
-- Processes as parties
-- ---------------------------------------------------------------------------

end Processes

def GuardPhase.role : GuardPhase → Role
  | .free => .claiming
  | .detected _ => .claiming
  | .applied _ => .claiming
  | .opened _ _ => .claiming
  | .guarded g => if g.isOwner then .holding else .out
  | .unruled _ => .holding
  | .unlocked _ => .leaving
  | _ => .out

theorem GuardPhase.role_owner {g : IcmpGuard} (h : g.isOwner = true) :
    (GuardPhase.guarded g).role = .holding := if_pos h

theorem GuardPhase.role_guarded (g : IcmpGuard) :
    (GuardPhase.guarded g).role = .holding ∨ (GuardPhase.guarded g).role = .out := by
  by_cases hOwner : g.isOwner = true
  · exact .inl (role_owner hOwner)
  · exact .inr (if_neg hOwner)

theorem GuardPhase.setsUp_of_role {phase : GuardPhase} (h : phase.role = .claiming) :
    phase.setsUp = true := by
  rcases phase with _ | _ | _ | _ | _ | _ | _ | g | _ | _
  case guarded =>
    rcases role_guarded g with hRole | hRole <;> exact Role.noConfusion (hRole.symm.trans h)
  all_goals first | rfl | cases h

theorem GuardPhase.leaves_of_role {phase : GuardPhase} (h : phase.role = .leaving) :
    phase.leaves = true := by
  rcases phase with _ | _ | _ | _ | _ | _ | _ | g | _ | _
  case guarded =>
    rcases role_guarded g with hRole | hRole <;> exact Role.noConfusion (hRole.symm.trans h)
  all_goals first | rfl | cases h

namespace Processes

def roleOf (w : Processes) (pid : UInt32) : Role :=
  match w.procs.get pid with
  | none => .out
  | some phase => phase.role

/-- What the lock file says. -/
def record (path : LockPath) : Option UInt32 := path.content.bind lockPid

def parties (w : Processes) : Exclusion.State UInt32 := ⟨w.roleOf, record w.path⟩

theorem roleOf_get {w : Processes} {pid : UInt32} {phase : GuardPhase}
    (h : w.procs.get pid = some phase) : w.roleOf pid = phase.role := by
  unfold roleOf
  rw [h]

theorem roleOf_none {w : Processes} {pid : UInt32} (h : w.procs.get pid = none) :
    w.roleOf pid = .out := by
  unfold roleOf
  rw [h]

/-- A process that owns the protection has the right, as a party. -/
theorem possesses_of_owns {w : Processes} {pid : UInt32} (h : w.owns pid) :
    (w.parties.role pid).possesses := by
  obtain ⟨phase, g, hGet, hGuard, hOwner⟩ := h
  show (w.roleOf pid).possesses
  rw [roleOf_get hGet]
  unfold GuardPhase.guard at hGuard
  split at hGuard
  · obtain rfl := Option.some.inj hGuard
    exact .inl (GuardPhase.role_owner hOwner)
  · exact .inl rfl
  · exact .inr rfl
  · cases hGuard

/-- One process in another phase is one party in another role. -/
theorem parties_insert (w : Processes) (pid : UInt32) (phase : GuardPhase) (path : LockPath) :
    Processes.parties ⟨path, w.procs.insert pid phase⟩ =
      w.parties.move pid phase.role (record path) := by
  unfold parties Exclusion.State.move
  congr 1
  funext q
  unfold roleOf
  rw [HashMap.get_insert]
  by_cases hq : q = pid
  · rw [if_pos hq, hq, Function.update_self]
  · rw [if_neg hq, Function.update_of_ne hq]

theorem parties_remove (w : Processes) (pid : UInt32) :
    Processes.parties ⟨w.path, w.procs.remove pid⟩ = w.parties.move pid .out w.parties.record := by
  unfold parties Exclusion.State.move
  congr 1
  funext q
  unfold roleOf
  rw [HashMap.get_remove]
  by_cases hq : q = pid
  · rw [if_pos hq, hq, Function.update_self]
  · rw [if_neg hq, Function.update_of_ne hq]

theorem live_of_get {w : Processes} {pid : UInt32} {phase : GuardPhase}
    (h : w.procs.get pid = some phase) : w.live pid = true := by
  unfold live HashMap.containsKey
  rw [h]
  rfl

/-- A lock that is not held names nobody who has a role. -/
theorem out_of_not_held {w : Processes} (h : lockIsHeld w.path.content w.live = false) {q : UInt32}
    (hRecord : record w.path = some q) : w.roleOf q = .out := by
  obtain ⟨content, hContent, hPid⟩ := Option.bind_eq_some_iff.1 hRecord
  unfold lockIsHeld at h
  rw [hContent] at h
  simp only [hPid] at h
  refine roleOf_none ?_
  rcases hGet : w.procs.get q with _ | phase
  · rfl
  · rw [live_of_get hGet] at h
    cases h

-- ---------------------------------------------------------------------------
-- Invariants
-- ---------------------------------------------------------------------------

/-- The parties exclude each other, and a process that has the lock file open has
the one at the path, still empty. -/
structure Ordered (w : Processes) : Prop where
  exclusive : Exclusive w.parties
  opened : ∀ pid backend inode, w.procs.get pid = some (.opened backend inode) →
    w.path.file = some ⟨inode, []⟩

theorem content_truncate (path : LockPath) :
    path.truncate.1.file = some ⟨path.truncate.2, []⟩ := by
  unfold LockPath.truncate
  split <;> rfl

/-- A whole write into the empty file leaves the name of the writer. -/
theorem record_write {path : LockPath} {inode : Nat} (h : path.file = some ⟨inode, []⟩) {pid : UInt32}
    {bytes : Nat} (hWhole : (lockContent pid).length ≤ bytes) :
    record (path.write inode ((lockContent pid).take bytes)) = some pid := by
  have hFile : (path.write inode ((lockContent pid).take bytes)).file = some ⟨inode, lockContent pid⟩ := by
    unfold LockPath.write overwrite
    rw [h, List.take_of_length_le hWhole]
    simp
  unfold record LockPath.content
  rw [hFile]
  exact lockPid_lockContent pid

/-- **A process's step, as a party.** -/
theorem next_parties {w : Processes} (h : w.Ordered) {pid : UInt32} {phase : GuardPhase}
    {a : GuardAction} (hGet : w.procs.get pid = some phase) {r : GuardPhase × LockPath}
    (hNext : w.next pid phase a = some r) (hOk : w.orderly ⟨pid, a⟩ = true) :
    r.1.role = phase.role ∧ record r.2 = record w.path ∨
      Exclusion.Step w.parties (w.parties.move pid r.1.role (record r.2)) := by
  have hRole := roleOf_get hGet
  unfold orderly at hOk
  simp only [hGet] at hOk
  unfold next at hNext
  split at hNext
  · -- setup
    obtain rfl := Option.some.inj hNext
    refine .inl ⟨?_, rfl⟩
    dsimp only
    split <;> rfl
  · -- the lock file is read
    obtain rfl := Option.some.inj hNext
    exact .inl ⟨rfl, rfl⟩
  · -- the pid is checked: the lock is held, or the process claims
    rename_i content
    obtain rfl := Option.some.inj hNext
    by_cases hHeld : lockIsHeld content w.live = true
    · refine .inl ⟨?_, rfl⟩
      dsimp only
      rw [if_pos hHeld]
      rfl
    · rw [Bool.not_eq_true] at hHeld
      simp only [hHeld, Bool.false_or, Bool.and_eq_true, Bool.not_eq_true'] at hOk
      obtain ⟨hFree, hAlone⟩ := hOk
      rw [noOther_iff] at hAlone
      refine .inr ?_
      simp only [hHeld, Bool.false_eq_true, if_false]
      refine .claim pid (fun q hq hHolds => ?_) (fun q hq hClaims => ?_)
      · have hOut := out_of_not_held hFree hq
        exact Role.noConfusion (hOut.symm.trans hHolds)
      · rcases hGetQ : w.procs.get q with _ | phase
        · exact Role.noConfusion ((roleOf_none hGetQ).symm.trans hClaims)
        · have hSets := hAlone q phase hGetQ hq
          have hRoleQ : phase.role = .claiming := (roleOf_get hGetQ).symm.trans hClaims
          rw [GuardPhase.setsUp_of_role hRoleQ] at hSets
          cases hSets
  · -- the backend is looked for
    obtain rfl := Option.some.inj hNext
    dsimp only
    split
    · exact .inr (.leave pid)
    · exact .inl ⟨rfl, rfl⟩
  · -- the rules are applied
    obtain rfl := Option.some.inj hNext
    dsimp only
    split
    · exact .inl ⟨rfl, rfl⟩
    · exact .inr (.leave pid)
  · -- the lock file is opened
    obtain rfl := Option.some.inj hNext
    simp only at hOk
    simp only [hOk, if_true]
    have hNone : record w.path.truncate.1 = none := by
      have hEmpty : lockPid [] = none := by decide
      unfold record LockPath.content
      rw [content_truncate]
      exact hEmpty
    rw [hNone]
    exact .inr (.wipe pid hRole)
  · -- the lock file is written
    rename_i backend inode bytes
    obtain rfl := Option.some.inj hNext
    simp only [Bool.and_eq_true, decide_eq_true_eq] at hOk
    obtain ⟨hWhole, hGone⟩ := hOk
    rw [noOther_iff] at hGone
    dsimp only
    rw [record_write (h.opened pid backend inode hGet) hWhole]
    refine .inr (.take pid hRole fun q hq hLeaves => ?_)
    rcases hGetQ : w.procs.get q with _ | phase
    · exact Role.noConfusion ((roleOf_none hGetQ).symm.trans hLeaves)
    · have hLeaving := hGone q phase hGetQ hq
      have hRoleQ : phase.role = .leaving := (roleOf_get hGetQ).symm.trans hLeaves
      rw [GuardPhase.leaves_of_role hRoleQ] at hLeaving
      cases hLeaving
  · -- the rules are removed
    rename_i g
    split_ifs at hNext with hOwner
    obtain rfl := Option.some.inj hNext
    exact .inl ⟨(GuardPhase.role_owner hOwner).symm, rfl⟩
  · -- the lock file is removed
    obtain rfl := Option.some.inj hNext
    exact .inr (.release pid _ hRole)
  · -- the guard is gone
    obtain rfl := Option.some.inj hNext
    exact .inr (.leave pid)
  · -- a guard without the protection is gone
    split_ifs at hNext with hOwner
    obtain rfl := Option.some.inj hNext
    exact .inr (.leave pid)
  · cases hNext

/-- A step leaves the path, or is one of a process that claims or holds. -/
theorem next_path {w : Processes} {pid : UInt32} {phase : GuardPhase} {a : GuardAction}
    {r : GuardPhase × LockPath} (hNext : w.next pid phase a = some r) :
    r.2 = w.path ∨ phase.role = .claiming ∨ phase.role = .holding := by
  unfold next at hNext
  split at hNext
  case h_6 => exact .inr (.inl rfl)
  case h_7 => exact .inr (.inl rfl)
  case h_9 => exact .inr (.inr rfl)
  case h_1 | h_2 | h_3 | h_4 | h_5 | h_10 =>
    obtain rfl := Option.some.inj hNext
    exact .inl rfl
  case h_8 | h_11 =>
    split_ifs at hNext
    obtain rfl := Option.some.inj hNext
    exact .inl rfl
  case h_12 => cases hNext

/-- A process that has just opened the lock file. -/
theorem next_opened {w : Processes} {pid : UInt32} {phase : GuardPhase} {a : GuardAction}
    {r : GuardPhase × LockPath} (hNext : w.next pid phase a = some r) {backend : Backend} {inode : Nat}
    (hOpened : r.1 = .opened backend inode) : r.2.file = some ⟨inode, []⟩ := by
  unfold next at hNext
  split at hNext
  case h_6 =>
    obtain rfl := Option.some.inj hNext
    split_ifs at hOpened with hOk
    · obtain ⟨-, rfl⟩ := GuardPhase.opened.inj hOpened
      rw [if_pos hOk]
      exact content_truncate w.path
  case h_1 | h_3 | h_4 | h_5 =>
    obtain rfl := Option.some.inj hNext
    dsimp only at hOpened
    split_ifs at hOpened
  case h_2 | h_7 | h_9 | h_10 =>
    obtain rfl := Option.some.inj hNext
    cases hOpened
  case h_8 | h_11 =>
    split_ifs at hNext
    obtain rfl := Option.some.inj hNext
    cases hOpened
  case h_12 => cases hNext

/-- **One step.** -/
theorem ordered_step (w : Processes) (l : GuardStep) (h : w.Ordered) (hOk : w.orderly l = true) :
    (w.step l).Ordered := by
  unfold step
  split
  · -- no such process
    rename_i hGet
    split_ifs with hStart
    · refine ⟨?_, fun q backend inode hq => ?_⟩
      · rw [parties_insert]
        exact exclusive_step h.exclusive (.leave l.pid)
      · dsimp only at hq
        rw [HashMap.get_insert] at hq
        split_ifs at hq
        · cases hq
        · exact h.opened q backend inode hq
    · exact h
  · rename_i phase hGet
    split_ifs with hExit
    · refine ⟨?_, fun q backend inode hq => ?_⟩
      · rw [parties_remove]
        exact exclusive_step h.exclusive (.leave l.pid)
      · dsimp only at hq
        rw [HashMap.get_remove] at hq
        split_ifs at hq
        exact h.opened q backend inode hq
    · split
      · exact h
      · rename_i r hNext
        refine ⟨?_, fun q backend inode hq => ?_⟩
        · rw [parties_insert]
          rcases next_parties h hGet hNext hOk with ⟨hSame, hRecord⟩ | hStep
          · have hParties : w.parties.move l.pid r.1.role (record r.2) = w.parties := by
              unfold Exclusion.State.move
              rw [hSame, hRecord, ← roleOf_get hGet]
              exact congrArg (Exclusion.State.mk · _) (Function.update_eq_self ..)
            rw [hParties]
            exact h.exclusive
          · exact exclusive_step h.exclusive hStep
        · dsimp only at hq
          rw [HashMap.get_insert] at hq
          split_ifs at hq with hSelf
          · exact next_opened hNext (Option.some.inj hq)
          · -- another process has the file open: it claims, so this one leaves the path
            have hClaims : w.parties.role q = .claiming := roleOf_get hq
            rcases next_path hNext with hPath | hRole | hRole
            · rw [hPath]
              exact h.opened q backend inode hq
            · exact absurd (h.exclusive.oneClaims q l.pid hClaims ((roleOf_get hGet).trans hRole)) hSelf
            · exact absurd ((roleOf_get hGet).trans hRole) (h.exclusive.noHolder q l.pid hClaims)

theorem ordered_start (content : Option Str) : (start content).Ordered := by
  have hOut : ∀ pid, (start content).parties.role pid = .out := by
    intro pid
    have hNone : (start content).procs.get pid = none := HashMap.get_empty pid
    exact roleOf_none hNone
  constructor
  · constructor
    · intro i j hi
      exact Role.noConfusion ((hOut i).symm.trans hi)
    · intro i j hi
      exact Role.noConfusion ((hOut i).symm.trans hi)
    · intro i hi
      exact Role.noConfusion ((hOut i).symm.trans hi)
    · intro i j hi
      rw [hOut i] at hi
      exact absurd hi not_possesses_out
  · intro pid backend inode h
    cases h

end Processes

-- ---------------------------------------------------------------------------
-- Owners
-- ---------------------------------------------------------------------------

/-- No two live processes own the protection. -/
def Processes.AtMostOneOwner (w : Processes) : Prop := ∀ p q, w.owns p → w.owns q → p = q

/-- **At most one owner.** In a run whose steps are orderly, at most one live process
owns the protection, after the run and after each of its beginnings. -/
theorem at_most_one_owner (content : Option Str) (ls ms : List GuardStep)
    (hRun : Trace.Along Processes.step (fun w l => w.orderly l = true) (.start content) (ls ++ ms)) :
    (Trace.run Processes.step (.start content) ls).AtMostOneOwner := by
  have hOrdered := Trace.invariant_run Processes.ordered_step (Processes.ordered_start content)
    hRun.prefix
  intro p q hp hq
  exact hOrdered.exclusive.unique (Processes.possesses_of_owns hp) (Processes.possesses_of_owns hq)

-- ---------------------------------------------------------------------------
-- Runs
-- ---------------------------------------------------------------------------

section OwnerRuns

set_option maxRecDepth 2000

/-- Process `pid` sets the protection up, step by step, up to its look at the pid. -/
def readsLock (pid : UInt32) : List GuardStep :=
  [⟨pid, .start⟩, ⟨pid, .setup true⟩, ⟨pid, .readLock true⟩]

def takesLock (pid : UInt32) : List GuardStep :=
  [⟨pid, .checkPid⟩, ⟨pid, .detect true false⟩, ⟨pid, .apply true true⟩, ⟨pid, .openLock true⟩,
    ⟨pid, .writeLock 100⟩]

theorem owns_of_get {w : Processes} {pid : UInt32}
    (h : w.procs.get pid = some (.guarded ⟨true, .nftables, true⟩)) : w.owns pid :=
  ⟨_, _, h, rfl, rfl⟩

/-- A stale lock file, a process that takes it over and one that comes later. -/
theorem at_most_one_owner_takeover :
    (Trace.run Processes.step (.start (some "runnginx:7\n"))
      (readsLock 1 ++ takesLock 1 ++ readsLock 2 ++ [⟨2, .checkPid⟩])).AtMostOneOwner := by
  refine at_most_one_owner (some "runnginx:7\n") _ [] ?_
  decide +kernel

/-- Two processes read the lock file before either has written it. -/
theorem not_at_most_one_owner : ¬∀ (content : Option Str) (ls : List GuardStep),
    (Trace.run Processes.step (.start content) ls).AtMostOneOwner := by
  intro h
  have hEq := h none (readsLock 1 ++ readsLock 2 ++ takesLock 1 ++ takesLock 2) 1 2
    (owns_of_get (by decide +kernel)) (owns_of_get (by decide +kernel))
  revert hEq
  decide

end OwnerRuns

end RunAlexDb
