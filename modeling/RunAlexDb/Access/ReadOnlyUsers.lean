import RunAlexDb.Model.Concrete
import RunAlexDb.Statement.Runs

/-!
# ReadOnlyUsers — accounts without the write privilege

The write check refuses a batch with a statement of a listed kind; TRUNCATE and
ALTER TABLE write and are not listed. The check is made only for a user that is
in the user table, and a session may drop its own account.

Main result: `databases_run_readOnly`.
-/

set_option linter.unusedSectionVars false

namespace RunAlexDb

open Text Platform

section ReadOnly

variable [Platform]

-- ---------------------------------------------------------------------------
-- The write check
-- ---------------------------------------------------------------------------

/-- The kinds that write without being checked. -/
def Statement.writesUnchecked : Statement → Bool
  | .truncate _ | .alterTable .. => true
  | _ => false

theorem writes_eq (stmt : Statement) :
    stmt.writes = (stmt.needsWrite || stmt.writesUnchecked) := by
  cases stmt <;> rfl

/-- The account is in the user table and may not write. -/
def Engine.readOnly (e : Engine) (userName : Str) : Prop :=
  ∃ account, e.users.get userName = some account ∧ account.canWrite = false

/-- What the check lets through for such an account. -/
theorem needsWrite_of_executed {userName : Str} {e : Engine} (h : e.readOnly userName) {c : Call}
    {stmt : Statement} (hMem : stmt ∈ c.executed userName e) : stmt.needsWrite = false := by
  obtain ⟨account, hUser, hReadOnly⟩ := h
  rw [Call.executed] at hMem
  split at hMem
  · rename_i stmts _ _
    split at hMem
    · cases hMem
    · rename_i hAllowed
      rw [privilegeCheck, hUser] at hAllowed
      simp only at hAllowed
      split at hAllowed
      · exact absurd rfl hAllowed
      · split at hAllowed
        · exact absurd rfl hAllowed
        · rename_i hNone
          rw [hReadOnly] at hNone
          have hAny : stmts.any Statement.needsWrite = false := by simpa using hNone
          exact Bool.eq_false_iff.2 (List.any_eq_false.1 hAny stmt hMem)
  · cases hMem

/-- The call executes no statement of an unchecked kind. -/
def Call.Checked (userName : Str) (e : Engine) (c : Call) : Prop :=
  ∀ stmt ∈ c.executed userName e, stmt.writesUnchecked = false

/-- A call that executes reading statements only leaves the databases. -/
theorem databases_step {userName : Str} {e : Engine} {c : Call}
    (h : ∀ stmt ∈ c.executed userName e, stmt.writes = false) :
    (c.step userName e).databases = e.databases := by
  cases hShort : c.shortcut with
  | some s => exact (Call.step_shortcut (by rw [hShort]; rfl) userName e).databases
  | none =>
    obtain ⟨jobs, hPrefix, hRun⟩ := Call.step_jobs hShort userName e
    have hReads : ∀ j ∈ jobs, j.statement.writes = false := fun j hj =>
      h _ (Call.mem_executed (hPrefix.subset hj))
    have hSame : (Trace.run Job.step (e.parsed c.sql) jobs).databases = (e.parsed c.sql).databases :=
      (same_jobs hReads (e.parsed c.sql)).databases
    rw [hRun, hSame]
    rfl

-- ---------------------------------------------------------------------------
-- Accounts stay read-only
-- ---------------------------------------------------------------------------

/-- No account statement gives the right to write to an account that is there
without it. -/
def KeepsReadOnly (users users' : HashMap Str DbUser) : Prop :=
  ∀ name account, users'.get name = some account → account.canWrite = true →
    ∃ old, users.get name = some old ∧ old.canWrite = true

theorem KeepsReadOnly.refl (users : HashMap Str DbUser) : KeepsReadOnly users users :=
  fun _ account h hWrite => ⟨account, h, hWrite⟩

theorem keepsReadOnly_insert (users : HashMap Str DbUser) (name password : Str) :
    KeepsReadOnly users (users.insert name (newUser password)) := by
  intro other account h hWrite
  rw [HashMap.get_insert] at h
  split at h
  · obtain rfl := Option.some.inj h
    cases hWrite
  · exact ⟨account, h, hWrite⟩

theorem keepsReadOnly_remove (users : HashMap Str DbUser) (name : Str) :
    KeepsReadOnly users (users.remove name) := by
  intro other account h hWrite
  rw [HashMap.get_remove] at h
  split at h
  · cases h
  · exact ⟨account, h, hWrite⟩

theorem keepsReadOnly_revoke (users : HashMap Str DbUser) (name : Str) (db : Option Str) :
    KeepsReadOnly users (users.modify name fun u => u.revoke db) := by
  intro other account h hWrite
  rw [HashMap.get_modify] at h
  split at h
  · obtain ⟨old, hOld, rfl⟩ := Option.map_eq_some_iff.1 h
    cases db with
    | none => cases hWrite
    | some db => exact ⟨old, hOld, hWrite⟩
  · exact ⟨account, h, hWrite⟩

theorem exec_onUsers (f : HashMap Str DbUser → QueryResult × HashMap Str DbUser) (e : Engine) :
    ((onUsers f).exec e).2.users = (f e.users).2 := rfl

/-- Account statements that read their arguments and then work on the table. -/
theorem keepsReadOnly_onUsers {α : Type} (args : Rust α)
    (f : α → HashMap Str DbUser → QueryResult × HashMap Str DbUser)
    (h : ∀ a users, KeepsReadOnly users (f a users).2) (e : Engine) :
    KeepsReadOnly e.users ((Prog.ofExcept args >>= fun a => onUsers (f a)).exec e).2.users := by
  rw [Prog.exec_bind, Prog.exec_ofExcept]
  cases args with
  | error fault => exact KeepsReadOnly.refl _
  | ok a => exact h a e.users

theorem users_bumpIfOk (r : QueryResult) (e : Engine) : ((bumpIfOk r).exec e).2.users = e.users :=
  (same_bumpIfOk r e).users

theorem keepsReadOnly_execRevoke (sql : Str) (e : Engine) :
    KeepsReadOnly e.users ((execRevoke sql).exec e).2.users := by
  rw [execRevoke]
  split
  · exact KeepsReadOnly.refl _
  · rename_i fromPos _
    rw [Prog.exec_bind, Prog.exec_ofExcept]
    cases revokeArgs sql fromPos with
    | error fault => exact KeepsReadOnly.refl _
    | ok args =>
      simp only [Prog.exec_bind, onUsers, Prog.exec_mk, users_bumpIfOk]
      split
      · exact keepsReadOnly_revoke _ _ _
      · exact KeepsReadOnly.refl _

theorem keepsReadOnly_execShortcut (sql u : Str) (currentDb : Option Str) (s : Shortcut)
    (e : Engine) : KeepsReadOnly e.users ((execShortcut sql u currentDb s).exec e).2.users := by
  by_cases hWrites : s.writes = false
  · rw [exec_of_not_writes_shortcut hWrites]
    exact KeepsReadOnly.refl _
  · cases s with
    | createUser =>
      refine keepsReadOnly_onUsers _ _ (fun args users => ?_) e
      split_ifs
      · exact KeepsReadOnly.refl _
      · exact KeepsReadOnly.refl _
      · exact KeepsReadOnly.refl _
      · exact keepsReadOnly_insert _ _ _
    | dropUser =>
      refine keepsReadOnly_onUsers _ _ (fun username users => ?_) e
      split_ifs
      · exact KeepsReadOnly.refl _
      · exact keepsReadOnly_remove _ _
      · exact KeepsReadOnly.refl _
    | revoke => exact keepsReadOnly_execRevoke _ e
    | _ => exact absurd rfl hWrites

theorem keepsReadOnly_step (userName : Str) (e : Engine) (c : Call) :
    KeepsReadOnly e.users (c.step userName e).users := by
  cases hShort : c.shortcut with
  | none =>
    obtain ⟨jobs, _, hRun⟩ := Call.step_jobs hShort userName e
    rw [hRun, users_jobs]
    exact KeepsReadOnly.refl _
  | some s =>
    cases c with
    | prepared now sql params currentDb => cases hShort
    | text now sql currentDb =>
      have hStep : (Call.text now sql currentDb).step userName e =
          ((execShortcut sql (toUppercase (trim sql)) currentDb s).exec e).2 := by
        rw [Call.step, Call.run, exec_execute_shortcut hShort]
      rw [hStep]
      exact keepsReadOnly_execShortcut _ _ _ _ _

/-- The account may not write if it is there. -/
def Engine.mayNotWrite (e : Engine) (userName : Str) : Prop :=
  ∀ account, e.users.get userName = some account → account.canWrite = false

theorem mayNotWrite_step {userName : Str} {e : Engine} (h : e.mayNotWrite userName) (c : Call) :
    (c.step userName e).mayNotWrite userName := by
  intro account hUser
  by_contra hWrite
  obtain ⟨old, hOld, hOldWrite⟩ := keepsReadOnly_step userName e c _ _ hUser (by simpa using hWrite)
  rw [h old hOld] at hOldWrite
  cases hOldWrite

-- ---------------------------------------------------------------------------
-- Runs
-- ---------------------------------------------------------------------------

/-- **Read-only accounts.** A user without the write privilege leaves all
databases as they are in every run of calls, text or prepared, that executes no
TRUNCATE and no ALTER TABLE and in which the account is not dropped. -/
theorem databases_run_readOnly (e : Engine) (userName : Str) (account : DbUser) (calls : List Call)
    (hUser : e.users.get userName = some account) (hReadOnly : account.canWrite = false)
    (hRun : Trace.Along (Call.step userName)
      (fun e c => (e.users.get userName).isSome = true ∧ c.Checked userName e) e calls) :
    (Trace.run (Call.step userName) e calls).databases = e.databases := by
  have hStart : e.mayNotWrite userName := by
    intro other hOther
    rw [hUser] at hOther
    rw [← Option.some.inj hOther, hReadOnly]
  have hInv := Trace.invariant_run
    (I := fun e' => e'.mayNotWrite userName ∧ e'.databases = e.databases) (fun e' c hInv hStep => by
      obtain ⟨there, hThere⟩ := Option.isSome_iff_exists.1 hStep.1
      have hReads : ∀ stmt ∈ c.executed userName e', stmt.writes = false := by
        intro stmt hMem
        have hNeeds := needsWrite_of_executed ⟨there, hThere, hInv.1 there hThere⟩ hMem
        rw [writes_eq, hNeeds, hStep.2 stmt hMem]
        rfl
      exact ⟨mayNotWrite_step hInv.1 c, (databases_step hReads).trans hInv.2⟩)
    ⟨hStart, rfl⟩ hRun
  exact hInv.2

end ReadOnly

-- ---------------------------------------------------------------------------
-- A TRUNCATE of a read-only account
-- ---------------------------------------------------------------------------

set_option maxRecDepth 2000

section Truncated

local instance readOnlyPlatform : Platform := tablePlatform
  [("TRUNCATE TABLE test.t", [.truncate [[⟨"test", none⟩, ⟨"t", none⟩]]]),
    ("DELETE FROM test.t", [.delete {
      from_ := [.mk (.table [⟨"test", none⟩, ⟨"t", none⟩] []) []], selection := none }])]

/-- A column `a INT` with one row, and the account bob as CREATE USER makes it. -/
def bobsEngine : Engine :=
  let table := (Table.create "test" "t" [⟨"a", .int, true, false⟩] []).push [.int 1]
  { Engine.fresh [] with
    databases := HashMap.ofList [("test", ⟨"test", HashMap.ofList [("t", table)]⟩)]
    users := HashMap.ofList [("bob", newUser [])] }

theorem databases_run_readOnly_delete :
    (Trace.run (Call.step "bob") bobsEngine [.text 0 "DELETE FROM test.t" none]).databases =
      bobsEngine.databases := by
  refine databases_run_readOnly bobsEngine "bob" (newUser []) _ rfl rfl ⟨⟨rfl, ?_⟩, trivial⟩
  intro stmt hMem
  have hRefused : (Call.text 0 "DELETE FROM test.t" none).executed "bob" bobsEngine = [] := rfl
  rw [hRefused] at hMem
  cases hMem

/-- The row of the table is gone after a TRUNCATE of bob. -/
theorem not_databases_run_readOnly :
    ¬ ∀ (e : Engine) (userName : Str) (account : DbUser) (calls : List Call),
      e.users.get userName = some account → account.canWrite = false →
      (Trace.run (Call.step userName) e calls).databases = e.databases := by
  intro hAll
  have hSame := hAll bobsEngine "bob" (newUser []) [.text 0 "TRUNCATE TABLE test.t" none] rfl rfl
  have hRows := congrArg (fun s : Store => ((s.get "test").bind fun d => d.tables.get "t").map
    fun t => t.rows.length) hSame
  revert hRows
  decide +kernel

end Truncated

end RunAlexDb
