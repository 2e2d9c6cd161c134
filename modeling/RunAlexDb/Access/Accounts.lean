import RunAlexDb.Access.ReadOnlyUsers

/-!
# Accounts — who may change the user table

Account statements are recognised by the beginning of their text and run before
any right is checked, so every user's texts change the user table alike.

Main result: `users_execute_iff`, which texts leave the user table as it is.
-/

set_option linter.unusedSectionVars false

namespace RunAlexDb

open Text Platform

section Accounts

variable [Platform]

-- ---------------------------------------------------------------------------
-- Tables of accounts
-- ---------------------------------------------------------------------------

theorem insert_ne {users : HashMap Str DbUser} {name : Str} (h : users.get name = none)
    (account : DbUser) : users.insert name account ≠ users := by
  intro hEq
  have hGet := congrArg (fun m => HashMap.get m name) hEq
  simp [h] at hGet

theorem remove_ne {users : HashMap Str DbUser} {name : Str}
    (h : users.containsKey name = true) : users.remove name ≠ users := by
  intro hEq
  have hGet := congrArg (fun m => HashMap.get m name) hEq
  rw [HashMap.containsKey, ← hGet, HashMap.get_remove, if_pos rfl] at h
  cases h

theorem modify_eq_self_iff {users : HashMap Str DbUser} {name : Str} {f : DbUser → DbUser} :
    users.modify name f = users ↔ ∀ account, users.get name = some account → f account = account := by
  refine ⟨fun hEq account hGet => ?_, HashMap.modify_eq_self⟩
  have hSame := congrArg (fun m => HashMap.get m name) hEq
  simpa [hGet] using hSame

/-- The account has something REVOKE takes: the database `db`, or with `none`
any database or the right to write. -/
def DbUser.losesBy (account : DbUser) : Option Str → Prop
  | some db => ∃ s, account.allowedDbs = some s ∧ HashSet.contains s db = true
  | none => account.canWrite = true ∨ account.allowedDbs ≠ some HashMap.empty

theorem revoke_eq_self_iff (account : DbUser) (db : Option Str) :
    account.revoke db = account ↔ ¬ account.losesBy db := by
  rcases account with ⟨password, allowed, write, root⟩
  cases db with
  | none =>
    simp only [DbUser.revoke, DbUser.losesBy, DbUser.mk.injEq, true_and, and_true, not_or,
      Bool.not_eq_true, not_not]
    constructor
    · rintro ⟨hAllowed, hWrite⟩
      exact ⟨hWrite.symm, hAllowed.symm⟩
    · rintro ⟨hWrite, hAllowed⟩
      exact ⟨hAllowed.symm, hWrite.symm⟩
  | some db =>
    simp only [DbUser.revoke, DbUser.losesBy, DbUser.mk.injEq, true_and, and_true]
    cases allowed with
    | none => simp
    | some s =>
      simp only [Option.map_some, Option.some.injEq, exists_eq_left']
      rw [HashSet.contains, HashMap.containsKey, Bool.not_eq_true, Option.isSome_eq_false_iff,
        Option.isNone_iff_eq_none]
      refine ⟨fun hEq => ?_, HashMap.remove_eq_self⟩
      rw [← hEq, HashMap.get_remove, if_pos rfl]

-- ---------------------------------------------------------------------------
-- Texts that change the user table
-- ---------------------------------------------------------------------------

/-- What an account statement does to the user table; the text is trimmed. -/
def Shortcut.changesUsers (users : HashMap Str DbUser) (sql : Str) : Shortcut → Prop
  | .createUser => ∃ name password, createUserArgs sql = .ok (name, password) ∧
      name ≠ [] ∧ name ≠ "root" ∧ users.get name = none
  | .dropUser => ∃ name, dropUserArg sql = .ok name ∧ name ≠ "root" ∧
      users.containsKey name = true
  | .revoke => ∃ fromPos name db, find (toUppercase sql) " FROM " = some fromPos ∧
      revokeArgs sql fromPos = .ok (name, db) ∧
      ∃ account, users.get name = some account ∧ account.losesBy db
  | _ => False

/-- The text is an account statement that changes the user table. -/
def changesUsers (users : HashMap Str DbUser) (sql : Str) : Prop :=
  ∃ s, shortcutOf (toUppercase (trim sql)) = some s ∧ s.changesUsers users (trim sql)

theorem users_createUser (sql : Str) (e : Engine) :
    ((execCreateUser sql).exec e).2.users = e.users ↔
      ¬ Shortcut.createUser.changesUsers e.users sql := by
  rw [execCreateUser, Prog.exec_bind, Prog.exec_ofExcept, Shortcut.changesUsers]
  cases createUserArgs sql with
  | error fault => simp
  | ok args =>
    rcases args with ⟨name, password⟩
    simp only [exec_onUsers]
    split_ifs with hEmpty hRoot hThere
    · simp [List.isEmpty_iff.1 hEmpty]
    · simp [hRoot]
    · rw [HashMap.containsKey, Option.isSome_iff_exists] at hThere
      obtain ⟨account, hAccount⟩ := hThere
      refine iff_of_true rfl ?_
      rintro ⟨_, _, hArgs, _, _, hNone⟩
      cases hArgs
      rw [hAccount] at hNone
      cases hNone
    · have hNone : e.users.get name = none := by
        simpa [HashMap.containsKey] using hThere
      refine iff_of_false (insert_ne hNone _) (not_not.2 ⟨name, password, rfl, ?_, hRoot, hNone⟩)
      simpa using hEmpty

theorem users_dropUser (sql : Str) (e : Engine) :
    ((execDropUser sql).exec e).2.users = e.users ↔
      ¬ Shortcut.dropUser.changesUsers e.users sql := by
  rw [execDropUser, Prog.exec_bind, Prog.exec_ofExcept, Shortcut.changesUsers]
  cases dropUserArg sql with
  | error fault => simp
  | ok name =>
    simp only [exec_onUsers]
    split_ifs with hRoot hThere
    · simp [hRoot]
    · exact iff_of_false (remove_ne hThere) (not_not.2 ⟨name, rfl, hRoot, hThere⟩)
    · refine iff_of_true rfl ?_
      rintro ⟨_, hArg, _, hIn⟩
      cases hArg
      exact hThere hIn

theorem users_revoke (sql : Str) (e : Engine) :
    ((execRevoke sql).exec e).2.users = e.users ↔
      ¬ Shortcut.revoke.changesUsers e.users sql := by
  rw [execRevoke, Shortcut.changesUsers]
  cases hFrom : find (toUppercase sql) " FROM " with
  | none => simp
  | some fromPos =>
    simp only [Prog.exec_bind, Prog.exec_ofExcept]
    cases hArgs : revokeArgs sql fromPos with
    | error fault => simp [hArgs]
    | ok args =>
      rcases args with ⟨name, db⟩
      simp only [onUsers, Prog.exec_mk, users_bumpIfOk]
      have hChanges : (∃ pos name' db', some fromPos = some pos ∧
          revokeArgs sql pos = .ok (name', db') ∧
            ∃ account, e.users.get name' = some account ∧ account.losesBy db') ↔
          ∃ account, e.users.get name = some account ∧ account.losesBy db := by
        constructor
        · rintro ⟨_, _, _, hPos, hArgs', hLoses⟩
          cases hPos
          rw [hArgs] at hArgs'
          cases hArgs'
          exact hLoses
        · rintro hLoses
          exact ⟨fromPos, name, db, rfl, hArgs, hLoses⟩
      rw [hChanges]
      split_ifs with hThere
      · rw [modify_eq_self_iff]
        simp only [revoke_eq_self_iff, not_exists, not_and]
      · have hNone : e.users.get name = none := by
          simpa [HashMap.containsKey] using hThere
        simp [hNone]

/-- **Who changes the user table.** Whoever calls it and in whatever state,
`execute` leaves the user table as it is exactly when the text is no account
statement that adds, removes or restricts an account. -/
theorem users_execute_iff (now : Nat) (sql : Str) (currentDb : Option Str) (userName : Str)
    (e : Engine) :
    ((execute now sql currentDb userName).exec e).2.users = e.users ↔ ¬ changesUsers e.users sql := by
  cases hShort : shortcutOf (toUppercase (trim sql)) with
  | none =>
    have hNone : (Call.text now sql currentDb).shortcut = none := hShort
    obtain ⟨jobs, _, hRun⟩ := Call.step_jobs hNone userName e
    have hUsers : ((execute now sql currentDb userName).exec e).2.users = e.users := by
      show ((Call.text now sql currentDb).step userName e).users = e.users
      rw [hRun, users_jobs]
      rfl
    refine iff_of_true hUsers ?_
    rintro ⟨s, hSome, _⟩
    rw [hShort] at hSome
    cases hSome
  | some s =>
    have hOnly : changesUsers e.users sql ↔ s.changesUsers e.users (trim sql) := by
      rw [changesUsers, hShort]
      exact ⟨fun ⟨_, hEq, h⟩ => by cases hEq; exact h, fun h => ⟨s, rfl, h⟩⟩
    rw [exec_execute_shortcut hShort, hOnly]
    by_cases hWrites : s.writes = false
    · rw [exec_of_not_writes_shortcut hWrites]
      refine iff_of_true rfl fun hChanges => ?_
      cases s <;> first | exact hChanges | cases hWrites
    · cases s with
      | createUser => exact users_createUser _ e
      | dropUser => exact users_dropUser _ e
      | revoke => exact users_revoke _ e
      | _ => exact absurd rfl hWrites

end Accounts

-- ---------------------------------------------------------------------------
-- An account dropped by another
-- ---------------------------------------------------------------------------

set_option maxRecDepth 2000

section Dropped

local instance accountsPlatform : Platform := tablePlatform []

/-- The account bob drops alice. -/
theorem not_users_execute :
    ¬ ∀ (e : Engine) (userName : Str) (account : DbUser), e.users.get userName = some account →
      account.isRoot = false → ∀ (now : Nat) (sql : Str) (currentDb : Option Str),
        ((execute now sql currentDb userName).exec e).2.users = e.users := by
  intro hAll
  have hSame := hAll
    { Engine.fresh [] with users := HashMap.ofList [("bob", newUser []), ("alice", newUser [])] }
    "bob" (newUser []) rfl rfl 0 "DROP USER alice" none
  have hSize := congrArg HashMap.size hSame
  revert hSize
  decide +kernel

end Dropped

end RunAlexDb
