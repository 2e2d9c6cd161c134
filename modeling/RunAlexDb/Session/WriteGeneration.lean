import RunAlexDb.Model.Concrete
import RunAlexDb.Statement.Outcomes

/-!
# WriteGeneration — changes and the write generation

Sessions take cached answers for good as long as the write generation stays, so
whatever changes databases or users has to raise it. `Operation.bumps` counts
the bumps of an operation from the state before it.

Main result: `writeGen_raised_iff`.
-/

set_option linter.unusedSectionVars false

namespace RunAlexDb

open Text Platform

section WriteGeneration

variable [Platform]

-- ---------------------------------------------------------------------------
-- Operations
-- ---------------------------------------------------------------------------

/-- What a session can cause on the engine. -/
inductive Operation
  /-- `execute` or `execute_prepared`, the account statements among them. -/
  | call (userName : Str) (c : Call)
  /-- The database of a login. -/
  | ensureDatabase (name : Str)
  /-- ROLLBACK. -/
  | restoreSnapshot (snap : Snapshot)

namespace Operation

/-- The engine an operation leaves, panic or not. -/
def step (e : Engine) : Operation → Engine
  | .call userName c => c.step userName e
  | .ensureDatabase name => ((RunAlexDb.ensureDatabase name).exec e).2
  | .restoreSnapshot snap => e.restoreSnapshot snap

/-- Databases, a table or the user table are others afterwards. -/
def Changes (e : Engine) (op : Operation) : Prop :=
  (op.step e).databases ≠ e.databases ∨ (op.step e).users ≠ e.users

end Operation

/-- REVOKE names a user there is. -/
def revokeSucceeds (e : Engine) (sql : Str) : Bool :=
  match find (toUppercase sql) " FROM " with
  | none => false
  | some fromPos =>
    match revokeArgs sql fromPos with
    | .error _ => false
    | .ok (username, _) => e.users.containsKey username

/-- Of the shortcuts only REVOKE bumps. -/
def Shortcut.bumps (e : Engine) (sql : Str) : Shortcut → Nat
  | .revoke => if revokeSucceeds e (trim sql) then 1 else 0
  | _ => 0

namespace Operation

/-- The bumps an operation makes. -/
def bumps (e : Engine) : Operation → Nat
  | .call userName c =>
    match c.shortcut with
    | some s => s.bumps e c.sql
    | none => bumpsOf (e.parsed c.sql) (c.jobs userName e)
  | .ensureDatabase _ => 0
  | .restoreSnapshot _ => 1

/-- There is a bump, and the counter of 64 bits does not wrap. -/
def Raises (e : Engine) (op : Operation) : Prop :=
  0 < op.bumps e % 2 ^ 64 ∧ e.writeGen.toNat + op.bumps e % 2 ^ 64 < 2 ^ 64

end Operation

-- ---------------------------------------------------------------------------
-- The count
-- ---------------------------------------------------------------------------

theorem writeGen_execRevoke (sql : Str) (e : Engine) :
    ((execRevoke sql).exec e).2.writeGen =
      e.writeGen + UInt64.ofNat (if revokeSucceeds e sql then 1 else 0) := by
  rw [execRevoke, revokeSucceeds]
  cases find (toUppercase sql) " FROM " with
  | none => exact (UInt64.add_zero _).symm
  | some fromPos =>
    cases hArgs : revokeArgs sql fromPos with
    | error fault =>
      simp only [Prog.exec_bind, Prog.exec_ofExcept, hArgs]
      exact (UInt64.add_zero _).symm
    | ok args =>
      simp only [Prog.exec_bind, Prog.exec_ofExcept, hArgs, onUsers, Prog.exec_mk, bumpIfOk]
      by_cases hThere : e.users.containsKey args.1 = true
      · simp only [hThere, if_true]
        rfl
      · simp only [hThere]
        exact (UInt64.add_zero _).symm

theorem writeGen_execShortcut (sql u : Str) (currentDb : Option Str) (s : Shortcut) (e : Engine) :
    ((execShortcut sql u currentDb s).exec e).2.writeGen =
      e.writeGen + UInt64.ofNat (s.bumps e sql) := by
  have hOnUsers : ∀ {α : Type} (args : Rust α)
      (f : α → HashMap Str DbUser → QueryResult × HashMap Str DbUser),
      ((Prog.ofExcept args >>= fun a => onUsers (f a)).exec e).2.writeGen = e.writeGen + 0 := by
    intro α args f
    rw [Prog.exec_bind, Prog.exec_ofExcept, UInt64.add_zero]
    cases args <;> rfl
  by_cases hWrites : s.writes = false
  · rw [exec_of_not_writes_shortcut hWrites]
    cases s <;> first | exact (UInt64.add_zero _).symm | cases hWrites
  · cases s with
    | createUser => exact hOnUsers _ _
    | dropUser => exact hOnUsers _ _
    | revoke => exact writeGen_execRevoke _ e
    | _ => exact absurd rfl hWrites

theorem writeGen_call (userName : Str) (c : Call) (e : Engine) :
    (c.step userName e).writeGen =
      e.writeGen + UInt64.ofNat ((Operation.call userName c).bumps e) := by
  rw [Operation.bumps]
  cases c with
  | text now sql currentDb =>
    rw [Call.step, Call.run]
    cases hShort : shortcutOf (toUppercase (trim sql)) with
    | some s =>
      simp only [Call.shortcut, hShort]
      rw [exec_execute_shortcut hShort]
      exact writeGen_execShortcut _ _ _ _ e
    | none =>
      have hNone : (Call.text now sql currentDb).shortcut = none := hShort
      simp only [hNone]
      rw [exec_execute_parsed hShort, Call.jobs, Call.executed, hNone, Call.sql, Call.currentDb]
      cases parseAnswer e sql with
      | error msg => exact (UInt64.add_zero _).symm
      | ok stmts =>
        simp only
        cases privilegeCheck e.users userName currentDb stmts with
        | some refusal => exact (UInt64.add_zero _).symm
        | none => exact writeGen_execBatch now currentDb _ stmts (e.parsed sql)
  | prepared now sql params currentDb =>
    simp only [Call.shortcut]
    rw [Call.step, Call.run, exec_executePrepared, Call.jobs, Call.executed, Call.sql,
      Call.currentDb]
    simp only [Call.shortcut]
    cases parseAnswer e sql with
    | error msg => exact (UInt64.add_zero _).symm
    | ok stmts =>
      simp only
      cases privilegeCheck e.users userName currentDb stmts with
      | some refusal => exact (UInt64.add_zero _).symm
      | none => exact writeGen_execBatchPrepared now _ currentDb _ stmts (e.parsed sql)

/-- **The write generation after an operation.** -/
theorem writeGen_operation (op : Operation) (e : Engine) :
    (op.step e).writeGen = e.writeGen + UInt64.ofNat (op.bumps e) := by
  cases op with
  | call userName c => exact writeGen_call userName c e
  | ensureDatabase name =>
    simp only [Operation.step, RunAlexDb.ensureDatabase, Prog.exec_modify, Engine.addDatabase]
    split <;> exact (UInt64.add_zero _).symm
  | restoreSnapshot snap => rfl

theorem lt_add_ofNat_iff (gen : UInt64) (n : Nat) :
    gen < gen + UInt64.ofNat n ↔ 0 < n % 2 ^ 64 ∧ gen.toNat + n % 2 ^ 64 < 2 ^ 64 := by
  have hGen := gen.toNat_lt
  rw [UInt64.lt_iff_toNat_lt, UInt64.toNat_add, UInt64.toNat_ofNat']
  omega

/-- **Changes raise the write generation** exactly when they come with a bump:
of a statement of `execute` that returns an OK, of a REVOKE, of a ROLLBACK, or of
a prepared DROP, TRUNCATE, ALTER TABLE or CREATE TABLE AS SELECT. -/
theorem writeGen_raised_iff (op : Operation) (e : Engine) :
    (op.Changes e → e.writeGen < (op.step e).writeGen) ↔ (op.Changes e → op.Raises e) := by
  rw [writeGen_operation, lt_add_ofNat_iff, Operation.Raises]

end WriteGeneration

-- ---------------------------------------------------------------------------
-- A prepared INSERT
-- ---------------------------------------------------------------------------

set_option maxRecDepth 2000

section Prepared

local instance generationPlatform : Platform := tablePlatform
  [("INSERT INTO t VALUES (?)", [.insert {
      table := .tableName [⟨"t", none⟩]
      columns := []
      source := some (.mk (.values [[.value (.placeholder "?")]]) none none none)
      replaceInto := false }])]

/-- A fresh engine with an empty table t in database test. -/
def emptyTableT : Engine :=
  { Engine.fresh [] with
    databases := HashMap.ofList
      [("test", ⟨"test", HashMap.ofList [("t", Table.create "test" "t" [] [])]⟩)] }

def insertOne : Operation :=
  .call "root" (.prepared 0 "INSERT INTO t VALUES (?)" [some "1"] none)

/-- The row is there, the generation is the old one. -/
theorem not_writeGen_raised :
    ¬ ∀ (op : Operation) (e : Engine), op.Changes e → e.writeGen < (op.step e).writeGen := by
  intro hAll
  have hChanges : insertOne.Changes emptyTableT := by
    refine .inl fun hSame => ?_
    have hRows := congrArg (fun s : Store =>
      ((HashMap.get s "test").bind fun d => d.tables.get "t").map fun t => t.rows.length) hSame
    revert hRows
    decide +kernel
  have hRaised := hAll insertOne emptyTableT hChanges
  revert hRaised
  decide +kernel

end Prepared

end RunAlexDb
