import RunAlexDb.Model.Concrete
import RunAlexDb.Statement.Effects

/-!
# Failures — statements that return an error

A statement that returns an error should leave the databases as they were.
DROP with several names and ALTER TABLE with several operations work through
their list and stop at the first error with what they have done.

Main result: `failsWhole_iff`.
-/

set_option linter.unusedSectionVars false

namespace RunAlexDb

open Text Platform
open Prog (Returns)

section Failures

variable [Platform]

/-- An error of the program leaves the databases as they were. -/
def FailsWhole (m : EngineM QueryResult) (e : Engine) : Prop :=
  ∀ r, (m.exec e).1 = .ok r → r.isErr = true → (m.exec e).2.databases = e.databases

-- ---------------------------------------------------------------------------
-- Dropping a list of things
-- ---------------------------------------------------------------------------

section DropAll

variable {τ : Type} [DecidableEq τ] (has : Store → τ → Bool) (remove : Store → τ → Store)

/-- DROP, target by target: whether it succeeds, and the store it leaves. -/
def dropAll (ifExists : Bool) : Store → List τ → Bool × Store
  | s, [] => (true, s)
  | s, x :: rest =>
    if has s x then dropAll ifExists (remove s x) rest
    else if ifExists then dropAll ifExists s rest
    else (false, s)

variable {has remove} (hHas : ∀ s x y, has (remove s x) y = (has s y && decide (y ≠ x)))
include hHas

/-- Without IF EXISTS it succeeds when all targets are there, each named once. -/
theorem dropAll_succeeds_iff (s : Store) (xs : List τ) :
    (dropAll has remove false s xs).1 = true ↔ xs.Nodup ∧ ∀ x ∈ xs, has s x = true := by
  induction xs generalizing s with
  | nil => simp [dropAll]
  | cons x rest ih =>
    rw [dropAll]
    by_cases hThere : has s x = true
    · rw [if_pos hThere, ih, List.nodup_cons, List.forall_mem_cons]
      simp only [hHas, Bool.and_eq_true, decide_eq_true_eq]
      constructor
      · rintro ⟨hNodup, hAll⟩
        exact ⟨⟨fun hIn => (hAll x hIn).2 rfl, hNodup⟩, hThere, fun y hy => (hAll y hy).1⟩
      · rintro ⟨⟨hNotIn, hNodup⟩, -, hAll⟩
        exact ⟨hNodup, fun y hy => ⟨hAll y hy, fun hEq => hNotIn (hEq ▸ hy)⟩⟩
    · simp [hThere]

/-- Nothing comes back. -/
theorem has_dropAll (ifExists : Bool) (s : Store) (xs : List τ) (y : τ) (h : has s y = false) :
    has (dropAll has remove ifExists s xs).2 y = false := by
  induction xs generalizing s with
  | nil => exact h
  | cons x rest ih =>
    rw [dropAll]
    split_ifs
    · exact ih _ (by rw [hHas, h]; rfl)
    · exact ih _ h
    · exact h

theorem dropAll_succeeds_ifExists (s : Store) (xs : List τ) :
    (dropAll has remove true s xs).1 = true := by
  induction xs generalizing s with
  | nil => rfl
  | cons x rest ih =>
    rw [dropAll]
    split_ifs with hThere hTrue
    · exact ih _
    · exact ih _
    · exact absurd rfl hTrue

/-- A DROP that fails leaves the store exactly when it cannot fail, or its first
target is missing. -/
theorem dropAll_whole_iff (ifExists : Bool) (s : Store) (xs : List τ) :
    ((dropAll has remove ifExists s xs).1 = false → (dropAll has remove ifExists s xs).2 = s) ↔
      ifExists = true ∨ (∀ x, xs.head? = some x → has s x = false) ∨
        xs.Nodup ∧ ∀ x ∈ xs, has s x = true := by
  cases ifExists with
  | true => simp [dropAll_succeeds_ifExists hHas]
  | false =>
    cases xs with
    | nil => simp [dropAll]
    | cons x rest =>
      have hSucceeds := dropAll_succeeds_iff hHas s (x :: rest)
      by_cases hThere : has s x = true
      · have hGone : has (dropAll has remove false s (x :: rest)).2 x = false := by
          rw [dropAll, if_pos hThere]
          exact has_dropAll hHas _ _ _ _ (by rw [hHas]; simp)
        have hChanged : (dropAll has remove false s (x :: rest)).2 ≠ s := by
          intro hEq
          rw [hEq, hThere] at hGone
          cases hGone
        simp only [Bool.false_eq_true, false_or, List.head?_cons, Option.some.injEq,
          forall_eq', hThere, ← hSucceeds, reduceCtorEq]
        cases (dropAll has remove false s (x :: rest)).1 <;> simp [hChanged]
      · simp only [dropAll, hThere, Bool.false_eq_true, if_false, List.head?_cons,
          Option.some.injEq, forall_eq', false_or, forall_const, true_iff]
        exact .inl (by simp)

end DropAll

-- ---------------------------------------------------------------------------
-- DROP TABLE and DROP DATABASE
-- ---------------------------------------------------------------------------

def Store.hasTable (s : Store) (target : Str × Str) : Bool :=
  (s.get target.1).elim false fun d => d.tables.containsKey target.2

def Store.dropTable (s : Store) (target : Str × Str) : Store :=
  s.modifyTables target.1 fun tables => tables.remove target.2

theorem hasTable_dropTable (s : Store) (x y : Str × Str) :
    (s.dropTable x).hasTable y = (s.hasTable y && decide (y ≠ x)) := by
  rcases x with ⟨db, table⟩
  rcases y with ⟨db', table'⟩
  rw [Store.hasTable, Store.hasTable, Store.dropTable, Store.modifyTables, HashMap.get_modify]
  by_cases hDb : db' = db
  · subst hDb
    rw [if_pos rfl]
    cases s.get db' with
    | none => rfl
    | some d =>
      simp only [Option.map_some, Option.elim_some, HashMap.containsKey, HashMap.get_remove]
      by_cases hTable : table' = table <;> simp [hTable]
  · rw [if_neg hDb]
    simp [hDb]

theorem hasDatabase_remove (s : Store) (x y : Str) :
    HashMap.containsKey (HashMap.remove s x) y = (HashMap.containsKey s y && decide (y ≠ x)) := by
  rw [HashMap.containsKey, HashMap.containsKey, HashMap.get_remove]
  by_cases hDb : y = x <;> simp [hDb]

/-- The tables DROP TABLE names. -/
def dropTargets (dbName : Str) (names : List ObjectName) : List (Str × Str) :=
  names.map fun n => resolveName dbName (ObjectName.toString n)

/-- The databases DROP DATABASE names. -/
def dropDatabaseTargets (names : List ObjectName) : List Str :=
  names.map fun n => trimMatches '`' (ObjectName.toString n)

/-- What a DROP does, told by `dropAll`: a success is OK and bumps the write
generation, a failure is an error. -/
def Drops (m : EngineM QueryResult) (e : Engine) (dropped : Bool × Store) : Prop :=
  (m.exec e).2.databases = dropped.2 ∧
    (m.exec e).2.writeGen = e.writeGen + (if dropped.1 then 1 else 0) ∧
    ∃ r, (m.exec e).1 = .ok r ∧ r.isOk = dropped.1 ∧ r.isErr = !dropped.1

theorem Drops.succeeded (e : Engine) :
    Drops (do bumpWriteGen; return .ok 0 0) e (true, e.databases) := ⟨rfl, rfl, _, rfl, rfl, rfl⟩

theorem Drops.failed (e : Engine) (code : Nat) (message : Str) :
    Drops (return .err code message) e (false, e.databases) :=
  ⟨rfl, (UInt64.add_zero _).symm, _, rfl, rfl, rfl⟩

theorem drops_dropTables (dbName : Str) (ifExists : Bool) (names : List ObjectName) (e : Engine) :
    Drops (dropTables dbName ifExists names) e
      (dropAll Store.hasTable Store.dropTable ifExists e.databases (dropTargets dbName names)) := by
  induction names generalizing e with
  | nil => exact Drops.succeeded e
  | cons name rest ih =>
    rcases hTarget : resolveName dbName (ObjectName.toString name) with ⟨db, table⟩
    rw [dropTargets] at ih
    simp only [Drops, dropTables, dropTargets, List.map_cons, hTarget, dropAll, Prog.exec_get_bind]
    cases hDb : e.databases.get db with
    | none =>
      have hHas : Store.hasTable e.databases (db, table) = false := by rw [Store.hasTable, hDb]; rfl
      simp only [hHas, Bool.false_eq_true, if_false]
      cases ifExists with
      | true => exact ih e
      | false => exact Drops.failed e _ _
    | some d =>
      have hHas : Store.hasTable e.databases (db, table) = d.tables.containsKey table := by
        rw [Store.hasTable, hDb]
        rfl
      simp only [hHas]
      by_cases hThere : d.tables.containsKey table = true
      · simp only [hThere, if_true, Prog.exec_set_bind]
        exact ih _
      · cases ifExists with
        | true => simpa only [Drops, hThere, Bool.false_eq_true, if_false, if_true] using ih e
        | false =>
          simp only [hThere, Bool.false_eq_true, if_false]
          exact Drops.failed e _ _

theorem drops_dropDatabases (ifExists : Bool) (names : List ObjectName) (e : Engine) :
    Drops (dropDatabases ifExists names) e
      (dropAll HashMap.containsKey HashMap.remove ifExists e.databases
        (dropDatabaseTargets names)) := by
  induction names generalizing e with
  | nil => exact Drops.succeeded e
  | cons name rest ih =>
    rw [dropDatabaseTargets] at ih
    simp only [Drops, dropDatabases, dropDatabaseTargets, List.map_cons, dropAll, Prog.exec_get_bind]
    by_cases hThere : e.databases.containsKey (trimMatches '`' (ObjectName.toString name)) = true
    · simp only [hThere, if_true, Prog.exec_set_bind]
      exact ih _
    · cases ifExists with
      | true => simpa only [Drops, hThere, Bool.false_eq_true, if_false, if_true] using ih e
      | false =>
        simp only [hThere, Bool.false_eq_true, if_false]
        exact Drops.failed e _ _

/-- A program whose outcome is that of a DROP. -/
theorem failsWhole_drop {τ : Type} [DecidableEq τ] {has : Store → τ → Bool}
    {remove : Store → τ → Store}
    (hHas : ∀ s x y, has (remove s x) y = (has s y && decide (y ≠ x))) {m : EngineM QueryResult}
    {e : Engine} {ifExists : Bool} {xs : List τ}
    (hExec : Drops m e (dropAll has remove ifExists e.databases xs)) :
    FailsWhole m e ↔ ifExists = true ∨ (∀ x, xs.head? = some x → has e.databases x = false) ∨
      xs.Nodup ∧ ∀ x ∈ xs, has e.databases x = true := by
  obtain ⟨hState, -, r, hResult, -, hErr⟩ := hExec
  rw [← dropAll_whole_iff hHas, FailsWhole, hState, hResult]
  constructor
  · intro hWhole hFailed
    exact hWhole r rfl (by rw [hErr, hFailed]; rfl)
  · intro hWhole r' hEq hIsErr
    cases hEq
    refine hWhole ?_
    rw [hErr] at hIsErr
    simpa using hIsErr

-- ---------------------------------------------------------------------------
-- ALTER TABLE
-- ---------------------------------------------------------------------------

/-- The table as the first failing operation finds it. -/
def failedAlter : List AlterTableOperation → Table → Option Table
  | [], _ => none
  | op :: rest, t =>
    match t.alter op with
    | .error _ => some t
    | .ok t' => failedAlter rest t'

theorem failure_of_alter {t : Table} {op : AlterTableOperation} {r : QueryResult}
    (h : t.alter op = .error r) : ∃ code message, r = .err code message := by
  cases op with
  | addColumn columnDef =>
    simp only [Table.alter] at h
    split_ifs at h
    cases h
    exact ⟨_, _, rfl⟩
  | dropColumn columnName =>
    simp only [Table.alter] at h
    split at h
    · cases h
      exact ⟨_, _, rfl⟩
    · split_ifs at h
      cases h
      exact ⟨_, _, rfl⟩
  | renameColumn oldColumnName newColumnName =>
    simp only [Table.alter] at h
    split at h
    · cases h
      exact ⟨_, _, rfl⟩
    · cases h
  | other text => cases h

/-- ALTER TABLE returns an error when an operation fails, with the table as that
operation found it, and OK otherwise. -/
theorem exec_alterTable (ops : List AlterTableOperation) (t : Table) :
    ∃ r, ((alterTable ops).exec t).1 = .ok r ∧ r.isErr = (failedAlter ops t).isSome ∧
      r.isOk = (failedAlter ops t).isNone ∧
      ∀ t', failedAlter ops t = some t' → ((alterTable ops).exec t).2 = t' := by
  induction ops generalizing t with
  | nil => exact ⟨_, rfl, rfl, rfl, fun _ h => by cases h⟩
  | cons op rest ih =>
    rw [alterTable, failedAlter, Prog.exec_get_bind]
    cases hAlter : t.alter op with
    | error r =>
      obtain ⟨code, message, rfl⟩ := failure_of_alter hAlter
      refine ⟨_, rfl, rfl, rfl, fun t' h => ?_⟩
      cases h
      rfl
    | ok t' =>
      simp only [Prog.exec_set_bind]
      exact ih t'

-- ---------------------------------------------------------------------------
-- Statements on one table
-- ---------------------------------------------------------------------------

theorem failsWhole_pure (r : QueryResult) (e : Engine) : FailsWhole (pure r) e := fun _ _ _ => rfl

/-- A result of `bumpIfOk` is an error when its argument is. -/
theorem failsWhole_bumpIfOk {m : EngineM QueryResult} {e : Engine} :
    FailsWhole (m >>= bumpIfOk) e ↔ FailsWhole m e := by
  rw [FailsWhole, FailsWhole, Prog.exec_bind]
  rcases hRun : m.exec e with ⟨_ | r, e'⟩
  · simp
  · have hBump : (bumpIfOk r).exec e' = (.ok r, ((bumpIfOk r).exec e').2) := by
      rw [bumpIfOk]
      split <;> rfl
    have hDatabases : ((bumpIfOk r).exec e').2.databases = e'.databases := by
      rw [bumpIfOk]
      split <;> rfl
    simp only [hDatabases]
    rw [hBump]

/-- No value that is returned is an error. -/
def NoError (m : TableM QueryResult) : Prop := Returns (fun r => r.isErr = false) m

/-- Every value that is returned is an OK. -/
def AlwaysOk (m : TableM QueryResult) : Prop := Returns (fun r => r.isOk = true) m

theorem AlwaysOk.ok (affected lastInsertId : UInt64) : AlwaysOk (pure (.ok affected lastInsertId)) :=
  Returns.pure rfl

theorem AlwaysOk.noError {m : TableM QueryResult} (h : AlwaysOk m) : NoError m := by
  intro t r hExec
  have hOk := h t r hExec
  cases r with
  | ok affected lastInsertId => rfl
  | _ => cases hOk

theorem failsWhole_withTable {act : TableM QueryResult} (h : NoError act)
    (db table noDb noTable : Str) (e : Engine) :
    FailsWhole (withTable db table noDb noTable act) e := by
  intro r hResult hErr
  rw [withTable, Prog.exec_mk] at hResult ⊢
  cases hFind : findTable e.databases db table noDb noTable with
  | error other => rfl
  | ok t =>
    rw [hFind] at hResult
    rw [h t r hResult] at hErr
    cases hErr

theorem alwaysOk_insertRows (replaceInto : Bool) (names : List Str) (rows : List Row) :
    AlwaysOk (insertRows replaceInto names rows) :=
  Returns.bind fun _ => Returns.bind fun _ => AlwaysOk.ok _ _

theorem alwaysOk_insertRowsPrepared (rows : List Row) : AlwaysOk (insertRowsPrepared rows) :=
  Returns.bind fun _ => AlwaysOk.ok _ _

theorem alwaysOk_updateScan (cond : Row → Rust Bool) (value : Row → Expr → Rust Value)
    (assignments : List Assignment) : AlwaysOk (updateScan cond value assignments) :=
  Returns.bind fun _ => Returns.bind fun _ => AlwaysOk.ok _ _

theorem alwaysOk_updateTable (now : Nat) (assignments : List Assignment) (selection : Option Expr) :
    AlwaysOk (updateTable now assignments selection) := by
  refine Returns.bind fun t => Returns.bind fun key => ?_
  cases key with
  | none => exact alwaysOk_updateScan _ _ _
  | some key =>
    refine Returns.bind fun t => ?_
    cases t.pkIndex.get key with
    | none => exact AlwaysOk.ok _ _
    | some ri =>
      show AlwaysOk (if ri < t.rows.length then _ else _)
      split
      · exact Returns.bind fun _ => AlwaysOk.ok _ _
      · exact AlwaysOk.ok _ _

theorem alwaysOk_updateTablePrepared (now : Nat) (assignments : List Assignment)
    (selection : Option Expr) (bound : List Value) :
    AlwaysOk (updateTablePrepared now assignments selection bound) := by
  refine Returns.bind fun t => Returns.bind fun key => ?_
  cases key with
  | none => exact alwaysOk_updateScan _ _ _
  | some key =>
    refine Returns.bind fun t => ?_
    cases t.pkIndex.get key with
    | none => exact AlwaysOk.ok _ _
    | some ri =>
      show AlwaysOk (if ri < t.rows.length then _ else _)
      split
      · exact Returns.bind fun _ => AlwaysOk.ok _ _
      · exact AlwaysOk.ok _ _

theorem alwaysOk_deleteTable (now : Nat) (selection : Option Expr) :
    AlwaysOk (deleteTable now selection) := by
  refine Returns.bind fun t => Returns.bind fun key => ?_
  dsimp only
  split
  · exact Returns.bind fun _ => Returns.bind fun _ => AlwaysOk.ok _ _
  · exact Returns.bind fun _ => Returns.bind fun _ => AlwaysOk.ok _ _

theorem alwaysOk_deleteTablePrepared (now : Nat) (selection : Option Expr) (bound : List Value) :
    AlwaysOk (deleteTablePrepared now selection bound) :=
  Returns.bind fun _ => Returns.bind fun _ => Returns.bind fun _ => AlwaysOk.ok _ _

theorem alwaysOk_truncateTable : AlwaysOk truncateTable :=
  Returns.bind fun _ => Returns.bind fun _ => AlwaysOk.ok _ _

/-- ALTER TABLE on a table that is there: whole when the operations before the
first failing one leave the table as it was. -/
theorem failsWhole_alter (db table noDb noTable : Str) (ops : List AlterTableOperation) (e : Engine) :
    FailsWhole (withTable db table noDb noTable (alterTable ops)) e ↔
      ∀ t, findTable e.databases db table noDb noTable = .ok t →
        ∀ t', failedAlter ops t = some t' → t' = t := by
  rw [FailsWhole, withTable, Prog.exec_mk]
  cases hFind : findTable e.databases db table noDb noTable with
  | error other => simp
  | ok t =>
    obtain ⟨r, hResult, hErr, -, hLeft⟩ := exec_alterTable ops t
    obtain ⟨d, hDb, hTable⟩ := findTable_ok hFind
    simp only [Except.ok.injEq, hResult, forall_eq', hErr, Option.isSome_iff_exists,
      forall_exists_index]
    refine forall_congr' fun t' => forall_congr' fun hFailed => ?_
    rw [hLeft t' hFailed]
    constructor
    · intro hSame
      have hGet := congrArg (fun s : Store => (HashMap.get s db).bind fun d => d.tables.get table) hSame
      simpa [Engine.modifyTables, hDb, hTable] using hGet
    · rintro rfl
      have hTables : (d.tables.modify table fun _ => t') = d.tables :=
        HashMap.modify_eq_self fun t hGet => by rw [hTable] at hGet; exact Option.some.inj hGet
      show (e.databases.modify db fun d => { d with tables := d.tables.modify table fun _ => t' }) =
        e.databases
      refine HashMap.modify_eq_self fun d' hDb' => ?_
      rw [hDb] at hDb'
      obtain rfl := Option.some.inj hDb'
      rw [hTables]

-- ---------------------------------------------------------------------------
-- Statements
-- ---------------------------------------------------------------------------

/-- The statements whose errors leave the databases as they were: all but a
DROP without IF EXISTS whose first name is there while another is missing or
named twice, and an ALTER TABLE that fails after an operation that changed the
table. -/
def Statement.failsWhole (currentDb : Option Str) (e : Engine) : Statement → Prop
  | .drop objectType names ifExists =>
    match objectType with
    | .table =>
      let targets := dropTargets (dbOrTest currentDb) names
      ifExists = true ∨ (∀ x, targets.head? = some x → Store.hasTable e.databases x = false) ∨
        targets.Nodup ∧ ∀ x ∈ targets, Store.hasTable e.databases x = true
    | .database | .schema =>
      let targets := dropDatabaseTargets names
      ifExists = true ∨ (∀ x, targets.head? = some x → e.databases.containsKey x = false) ∨
        targets.Nodup ∧ ∀ x ∈ targets, e.databases.containsKey x = true
    | .other _ => True
  | .alterTable name operations =>
    let (db, table) := resolveName (dbOrTest currentDb) (ObjectName.toString name)
    ∀ t, findTable e.databases db table [] [] = .ok t →
      ∀ t', failedAlter operations t = some t' → t' = t
  | _ => True

/-- A statement that writes nothing fails whole. -/
theorem failsWhole_of_not_writes {stmt : Statement} (h : stmt.writes = false) (now : Nat)
    (currentDb : Option Str) (e : Engine) : FailsWhole (execStmt now currentDb stmt) e := by
  intro r _ _
  rw [exec_of_not_writes stmt h]

theorem failsWhole_putNewTable (ifNotExists : Bool) (db : Str) (t : Table) (bump : Bool)
    (e : Engine) : FailsWhole (putNewTable ifNotExists db t bump) e := by
  intro r hResult hErr
  rw [putNewTable, Prog.exec_get_bind] at hResult ⊢
  cases hDb : e.databases.get db with
  | none => rfl
  | some d =>
    rw [hDb] at hResult
    by_cases hKeep : (ifNotExists && d.tables.containsKey t.name) = true
    · simp only [hKeep, if_true]
      rfl
    · simp only [hKeep, Bool.false_eq_true, if_false] at hResult
      cases bump with
      | true =>
        cases hResult
        cases hErr
      | false =>
        cases hResult
        cases hErr

theorem failsWhole_createTable (now : Nat) (currentDb : Option Str) (create : CreateTable)
    (e : Engine) : FailsWhole (execStmt now currentDb (.createTable create)) e := by
  rw [execStmt]
  cases create.query with
  | none => exact failsWhole_putNewTable _ _ _ _ e
  | some query =>
    intro r hResult hErr
    simp only [createTableAs, Prog.exec_bind, exec_runQuery] at hResult ⊢
    cases hSelect : select (e.env now) (dbOrTest currentDb) query with
    | error fault => rfl
    | ok qr =>
      rw [hSelect] at hResult
      simp only at hResult ⊢
      cases hRows : asTextRows qr with
      | error other => rfl
      | ok result =>
        rw [hRows] at hResult
        exact failsWhole_putNewTable _ _ _ _ e r hResult hErr

theorem failsWhole_insert (now : Nat) (dbName : Str) (ins : Insert) (e : Engine) :
    FailsWhole (insert now dbName ins.table.toString ins.source ins.replaceInto
      (ins.columns.map Ident.value)) e := by
  cases ins.source with
  | none => exact failsWhole_pure _ e
  | some source =>
    intro r hResult hErr
    rcases hTarget : insertTarget dbName ins.table.toString with ⟨db, table⟩
    have hSource := exec_sourceRows now db table source e
    simp only [insert, hTarget, Prog.exec_bind] at hResult ⊢
    rcases hRows : (sourceRows now db table source).exec e with ⟨_ | _ | rows, e'⟩ <;>
      rw [hRows] at hSource hResult <;> obtain rfl := hSource <;> simp only at hResult ⊢
    · rfl
    · have hWhole := failsWhole_withTable (alwaysOk_insertRows ins.replaceInto
        (ins.columns.map Ident.value) rows).noError db table (unknownDatabase db)
        (unknownTable (db ++ "." ++ table)) e'
      rw [FailsWhole] at hWhole
      rw [Prog.exec_bind] at hResult ⊢
      rcases hRun : (withTable db table (unknownDatabase db) (unknownTable (db ++ "." ++ table))
        (insertRows ins.replaceInto (ins.columns.map Ident.value) rows)).exec e' with ⟨_ | r', e''⟩ <;>
        rw [hRun] at hResult hWhole <;> simp only at hResult hWhole ⊢
      · cases hResult
      · cases r' with
        | ok count pkVal =>
          cases hResult
          cases hErr
        | err code message =>
          cases hResult
          exact hWhole _ rfl rfl
        | rows columns rows =>
          cases hResult
          cases hErr
        | valueRows columns rows =>
          cases hResult
          cases hErr

theorem failsWhole_execStmt (now : Nat) (currentDb : Option Str) (stmt : Statement) (e : Engine) :
    FailsWhole (execStmt now currentDb stmt) e ↔ stmt.failsWhole currentDb e := by
  by_cases hWrites : stmt.writes = false
  · refine iff_of_true (failsWhole_of_not_writes hWrites now currentDb e) ?_
    cases stmt <;> trivial
  · cases stmt with
    | createDatabase dbName =>
      refine iff_of_true (fun r hResult hErr => ?_) trivial
      cases hResult
      cases hErr
    | createTable create => exact iff_of_true (failsWhole_createTable now currentDb create e) trivial
    | insert ins => exact iff_of_true (failsWhole_insert now _ ins e) trivial
    | drop objectType names ifExists =>
      cases objectType with
      | table => exact failsWhole_drop hasTable_dropTable (drops_dropTables _ ifExists names e)
      | database => exact failsWhole_drop hasDatabase_remove (drops_dropDatabases ifExists names e)
      | schema => exact failsWhole_drop hasDatabase_remove (drops_dropDatabases ifExists names e)
      | other text => exact iff_of_true (failsWhole_pure _ e) trivial
    | update table assignments selection =>
      exact iff_of_true (failsWhole_withTable (alwaysOk_updateTable _ _ _).noError _ _ _ _ e) trivial
    | delete del =>
      exact iff_of_true (failsWhole_withTable (alwaysOk_deleteTable _ _).noError _ _ _ _ e) trivial
    | truncate tableNames =>
      exact iff_of_true (failsWhole_bumpIfOk.2
        (failsWhole_withTable alwaysOk_truncateTable.noError _ _ _ _ e)) trivial
    | alterTable name operations =>
      rcases hTarget : resolveName (dbOrTest currentDb) (ObjectName.toString name) with ⟨db, table⟩
      simp only [execStmt, alter, Statement.failsWhole, hTarget]
      refine failsWhole_bumpIfOk.trans ((failsWhole_alter _ _ _ _ operations e).trans ?_)
      refine forall_congr' fun t => ?_
      rw [findTable_ok_iff]
    | _ => exact absurd rfl hWrites

/-- **Statements that fail.** For every statement and every state, an error of
`exec_stmt` and an error of `exec_stmt_prepared` leave the databases as they
were exactly when the statement is no DROP or ALTER TABLE that fails after a
change. -/
theorem failsWhole_iff (now : Nat) (bound : List Value) (currentDb : Option Str) (stmt : Statement)
    (e : Engine) :
    (FailsWhole (execStmt now currentDb stmt) e ↔ stmt.failsWhole currentDb e) ∧
      (FailsWhole (execStmtPrepared now bound currentDb stmt) e ↔ stmt.failsWhole currentDb e) := by
  have hText := failsWhole_execStmt now currentDb stmt e
  refine ⟨hText, ?_⟩
  cases stmt with
  | query q => exact iff_of_true (fun _ _ _ => rfl) trivial
  | insert ins =>
    refine iff_of_true ?_ trivial
    rw [execStmtPrepared]
    cases ins.source with
    | none => exact failsWhole_pure _ e
    | some source =>
      rw [insertPrepared]
      cases source.body with
      | values rows => exact failsWhole_withTable (alwaysOk_insertRowsPrepared _).noError _ _ _ _ e
      | _ => exact failsWhole_pure _ e
  | update table assignments selection =>
    exact iff_of_true (failsWhole_withTable (alwaysOk_updateTablePrepared _ _ _ _).noError _ _ _ _ e) trivial
  | delete del =>
    exact iff_of_true (failsWhole_withTable (alwaysOk_deleteTablePrepared _ _ _).noError _ _ _ _ e) trivial
  | _ => exact hText

end Failures

-- ---------------------------------------------------------------------------
-- A DROP that stops half-way
-- ---------------------------------------------------------------------------

set_option maxRecDepth 2000

section HalfDone

local instance failuresPlatform : Platform := tablePlatform []

/-- `DROP TABLE t, u` without a table u: the error comes after t is gone. -/
theorem not_failsWhole :
    ¬ ∀ (now : Nat) (currentDb : Option Str) (stmt : Statement) (e : Engine),
      FailsWhole (execStmt now currentDb stmt) e := by
  intro hAll
  have hWhole := hAll 0 none (.drop .table [[⟨"t", none⟩], [⟨"u", none⟩]] false)
    { Engine.fresh [] with
      databases := HashMap.ofList
        [("test", ⟨"test", HashMap.ofList [("t", Table.create "test" "t" [] [])]⟩)] }
    (.err 1051 "Unknown table 'test.u'") (by decide +kernel) rfl
  have hThere := congrArg (fun s : Store => Store.hasTable s ("test", "t")) hWhole
  revert hThere
  decide +kernel

end HalfDone

end RunAlexDb
