import RunAlexDb.Statement.Interception

/-!
# PreparedText — a prepared statement and its text

What is compared when a call of `execute_prepared` is held against the call of
`execute` with the text in which the `?` are literals: result, databases and
last insert id.
-/

set_option linter.unusedSectionVars false

namespace RunAlexDb

open Text Platform

variable [Platform]

-- ---------------------------------------------------------------------------
-- Outcomes of calls
-- ---------------------------------------------------------------------------

/-- Result, databases and last insert id after a call. -/
def outcome (x : Except Fault QueryResult × Engine) : Except Fault QueryResult × Store × UInt64 :=
  (x.1, x.2.databases, x.2.lastInsertId)

theorem exec_executePrepared_one {e : Engine} {sql : Str} {stmt : Statement}
    (hParse : parseAnswer e sql = .ok [stmt]) (now : Nat) (params : List (Option Str))
    (currentDb : Option Str) (userName : Str) :
    (executePrepared now sql params currentDb userName).exec e =
      match privilegeCheck e.users userName currentDb [stmt] with
      | some refusal => (.ok refusal, e.parsed sql)
      | none => (execStmtPrepared now (params.map bindParam) currentDb stmt).exec (e.parsed sql) := by
  rw [exec_executePrepared, hParse]
  simp only []
  cases privilegeCheck e.users userName currentDb [stmt] with
  | some refusal => rfl
  | none =>
    show (execStmtPrepared now (params.map bindParam) currentDb stmt >>= fun last =>
      pure last).exec (e.parsed sql) = _
    rw [Prog.exec_bind]
    rcases (execStmtPrepared now (params.map bindParam) currentDb stmt).exec (e.parsed sql) with
      ⟨_ | _, _⟩ <;> rfl

/-- The text moves the write generation besides. -/
theorem outcome_execute_one {e : Engine} {sql : Str} {stmt : Statement}
    (hOrdinary : Ordinary (toUppercase (trim sql))) (hParse : parseAnswer e sql = .ok [stmt])
    (now : Nat) (currentDb : Option Str) (userName : Str) :
    outcome ((execute now sql currentDb userName).exec e) =
      match privilegeCheck e.users userName currentDb [stmt] with
      | some refusal => (.ok refusal, e.databases, e.lastInsertId)
      | none => outcome ((execStmt now (stmt.effDb currentDb) stmt).exec (e.parsed sql)) := by
  rw [exec_execute_ordinary hOrdinary now currentDb userName hParse, carryOut]
  cases privilegeCheck e.users userName currentDb [stmt] with
  | some refusal => rfl
  | none =>
    show outcome ((execStmt now (stmt.effDb currentDb) stmt >>= fun r => bumpIfOk r >>= fun last =>
      pure last).exec (e.parsed sql)) = _
    rw [Prog.exec_bind]
    rcases (execStmt now (stmt.effDb currentDb) stmt).exec (e.parsed sql) with ⟨_ | r, e'⟩
    · rfl
    · simp only [Prog.exec_bind, bumpIfOk]
      cases r.isOk <;> rfl

/-- A text that never reaches the parser gives a built-in answer. -/
theorem outcome_execute_builtin {sql : Str} (h : ¬Ordinary (toUppercase (trim sql))) {now : Nat}
    {currentDb : Option Str} {userName : Str} {e : Engine} {r : QueryResult}
    (hResult : (outcome ((execute now sql currentDb userName).exec e)).1 = .ok r) : BuiltinAnswer r := by
  cases hShort : shortcutOf (toUppercase (trim sql)) with
  | none => exact absurd ((shortcutOf_eq_none_iff _).1 hShort) h
  | some s =>
    rw [exec_execute_shortcut hShort] at hResult
    exact builtin_execShortcut _ _ _ _ _ _ hResult

/-- A refusal is no built-in answer. -/
theorem not_builtin_refusal {users : HashMap Str DbUser} {userName : Str} {currentDb : Option Str}
    {stmts : List Statement} {refusal : QueryResult}
    (h : privilegeCheck users userName currentDb stmts = some refusal) : ¬BuiltinAnswer refusal := by
  rw [privilegeCheck] at h
  split at h
  · cases h
  · simp only at h
    split at h
    · obtain rfl := Option.some.inj h
      rintro (hCode | hCode | hCode) <;> cases hCode
    · split at h
      · obtain rfl := Option.some.inj h
        rintro (hCode | hCode | hCode) <;> cases hCode
      · cases h

-- ---------------------------------------------------------------------------
-- Work on one table
-- ---------------------------------------------------------------------------

/-- `withTable` on the databases alone. -/
def actOn (s : Store) (db table noDb noTable : Str) (act : TableM QueryResult) :
    Except Fault QueryResult × Store :=
  match findTable s db table noDb noTable with
  | .error other => (.ok other, s)
  | .ok t =>
    ((act.exec t).1, s.modifyTables db fun tables => tables.modify table fun _ => (act.exec t).2)

theorem exec_withTable (db table noDb noTable : Str) (act : TableM QueryResult) (e : Engine) :
    (withTable db table noDb noTable act).exec e =
      ((actOn e.databases db table noDb noTable act).1,
        { e with databases := (actOn e.databases db table noDb noTable act).2 }) := by
  rw [withTable, Prog.exec_mk, actOn]
  cases findTable e.databases db table noDb noTable <;> rfl

/-- A table of the databases, if it is there. -/
def Store.table? (s : Store) (db table : Str) : Option Table :=
  (HashMap.get s db).bind fun d => d.tables.get table

theorem table?_modifyTables (s : Store) (db table db' table' : Str) (t : Table) :
    (s.modifyTables db fun tables => tables.modify table fun _ => t).table? db' table' =
      if db' = db ∧ table' = table then (s.table? db' table').map fun _ => t
      else s.table? db' table' := by
  rw [Store.table?, Store.table?, Store.modifyTables, HashMap.get_modify]
  by_cases hDb : db' = db
  · rw [if_pos hDb]
    cases HashMap.get s db' with
    | none => simp
    | some d =>
      show (d.tables.modify table fun _ => t).get table' = _
      rw [HashMap.get_modify]
      by_cases hTable : table' = table
      · rw [if_pos hTable, if_pos ⟨hDb, hTable⟩]
        rfl
      · rw [if_neg hTable, if_neg fun h => hTable h.2]
        rfl
  · rw [if_neg hDb, if_neg fun h => hDb h.1]

/-- A missing database, a missing table, or work on the table. -/
theorem actOn_cases (s : Store) (db table noDb noTable : Str) (act : TableM QueryResult) :
    (s.table? db table = none ∧ (actOn s db table noDb noTable act = (.ok (.err 1049 noDb), s) ∨
        actOn s db table noDb noTable act = (.ok (.err 1146 noTable), s))) ∨
      ∃ t, s.table? db table = some t ∧ actOn s db table noDb noTable act =
        ((act.exec t).1, s.modifyTables db fun tables => tables.modify table fun _ =>
          (act.exec t).2) := by
  rw [actOn, findTable, Store.table?]
  cases HashMap.get s db with
  | none => exact .inl ⟨rfl, .inl rfl⟩
  | some d =>
    simp only [Option.bind_some]
    cases d.tables.get table with
    | none => exact .inl ⟨rfl, .inr rfl⟩
    | some t => exact .inr ⟨t, rfl, rfl⟩

/-- A program that reports no error. -/
def ReportsNoError (act : TableM QueryResult) : Prop :=
  ∀ t r, (act.exec t).1 = .ok r → r.isErr = false

/-- Programs that report no error themselves do the same when both tables are
there: the errors of missing ones have different texts. -/
theorem actOn_eq_found {s : Store} {db table db' table' noDb noTable noDb' noTable' : Str}
    {act act' : TableM QueryResult} (hAct : ReportsNoError act) (hAct' : ReportsNoError act')
    (hDb : noDb ≠ noDb') (hTable : noTable ≠ noTable')
    (h : actOn s db table noDb noTable act = actOn s db' table' noDb' noTable' act') :
    ∃ t t', s.table? db table = some t ∧ s.table? db' table' = some t' ∧
      (act.exec t).1 = (act'.exec t').1 ∧
        (s.modifyTables db fun tables => tables.modify table fun _ => (act.exec t).2) =
          s.modifyTables db' fun tables => tables.modify table' fun _ => (act'.exec t').2 := by
  rcases actOn_cases s db table noDb noTable act with ⟨-, hNone⟩ | ⟨t, hThere, hFound⟩ <;>
    rcases actOn_cases s db' table' noDb' noTable' act' with ⟨-, hNone'⟩ | ⟨t', hThere', hFound'⟩
  · exfalso
    rcases hNone with hNone | hNone <;> rcases hNone' with hNone' | hNone' <;>
      rw [hNone, hNone'] at h
    · exact hDb (QueryResult.err.inj (Except.ok.inj (Prod.mk.inj h).1)).2
    · cases (QueryResult.err.inj (Except.ok.inj (Prod.mk.inj h).1)).1
    · cases (QueryResult.err.inj (Except.ok.inj (Prod.mk.inj h).1)).1
    · exact hTable (QueryResult.err.inj (Except.ok.inj (Prod.mk.inj h).1)).2
  · exfalso
    rw [hFound'] at h
    rcases hNone with hNone | hNone <;> rw [hNone] at h <;>
      cases hAct' t' _ (Prod.mk.inj h).1.symm
  · exfalso
    rw [hFound] at h
    rcases hNone' with hNone' | hNone' <;> rw [hNone'] at h <;>
      cases hAct t _ (Prod.mk.inj h).1
  · rw [hFound, hFound'] at h
    exact ⟨t, t', hThere, hThere', (Prod.mk.inj h).1, (Prod.mk.inj h).2⟩

/-- A table that changes is the table that changes on the other side. -/
theorem modifyTables_inj {s : Store} {db table db' table' : Str} {t t₁ t₁' : Table}
    (hThere : s.table? db table = some t) (hChanged : t₁ ≠ t)
    (h : (s.modifyTables db fun tables => tables.modify table fun _ => t₁) =
      s.modifyTables db' fun tables => tables.modify table' fun _ => t₁') :
    (db = db' ∧ table = table') ∧ t₁ = t₁' := by
  have hLooked := congrArg (fun s : Store => s.table? db table) h
  simp only [table?_modifyTables, hThere, and_self, if_true, Option.map_some] at hLooked
  by_cases hSame : db = db' ∧ table = table'
  · rw [if_pos hSame] at hLooked
    exact ⟨hSame, Option.some.inj hLooked⟩
  · rw [if_neg hSame] at hLooked
    exact absurd (Option.some.inj hLooked) hChanged

theorem actOn_found {s : Store} {db table : Str} {t : Table} (h : s.table? db table = some t)
    (noDb noTable : Str) (act : TableM QueryResult) :
    actOn s db table noDb noTable act = ((act.exec t).1,
      s.modifyTables db fun tables => tables.modify table fun _ => (act.exec t).2) := by
  rcases actOn_cases s db table noDb noTable act with ⟨hNone, -⟩ | ⟨t', hThere, hFound⟩
  · rw [hNone] at h
    cases h
  · rw [h] at hThere
    rw [hFound, Option.some.inj hThere]

/-- An engine whose database `test` has the one table. -/
def Engine.ofTable (t : Table) : Engine where
  databases := HashMap.ofList [("test", ⟨"test", HashMap.ofList [(t.name, t)]⟩)]
  users := HashMap.empty
  writeGen := 0
  lastInsertId := 0
  stmtCache := HashMap.empty

end RunAlexDb
