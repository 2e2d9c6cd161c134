import RunAlexDb.Statement.Effects
import RunAlexDb.Statement.Views

/-!
# Calls — `execute` and `execute_prepared` through a view

What a call reads besides databases is the user table, the last insert id and
the answer of the statement cache for its text (`parseAnswer`). On engines that
agree on these and on the databases the call names, its result is the same.

Main results: `agree_execute` and `agree_executePrepared`.
-/

set_option linter.unusedSectionVars false

namespace RunAlexDb

open Text Platform
open Prog (Agree)

variable [Platform]

-- ---------------------------------------------------------------------------
-- The statement cache
-- ---------------------------------------------------------------------------

/-- What `parseCached` answers for a text. -/
def parseAnswer (e : Engine) (sql : Str) : Except Str (List Statement) :=
  match e.stmtCache.get (hashQuery sql) with
  | some stmts => .ok stmts
  | none =>
    match parseSql sql with
    | .error msg => .error ("Parse error: " ++ msg)
    | .ok stmts => .ok stmts

/-- The statement cache after `parseCached` has answered. -/
def cacheAfter (e : Engine) (sql : Str) : HashMap UInt64 (List Statement) :=
  match e.stmtCache.get (hashQuery sql) with
  | some _ => e.stmtCache
  | none =>
    match parseSql sql with
    | .error _ => e.stmtCache
    | .ok stmts =>
      (if 8192 < e.stmtCache.size then HashMap.empty else e.stmtCache).insert (hashQuery sql) stmts

/-- The engine after `parseCached` has answered: the statement cache may be
another. -/
def Engine.parsed (e : Engine) (sql : Str) : Engine := { e with stmtCache := cacheAfter e sql }

theorem exec_parseCached (e : Engine) (sql : Str) :
    (parseCached sql).exec e = (.ok (parseAnswer e sql), e.parsed sql) := by
  rw [parseCached, Prog.exec_get_bind, parseAnswer, Engine.parsed, cacheAfter]
  cases hCached : e.stmtCache.get (hashQuery sql) with
  | some stmts => simp only [hCached, Prog.exec_pure]
  | none =>
    cases hParse : parseSql sql with
    | error msg => simp only [hCached, Prog.exec_pure]
    | ok stmts => simp only [hCached, Prog.exec_set_bind, Prog.exec_pure]

/-- The statements of a text as the parser gives them. -/
def directParse (sql : Str) : Except Str (List Statement) :=
  match parseSql sql with
  | .error msg => .error ("Parse error: " ++ msg)
  | .ok stmts => .ok stmts

/-- The statement cache gives the texts of `texts` their own statements. -/
def Faithful (texts : Str → Prop) (e : Engine) : Prop :=
  ∀ sql, texts sql → parseAnswer e sql = directParse sql

/-- No two texts of `texts` share their hash. -/
def NoCollision (texts : Str → Prop) : Prop :=
  ∀ sql sql', texts sql → texts sql' → hashQuery sql = hashQuery sql' → sql = sql'

theorem parseAnswer_congr {e e' : Engine} (h : e.stmtCache = e'.stmtCache) (sql : Str) :
    parseAnswer e sql = parseAnswer e' sql := by
  rw [parseAnswer, parseAnswer, h]

/-- Without collisions parsing a text keeps the cache faithful. -/
theorem Faithful.parsed {texts : Str → Prop} {e : Engine} (h : Faithful texts e)
    (hHash : NoCollision texts) {sql : Str} (hSql : texts sql) : Faithful texts (e.parsed sql) := by
  have hSelf := h sql hSql
  rw [parseAnswer, directParse] at hSelf
  intro other hOther
  have hKeep := h other hOther
  rw [parseAnswer] at hKeep ⊢
  rw [Engine.parsed, cacheAfter]
  cases hCached : e.stmtCache.get (hashQuery sql) with
  | some stmts => exact hKeep
  | none =>
    cases hParse : parseSql sql with
    | error msg => exact hKeep
    | ok stmts =>
      simp only [HashMap.get_insert]
      by_cases hEq : hashQuery other = hashQuery sql
      · have hText := hHash other sql hOther hSql hEq
        rw [hText, directParse, hParse]
        simp
      · rw [if_neg hEq]
        by_cases hFull : 8192 < e.stmtCache.size
        · simp only [hFull, if_true, HashMap.get_empty]
          rfl
        · simp only [hFull, if_false]
          exact hKeep

-- ---------------------------------------------------------------------------
-- What a call runs
-- ---------------------------------------------------------------------------

theorem exec_execute_shortcut {sql : Str} {s : Shortcut}
    (h : shortcutOf (toUppercase (trim sql)) = some s) (now : Nat) (currentDb : Option Str)
    (userName : Str) :
    execute now sql currentDb userName = execShortcut sql (toUppercase (trim sql)) currentDb s := by
  simp only [execute, h]

theorem exec_execute_parsed {sql : Str} (h : shortcutOf (toUppercase (trim sql)) = none) (now : Nat)
    (currentDb : Option Str) (userName : Str) (e : Engine) :
    (execute now sql currentDb userName).exec e =
      match parseAnswer e sql with
      | .error msg => (.ok (.err 1064 msg), e.parsed sql)
      | .ok stmts =>
        match privilegeCheck e.users userName currentDb stmts with
        | some refusal => (.ok refusal, e.parsed sql)
        | none => (execBatch now currentDb (.ok 0 0) stmts).exec (e.parsed sql) := by
  simp only [execute, h]
  rw [Prog.exec_bind_ok (exec_parseCached e sql)]
  cases parseAnswer e sql with
  | error msg => rfl
  | ok stmts =>
    simp only [Prog.exec_get_bind, Engine.parsed]
    cases privilegeCheck e.users userName currentDb stmts <;> rfl

theorem exec_executePrepared (now : Nat) (sql : Str) (params : List (Option Str))
    (currentDb : Option Str) (userName : Str) (e : Engine) :
    (executePrepared now sql params currentDb userName).exec e =
      match parseAnswer e sql with
      | .error msg => (.ok (.err 1064 msg), e.parsed sql)
      | .ok stmts =>
        match privilegeCheck e.users userName currentDb stmts with
        | some refusal => (.ok refusal, e.parsed sql)
        | none =>
          (execBatchPrepared now (params.map bindParam) currentDb (.ok 0 0) stmts).exec
            (e.parsed sql) := by
  rw [executePrepared, Prog.exec_bind_ok (exec_parseCached e sql)]
  cases parseAnswer e sql with
  | error msg => rfl
  | ok stmts =>
    simp only [Prog.exec_get_bind, Engine.parsed]
    cases privilegeCheck e.users userName currentDb stmts <;> rfl

-- ---------------------------------------------------------------------------
-- The names of a call
-- ---------------------------------------------------------------------------

/-- The databases the statements of a batch name, USE taken into account. -/
def batchNames : Option Str → List Statement → List Str
  | _, [] => []
  | effDb, stmt :: rest =>
    stmt.names (stmt.effDb effDb) ++ batchNames (stmt.effDb effDb) rest

/-- A shortcut that goes over all databases. -/
def Shortcut.listsDatabases : Shortcut → Bool
  | .showDatabases | .infoTables | .infoColumns | .infoKeyColumnUsage | .infoStatistics
  | .infoSchemata => true
  | _ => false

/-- The account statements that write the user table. GRANT never gets there. -/
def Shortcut.writes : Shortcut → Bool
  | .createUser | .dropUser | .revoke => true
  | _ => false

/-- The database a shortcut looks up. -/
def Shortcut.names (sql : Str) (currentDb : Option Str) : Shortcut → List Str
  | .showTables => [dbOrTest currentDb]
  | .showIndex => [(resolveName (dbOrTest currentDb) (showIndexName sql)).1]
  | _ => []

-- ---------------------------------------------------------------------------
-- Shortcuts
-- ---------------------------------------------------------------------------

/-- Nothing but users and write generation differs. -/
structure UsersOnly (e e' : Engine) : Prop where
  databases : e'.databases = e.databases
  stmtCache : e'.stmtCache = e.stmtCache
  lastInsertId : e'.lastInsertId = e.lastInsertId

theorem UsersOnly.refl (e : Engine) : UsersOnly e e := ⟨rfl, rfl, rfl⟩

theorem usersOnly_execRevoke (sql : Str) (e : Engine) :
    UsersOnly e ((execRevoke sql).exec e).2 := by
  rw [execRevoke]
  split
  · exact UsersOnly.refl e
  · rename_i fromPos _
    rw [Prog.exec_bind, Prog.exec_ofExcept]
    cases revokeArgs sql fromPos with
    | error fault => exact UsersOnly.refl e
    | ok args =>
      simp only [Prog.exec_bind, onUsers, Prog.exec_mk, bumpIfOk]
      split
      · exact ⟨rfl, rfl, rfl⟩
      · exact ⟨rfl, rfl, rfl⟩

/-- Account statements on the user table: the rest stays. -/
theorem usersOnly_onUsers {α : Type} (args : Rust α)
    (f : α → HashMap Str DbUser → QueryResult × HashMap Str DbUser) (e : Engine) :
    UsersOnly e ((Prog.ofExcept args >>= fun a => onUsers (f a)).exec e).2 := by
  rw [Prog.exec_bind, Prog.exec_ofExcept]
  cases args with
  | error fault => exact UsersOnly.refl e
  | ok a => exact ⟨rfl, rfl, rfl⟩

/-- Reading shortcuts leave the engine as it is. -/
theorem exec_of_not_writes_shortcut {s : Shortcut} (h : s.writes = false) (sql u : Str)
    (currentDb : Option Str) (e : Engine) : ((execShortcut sql u currentDb s).exec e).2 = e := by
  cases s with
  | createUser => cases h
  | dropUser => cases h
  | revoke => cases h
  | grant => rw [execShortcut, execGrant]; split <;> rfl
  | showGrants =>
    rw [execShortcut, execShowGrants, Prog.exec_bind, Prog.exec_ofExcept]
    cases showGrantsArg (trim sql) <;> rfl
  | _ => rfl

theorem usersOnly_execShortcut (sql u : Str) (currentDb : Option Str) (s : Shortcut) (e : Engine) :
    UsersOnly e ((execShortcut sql u currentDb s).exec e).2 := by
  by_cases hWrites : s.writes = false
  · rw [exec_of_not_writes_shortcut hWrites]
    exact UsersOnly.refl e
  · cases s with
    | createUser => exact usersOnly_onUsers _ _ e
    | dropUser => exact usersOnly_onUsers _ _ e
    | revoke => exact usersOnly_execRevoke _ e
    | _ => exact absurd rfl hWrites

section Shortcuts

variable {V : View}

theorem agree_onUsers (f : HashMap Str DbUser → QueryResult × HashMap Str DbUser) :
    Agree V.Same (onUsers f) (onUsers f) := by
  intro e e' h
  rw [onUsers, Prog.exec_mk, Prog.exec_mk, h.users]
  exact ⟨rfl, rfl, h.lastInsertId, h.databases⟩

/-- A shortcut that reads the engine and changes nothing. -/
theorem agree_read {f : Engine → Rust QueryResult} (h : ∀ e e', V.Same e e' → f e = f e') :
    Agree V.Same (do let e ← get; Prog.ofExcept (f e)) (do let e ← get; Prog.ofExcept (f e)) := by
  refine Agree.get_bind fun e e' hSame => ?_
  rw [h e e' hSame]
  exact Agree.ofExcept _

theorem agree_execRevoke (sql : Str) : Agree V.Same (execRevoke sql) (execRevoke sql) := by
  rw [execRevoke]
  split
  · exact Agree.pure _
  · exact Agree.bind (Agree.ofExcept _) fun _ => Agree.bind (agree_onUsers _) agree_bumpIfOk

theorem agree_execGrant (sql : Str) : Agree V.Same (execGrant sql) (execGrant sql) := by
  rw [execGrant]
  split
  · exact Agree.throw _
  · exact Agree.pure _

theorem agree_execShowGrants (sql : Str) :
    Agree V.Same (execShowGrants sql) (execShowGrants sql) :=
  Agree.bind (Agree.ofExcept _) fun forUser =>
    agree_read (f := fun e => pure (showGrants e.users forUser)) fun _ _ h => by rw [h.users]

theorem showTables_congr {e e' : Engine} {currentDb : Option Str} (h : V.Same e e')
    (hSees : V.sees (dbOrTest currentDb)) :
    showTables e.databases currentDb = showTables e'.databases currentDb := by
  rw [showTables, showTables, V.get_eq h.databases hSees]

theorem showIndex_congr {e e' : Engine} {currentDb : Option Str} {sql : Str} (h : V.Same e e')
    (hSees : V.sees (resolveName (dbOrTest currentDb) (showIndexName sql)).1) :
    showIndex e.databases currentDb sql = showIndex e'.databases currentDb sql := by
  simp only [showIndex, h.findTable hSees]

/-- A shortcut agrees when the view sees the databases it looks up, and all of
them when it lists them. -/
theorem agree_execShortcut (sql u : Str) (currentDb : Option Str) (s : Shortcut)
    (hNames : ∀ d ∈ s.names sql currentDb, V.sees d)
    (hLists : s.listsDatabases = true → ∀ a b, V.rel a b → a = b) :
    Agree V.Same (execShortcut sql u currentDb s) (execShortcut sql u currentDb s) := by
  have hAll : s.listsDatabases = true → ∀ e e', V.Same e e' → e.databases = e'.databases :=
    fun hs e e' h => hLists hs _ _ h.databases
  cases s with
  | createUser => exact Agree.bind (Agree.ofExcept _) fun _ => agree_onUsers _
  | dropUser => exact Agree.bind (Agree.ofExcept _) fun _ => agree_onUsers _
  | grant => exact agree_execGrant _
  | revoke => exact agree_execRevoke _
  | showGrants => exact agree_execShowGrants _
  | showUsers => exact agree_read (f := fun e => pure _) fun _ _ h => by rw [h.users]
  | showDatabases => exact agree_read (f := fun e => pure _) fun _ _ h => by rw [hAll rfl _ _ h]
  | showTables =>
    exact agree_read (f := fun e => pure _) fun _ _ h => by
      rw [showTables_congr h (hNames _ (List.mem_singleton_self _))]
  | lastInsertId => exact agree_read (f := fun e => pure _) fun _ _ h => by rw [h.lastInsertId]
  | infoTables => exact agree_read (f := fun e => pure _) fun _ _ h => by rw [hAll rfl _ _ h]
  | infoColumns => exact agree_read (f := fun e => pure _) fun _ _ h => by rw [hAll rfl _ _ h]
  | infoKeyColumnUsage => exact agree_read fun _ _ h => by rw [hAll rfl _ _ h]
  | infoStatistics => exact agree_read fun _ _ h => by rw [hAll rfl _ _ h]
  | infoSchemata => exact agree_read (f := fun e => pure _) fun _ _ h => by rw [hAll rfl _ _ h]
  | showIndex =>
    exact agree_read fun _ _ h => showIndex_congr h (hNames _ (List.mem_singleton_self _))
  | selectSysvar => exact Agree.ofExcept _
  | showCreateDatabase => exact Agree.ofExcept _
  | selectOne => exact Agree.pure _
  | selectVersion => exact Agree.pure _
  | selectDatabase => exact Agree.pure _
  | ignored => exact Agree.pure _
  | showVariables => exact Agree.pure _
  | showProcesslist => exact Agree.pure _
  | showWarnings => exact Agree.pure _
  | showStatus => exact Agree.pure _

end Shortcuts

-- ---------------------------------------------------------------------------
-- Batches and calls
-- ---------------------------------------------------------------------------

theorem agree_execBatch (V : View) (now : Nat) (effDb : Option Str) (last : QueryResult)
    (stmts : List Statement) (hNames : ∀ d ∈ batchNames effDb stmts, V.sees d) :
    Agree V.Same (execBatch now effDb last stmts) (execBatch now effDb last stmts) := by
  induction stmts generalizing effDb last with
  | nil => exact Agree.pure _
  | cons stmt rest ih =>
    have hStmt := agree_execStmt V now (stmt.effDb effDb) stmt fun d hd =>
      hNames d (List.mem_append_left _ hd)
    refine Agree.bind hStmt fun r => Agree.bind (agree_bumpIfOk r) fun last => ?_
    exact ih _ _ fun d hd => hNames d (List.mem_append_right _ hd)

theorem agree_execBatchPrepared (V : View) (now : Nat) (bound : List Value)
    (currentDb : Option Str) (last : QueryResult) (stmts : List Statement)
    (hNames : ∀ stmt ∈ stmts, ∀ d ∈ stmt.namesPrepared currentDb, V.sees d) :
    Agree V.Same (execBatchPrepared now bound currentDb last stmts)
      (execBatchPrepared now bound currentDb last stmts) := by
  induction stmts generalizing last with
  | nil => exact Agree.pure _
  | cons stmt rest ih =>
    have hStmt := agree_execStmtPrepared V now bound currentDb stmt
      (hNames stmt (List.mem_cons_self ..))
    exact Agree.bind hStmt fun last => ih last fun s hs => hNames s (List.mem_cons_of_mem _ hs)

theorem View.Same.parsed {V : View} {e e' : Engine} (h : V.Same e e') (sql : Str) :
    V.Same (e.parsed sql) (e'.parsed sql) := ⟨h.users, h.lastInsertId, h.databases⟩

/-- The databases `execute` names for a text. -/
def executeNames (e : Engine) (sql : Str) (currentDb : Option Str) : List Str :=
  match shortcutOf (toUppercase (trim sql)) with
  | some s => s.names sql currentDb
  | none =>
    match parseAnswer e sql with
    | .error _ => []
    | .ok stmts => batchNames currentDb stmts

/-- The text lists all databases. -/
def listsDatabases (sql : Str) : Bool :=
  (shortcutOf (toUppercase (trim sql))).elim false Shortcut.listsDatabases

/-- **A call of `execute` sees only what it names.** -/
theorem agree_execute (V : View) (now : Nat) {sql : Str} (currentDb : Option Str) (userName : Str)
    {e e' : Engine} (h : V.Same e e')
    (hParse : (shortcutOf (toUppercase (trim sql))).isSome = true ∨ parseAnswer e sql = parseAnswer e' sql)
    (hNames : ∀ d ∈ executeNames e sql currentDb, V.sees d)
    (hLists : listsDatabases sql = true → ∀ a b, V.rel a b → a = b) :
    ((execute now sql currentDb userName).exec e).1 = ((execute now sql currentDb userName).exec e').1 ∧
      V.Same ((execute now sql currentDb userName).exec e).2
        ((execute now sql currentDb userName).exec e').2 := by
  rw [executeNames] at hNames
  rw [listsDatabases] at hLists
  cases hShort : shortcutOf (toUppercase (trim sql)) with
  | some s =>
    rw [hShort] at hNames hLists
    rw [exec_execute_shortcut hShort]
    exact agree_execShortcut _ _ _ s hNames hLists e e' h
  | none =>
    rw [hShort] at hNames
    have hAnswer : parseAnswer e sql = parseAnswer e' sql := by simpa [hShort] using hParse
    rw [exec_execute_parsed hShort, exec_execute_parsed hShort, ← hAnswer, ← h.users]
    cases hStmts : parseAnswer e sql with
    | error msg => exact ⟨rfl, h.parsed sql⟩
    | ok stmts =>
      simp only [hStmts] at hNames
      simp only
      cases privilegeCheck e.users userName currentDb stmts with
      | some refusal => exact ⟨rfl, h.parsed sql⟩
      | none => exact agree_execBatch V now currentDb _ stmts hNames _ _ (h.parsed sql)

/-- The same for `execute_prepared`. -/
theorem agree_executePrepared (V : View) (now : Nat) {sql : Str} (params : List (Option Str))
    (currentDb : Option Str) (userName : Str) {e e' : Engine} (h : V.Same e e')
    (hParse : parseAnswer e sql = parseAnswer e' sql)
    (hNames : ∀ stmts, parseAnswer e sql = .ok stmts →
      ∀ stmt ∈ stmts, ∀ d ∈ stmt.namesPrepared currentDb, V.sees d) :
    ((executePrepared now sql params currentDb userName).exec e).1 =
        ((executePrepared now sql params currentDb userName).exec e').1 ∧
      V.Same ((executePrepared now sql params currentDb userName).exec e).2
        ((executePrepared now sql params currentDb userName).exec e').2 := by
  rw [exec_executePrepared, exec_executePrepared, ← hParse, ← h.users]
  cases hStmts : parseAnswer e sql with
  | error msg => exact ⟨rfl, h.parsed sql⟩
  | ok stmts =>
    simp only
    cases privilegeCheck e.users userName currentDb stmts with
    | some refusal => exact ⟨rfl, h.parsed sql⟩
    | none =>
      exact agree_execBatchPrepared V now _ currentDb _ stmts (hNames stmts hStmts) _ _ (h.parsed sql)

end RunAlexDb
