import RunAlexDb.Model.Concrete
import RunAlexDb.Model.Server
import RunAlexDb.Statement.Runs

/-!
# ResultCache — the session with and without its result cache

`Conn.queryStep` is the command loop on one COM_QUERY text, `Conn.plainStep`
the same loop without the cache. The cache answers a text again when its hash
and the write generation are those of the last answer that was no error; it
looks neither at the kind of the statement nor at the selected database.

Main result: `queryStep_run_eq`, the two loops agree on sessions whose cached
answers are those of texts that write nothing, in a state that has not changed
since.
-/

set_option linter.unusedSectionVars false

namespace RunAlexDb

open Text Platform

section Cache

variable [Platform]

-- ---------------------------------------------------------------------------
-- The two loops
-- ---------------------------------------------------------------------------

/-- A query of the loop without the cache. -/
def plainQuery (now : Nat) (sql : Str) : ConnM Unit :=
  if isSelectOne sql then send select1Response
  else do
    takeUse sql
    match txnControl sql with
    | some t => handleTxn t
    | none => do
      let result ← callExecute now sql
      send (buildResult result 1)

/-- One COM_QUERY of the loop without the cache. -/
def Conn.plainStep (c : Conn) (q : Nat × Str) : Conn :=
  if c.phase = .command then c.run (plainQuery q.1 q.2) else c

def Event.reply? : Event → Option Bytes
  | .reply out => some out
  | _ => none

/-- The answers of the session so far. -/
def Conn.replies (c : Conn) : List Bytes := c.events.filterMap Event.reply?

-- ---------------------------------------------------------------------------
-- Texts
-- ---------------------------------------------------------------------------

/-- The clock makes no difference to the statements of a text. -/
def ClockFree (sql : Str) : Prop :=
  ∀ stmts, directParse sql = .ok stmts → ∀ stmt ∈ stmts, ∀ now now' currentDb,
    execStmt now currentDb stmt = execStmt now' currentDb stmt

/-- A text that writes nothing. -/
def ReadOnly (sql : Str) : Prop :=
  match shortcutOf (toUppercase (trim sql)) with
  | some s => s.writes = false
  | none => ∀ stmts, directParse sql = .ok stmts → ∀ stmt ∈ stmts, stmt.writes = false

-- ---------------------------------------------------------------------------
-- What a call leaves
-- ---------------------------------------------------------------------------

variable {texts : Str → Prop}

theorem Faithful.congr {e e' : Engine} (h : Faithful texts e) (hCache : e'.stmtCache = e.stmtCache) :
    Faithful texts e' := fun sql hSql => by
  rw [parseAnswer_congr hCache]
  exact h sql hSql

theorem Faithful.execute {e : Engine} (h : Faithful texts e) (hHash : NoCollision texts) {sql : Str}
    (hSql : texts sql) (now : Nat) (currentDb : Option Str) (userName : Str) :
    Faithful texts ((execute now sql currentDb userName).exec e).2 := by
  cases hShort : shortcutOf (toUppercase (trim sql)) with
  | some s =>
    rw [exec_execute_shortcut hShort]
    exact h.congr (usersOnly_execShortcut _ _ _ s e).stmtCache
  | none =>
    have hParsed := h.parsed hHash hSql
    rw [exec_execute_parsed hShort]
    cases parseAnswer e sql with
    | error msg => exact hParsed
    | ok stmts =>
      simp only
      cases privilegeCheck e.users userName currentDb stmts with
      | some refusal => exact hParsed
      | none =>
        obtain ⟨effs, hWrote⟩ := wrote_execBatch now currentDb (.ok 0 0) stmts (e.parsed sql)
        exact hParsed.congr hWrote.stmtCache

/-- A text that writes nothing leaves users, databases and last insert id. -/
theorem same_execute {sql : Str} (hRead : ReadOnly sql) {e : Engine}
    (hParse : parseAnswer e sql = directParse sql) (now : Nat) (currentDb : Option Str)
    (userName : Str) : View.all.Same ((execute now sql currentDb userName).exec e).2 e := by
  rw [ReadOnly] at hRead
  cases hShort : shortcutOf (toUppercase (trim sql)) with
  | some s =>
    rw [hShort] at hRead
    rw [exec_execute_shortcut hShort, exec_of_not_writes_shortcut hRead]
    exact ⟨rfl, rfl, rfl⟩
  | none =>
    rw [hShort] at hRead
    rw [exec_execute_parsed hShort, hParse]
    cases hStmts : directParse sql with
    | error msg => exact ⟨rfl, rfl, rfl⟩
    | ok stmts =>
      simp only
      cases privilegeCheck e.users userName currentDb stmts with
      | some refusal => exact ⟨rfl, rfl, rfl⟩
      | none =>
        obtain ⟨jobs, hPrefix, hRun⟩ := exec_execBatch now currentDb (.ok 0 0) stmts (e.parsed sql)
        have hReads : ∀ j ∈ jobs, j.statement.writes = false := fun j hj =>
          hRead stmts hStmts _ (mem_textJobs (hPrefix.subset hj))
        rw [hRun]
        exact (same_jobs hReads _).trans ⟨rfl, rfl, rfl⟩

theorem execBatch_clock (now now' : Nat) (effDb : Option Str) (last : QueryResult)
    (stmts : List Statement)
    (hClock : ∀ stmt ∈ stmts, ∀ currentDb, execStmt now currentDb stmt = execStmt now' currentDb stmt) :
    execBatch now effDb last stmts = execBatch now' effDb last stmts := by
  induction stmts generalizing effDb last with
  | nil => rfl
  | cons stmt rest ih =>
    rw [execBatch, execBatch, hClock stmt (List.mem_cons_self ..)]
    have hRest : ∀ last, execBatch now (stmt.effDb effDb) last rest =
        execBatch now' (stmt.effDb effDb) last rest :=
      fun last => ih _ last fun s hs => hClock s (List.mem_cons_of_mem _ hs)
    simp only [hRest]

theorem exec_execute_clock {sql : Str} (hClock : ClockFree sql) {e : Engine}
    (hParse : parseAnswer e sql = directParse sql) (now now' : Nat) (currentDb : Option Str)
    (userName : Str) :
    (execute now sql currentDb userName).exec e = (execute now' sql currentDb userName).exec e := by
  cases hShort : shortcutOf (toUppercase (trim sql)) with
  | some s => rw [exec_execute_shortcut hShort, exec_execute_shortcut hShort]
  | none =>
    rw [exec_execute_parsed hShort, exec_execute_parsed hShort, hParse]
    cases hStmts : directParse sql with
    | error msg => rfl
    | ok stmts =>
      simp only
      rw [execBatch_clock now now' currentDb _ stmts fun stmt hMem db => hClock stmts hStmts stmt hMem _ _ db]

-- ---------------------------------------------------------------------------
-- What the cache was filled by
-- ---------------------------------------------------------------------------

/-- The text that filled the cache, the database it ran in and the engine it
left. -/
structure Fill where
  sql : Str
  currentDb : Option Str
  engine : Engine

/-- A session with the last fill of its cache. -/
structure Tracked where
  conn : Conn
  fill : Option Fill

/-- The session when it looks at its cache: USE has been taken. -/
def Conn.used (c : Conn) (sql : Str) : Conn := ((takeUse sql).exec c).2

/-- The loop comes to the cache with this text. -/
def reachesCache (sql : Str) : Bool := !isSelectOne sql && (txnControl sql).isNone

/-- The fill an execution of the text makes. -/
def Conn.fillBy (c : Conn) (now : Nat) (sql : Str) : Option Fill :=
  match (execute now sql c.currentDb c.effectiveUser).exec c.engine with
  | (.ok r, e) => if r.isErr then none else some ⟨sql, c.currentDb, e⟩
  | (.error _, _) => none

def Tracked.step (t : Tracked) (q : Nat × Str) : Tracked where
  conn := t.conn.queryStep q
  fill :=
    if reachesCache q.2 && ((t.conn.used q.2).l0Hit q.2).isNone then
      ((t.conn.used q.2).fillBy q.1 q.2).or t.fill
    else t.fill

/-- A text is answered from the cache only if it writes nothing and database,
tables, users and last insert id are as right after the cache was filled. -/
def HitIsRead (t : Tracked) (q : Nat × Str) : Prop :=
  reachesCache q.2 = true → ((t.conn.used q.2).l0Hit q.2).isSome = true → ∀ f ∈ t.fill,
    ReadOnly q.2 ∧ f.currentDb = (t.conn.used q.2).currentDb ∧
      View.all.Same f.engine (t.conn.used q.2).engine

-- ---------------------------------------------------------------------------
-- The two loops side by side
-- ---------------------------------------------------------------------------

/-- The session with the cache and the one without, as far as a client sees
them. -/
structure Agrees (texts : Str → Prop) (c p : Conn) : Prop where
  phase : c.phase = p.phase
  currentDb : c.currentDb = p.currentDb
  txnSnapshot : c.txnSnapshot = p.txnSnapshot
  effectiveUser : c.effectiveUser = p.effectiveUser
  replies : c.replies = p.replies
  engine : View.all.Same c.engine p.engine
  faithful : Faithful texts c.engine
  faithful' : Faithful texts p.engine

/-- The cached answer is what executing the text of the fill gave. -/
structure FilledBy (texts : Str → Prop) (user : Str) (f : Fill) (out : Bytes) : Prop where
  text : texts f.sql
  run : ∃ now r e, Faithful texts e ∧
    (execute now f.sql f.currentDb user).exec e = (.ok r, f.engine) ∧ out = buildResult r 1

/-- What the cache holds goes back to its last fill. -/
def CacheInv (texts : Str → Prop) (c : Conn) (fill : Option Fill) : Prop :=
  ∀ out, c.l0Bytes = some out → ∃ f, fill = some f ∧ c.l0Hash = hashQuery f.sql ∧
    FilledBy texts c.effectiveUser f out

theorem replies_append (c : Conn) (evs : List Event) :
    Conn.replies { c with events := c.events ++ evs } = c.replies ++ evs.filterMap Event.reply? :=
  List.filterMap_append ..

theorem Agrees.replied {c p : Conn} (h : Agrees texts c p) (out : Bytes) :
    Agrees texts (c.run (send out)) (p.run (send out)) := by
  have hReplies : Conn.replies { c with events := c.events ++ [.reply out] } =
      Conn.replies { p with events := p.events ++ [.reply out] } := by
    rw [replies_append, replies_append, h.replies]
  exact ⟨h.phase, h.currentDb, h.txnSnapshot, h.effectiveUser, hReplies, h.engine, h.faithful,
    h.faithful'⟩

/-- Two sessions that both panic are both closed. -/
theorem Agrees.closed {c p : Conn} (h : Agrees texts c p) :
    Agrees texts { c with phase := .closed } { p with phase := .closed } :=
  ⟨rfl, h.currentDb, h.txnSnapshot, h.effectiveUser, h.replies, h.engine, h.faithful, h.faithful'⟩

theorem Agrees.used {c p : Conn} (h : Agrees texts c p) (sql : Str) :
    Agrees texts (c.used sql) (p.used sql) := by
  rw [Conn.used, Conn.used, exec_takeUse, exec_takeUse]
  cases useTarget sql with
  | error fault => exact h
  | ok target =>
    have hDb : target.or c.currentDb = target.or p.currentDb := by rw [h.currentDb]
    exact ⟨h.phase, hDb, h.txnSnapshot, h.effectiveUser, h.replies, h.engine, h.faithful,
      h.faithful'⟩

theorem same_restoreSnapshot {e e' : Engine} (h : View.all.Same e e') (snap : Snapshot) :
    View.all.Same (e.restoreSnapshot snap) (e'.restoreSnapshot snap) := by
  have hDatabases : e.databases = e'.databases := h.databases
  have hRestored : (e.restoreSnapshot snap).databases = (e'.restoreSnapshot snap).databases := by
    rw [Engine.restoreSnapshot, Engine.restoreSnapshot, hDatabases]
  exact ⟨h.users, h.lastInsertId, hRestored⟩

theorem Agrees.rollback {c p : Conn} (h : Agrees texts c p) :
    Agrees texts c.rollback p.rollback := by
  rw [Conn.rollback, Conn.rollback, h.txnSnapshot]
  cases p.txnSnapshot with
  | none => exact h
  | some snap =>
    exact ⟨h.phase, h.currentDb, rfl, h.effectiveUser, h.replies,
      same_restoreSnapshot h.engine snap, h.faithful.congr rfl, h.faithful'.congr rfl⟩

theorem Agrees.txn {c p : Conn} (h : Agrees texts c p) (t : TxnControl) :
    Agrees texts (c.run (handleTxn t)) (p.run (handleTxn t)) := by
  cases t with
  | begin =>
    have hSnap : some c.engine.takeSnapshot = some p.engine.takeSnapshot := by
      have hDatabases : c.engine.databases = p.engine.databases := h.engine.databases
      rw [Engine.takeSnapshot, Engine.takeSnapshot, hDatabases]
    have hBegun : Agrees texts { c with txnSnapshot := some c.engine.takeSnapshot }
        { p with txnSnapshot := some p.engine.takeSnapshot } :=
      ⟨h.phase, h.currentDb, hSnap, h.effectiveUser, h.replies, h.engine, h.faithful, h.faithful'⟩
    exact hBegun.replied okReply
  | commit =>
    have hDone : Agrees texts { c with txnSnapshot := none } { p with txnSnapshot := none } :=
      ⟨h.phase, h.currentDb, rfl, h.effectiveUser, h.replies, h.engine, h.faithful, h.faithful'⟩
    exact hDone.replied okReply
  | rollback => exact h.rollback.replied okReply

/-- The session after it has called `execute` and answered with the result. -/
def Conn.answered (c : Conn) (sql : Str) (r : QueryResult) (e : Engine) : Conn :=
  { c with
    engine := e
    events := c.events ++ [.executes c.effectiveUser sql, .reply (buildResult r 1)] }

/-- The session after a call of `execute` that panicked. -/
def Conn.panicked (c : Conn) (sql : Str) (e : Engine) : Conn :=
  { c with
    engine := e
    events := c.events ++ [.executes c.effectiveUser sql]
    phase := .closed }

theorem run_plain (c : Conn) (now : Nat) (sql : Str) :
    c.run (do let result ← callExecute now sql; send (buildResult result 1)) =
      match (execute now sql c.currentDb c.effectiveUser).exec c.engine with
      | (.ok r, e) => c.answered sql r e
      | (.error _, e) => c.panicked sql e := by
  simp only [Conn.run, callExecute, emit, send, onEngine, Prog.zoom, Prog.exec_bind, Prog.exec_get,
    Prog.exec_modify, Prog.exec_mk]
  rcases (execute now sql c.currentDb c.effectiveUser).exec c.engine with ⟨_ | r, e⟩
  · rfl
  · simp only [Conn.answered, List.append_assoc, List.cons_append, List.nil_append]

theorem run_executeAndCache (c : Conn) (now : Nat) (sql : Str) :
    c.run (executeAndCache now sql) =
      match (execute now sql c.currentDb c.effectiveUser).exec c.engine with
      | (.ok r, e) =>
        if r.isErr then c.answered sql r e
        else { c.answered sql r e with
          l0Hash := hashQuery sql, l0Gen := e.writeGen, l0Bytes := some (buildResult r 1) }
      | (.error _, e) => c.panicked sql e := by
  simp only [Conn.run, executeAndCache, callExecute, emit, send, onEngine, Prog.zoom,
    Prog.exec_bind, Prog.exec_get, Prog.exec_modify, Prog.exec_mk]
  rcases (execute now sql c.currentDb c.effectiveUser).exec c.engine with ⟨_ | r, e⟩
  · rfl
  · cases hErr : r.isErr <;>
      simp [hErr, Conn.answered]

theorem Agrees.answered {c p : Conn} (h : Agrees texts c p) (sql : Str) (r : QueryResult)
    {e e' : Engine} (hSame : View.all.Same e e') (hFaithful : Faithful texts e)
    (hFaithful' : Faithful texts e') :
    Agrees texts (c.answered sql r e) (p.answered sql r e') := by
  have hReplies : (c.answered sql r e).replies = (p.answered sql r e').replies := by
    rw [Conn.answered, Conn.answered, Conn.replies, Conn.replies, List.filterMap_append,
      List.filterMap_append]
    exact congrArg (· ++ [buildResult r 1]) h.replies
  exact ⟨h.phase, h.currentDb, h.txnSnapshot, h.effectiveUser, hReplies, hSame, hFaithful,
    hFaithful'⟩

theorem Agrees.panicked {c p : Conn} (h : Agrees texts c p) (sql : Str) {e e' : Engine}
    (hSame : View.all.Same e e') (hFaithful : Faithful texts e) (hFaithful' : Faithful texts e') :
    Agrees texts (c.panicked sql e) (p.panicked sql e') := by
  have hReplies : (c.panicked sql e).replies = (p.panicked sql e').replies := by
    rw [Conn.panicked, Conn.panicked, Conn.replies, Conn.replies, List.filterMap_append,
      List.filterMap_append]
    exact congrArg (· ++ []) h.replies
  exact ⟨rfl, h.currentDb, h.txnSnapshot, h.effectiveUser, hReplies, hSame, hFaithful, hFaithful'⟩

/-- Two agreeing sessions that both call `execute`. -/
theorem Agrees.execute {c p : Conn} (h : Agrees texts c p) (now : Nat) {sql : Str}
    (hSql : texts sql) :
    ((execute now sql c.currentDb c.effectiveUser).exec c.engine).1 =
        ((execute now sql p.currentDb p.effectiveUser).exec p.engine).1 ∧
      View.all.Same ((execute now sql c.currentDb c.effectiveUser).exec c.engine).2
        ((execute now sql p.currentDb p.effectiveUser).exec p.engine).2 := by
  have hParse : parseAnswer c.engine sql = parseAnswer p.engine sql :=
    (h.faithful sql hSql).trans (h.faithful' sql hSql).symm
  rw [h.currentDb, h.effectiveUser]
  exact agree_execute View.all now _ _ h.engine (.inr hParse) (fun _ _ => trivial) fun _ _ _ hEq => hEq

/-- A text that is not in the cache: both loops execute it. -/
theorem agrees_miss {c p : Conn} (h : Agrees texts c p) (hHash : NoCollision texts) (now : Nat)
    {sql : Str} (hSql : texts sql) :
    Agrees texts (c.run (executeAndCache now sql))
      (p.run (do let result ← callExecute now sql; send (buildResult result 1))) := by
  obtain ⟨hOut, hSame⟩ := h.execute now hSql
  have hFaithful := h.faithful.execute hHash hSql now c.currentDb c.effectiveUser
  have hFaithful' := h.faithful'.execute hHash hSql now p.currentDb p.effectiveUser
  rw [run_executeAndCache, run_plain]
  rcases hRun : (execute now sql c.currentDb c.effectiveUser).exec c.engine with ⟨_ | r, e⟩ <;>
    rcases hRun' : (execute now sql p.currentDb p.effectiveUser).exec p.engine with ⟨_ | r', e'⟩ <;>
    rw [hRun, hRun'] at hOut hSame <;> rw [hRun] at hFaithful <;> rw [hRun'] at hFaithful'
  · exact h.panicked sql hSame hFaithful hFaithful'
  · cases hOut
  · cases hOut
  · cases hOut
    have hAnswered := h.answered sql r hSame hFaithful hFaithful'
    simp only
    split
    · exact hAnswered
    · exact ⟨hAnswered.phase, hAnswered.currentDb, hAnswered.txnSnapshot, hAnswered.effectiveUser,
        hAnswered.replies, hAnswered.engine, hAnswered.faithful, hAnswered.faithful'⟩

/-- Executing a text keeps the cache tied to its last fill. -/
theorem cacheInv_miss {c : Conn} {fill : Option Fill} (h : CacheInv texts c fill)
    (hFaithful : Faithful texts c.engine) (now : Nat) {sql : Str} (hSql : texts sql) :
    CacheInv texts (c.run (executeAndCache now sql)) ((c.fillBy now sql).or fill) := by
  rw [run_executeAndCache, Conn.fillBy]
  rcases hRun : (execute now sql c.currentDb c.effectiveUser).exec c.engine with ⟨_ | r, e⟩
  · exact h
  · cases hErr : r.isErr with
    | true =>
      simp only [hErr, if_true, Option.none_or]
      exact h
    | false =>
      simp only [hErr, Bool.false_eq_true, if_false]
      intro out hOut
      obtain rfl := Option.some.inj hOut
      exact ⟨_, rfl, rfl, hSql, now, r, c.engine, hFaithful, hRun, rfl⟩

/-- A text answered from the cache: executing it gives the same answer and
changes nothing. -/
theorem agrees_hit {c p : Conn} {fill : Option Fill} (h : Agrees texts c p)
    (hInv : CacheInv texts c fill) (hHash : NoCollision texts)
    (hClock : ∀ sql, texts sql → ClockFree sql) (now : Nat) {sql : Str} (hSql : texts sql) {out : Bytes}
    (hHit : c.l0Hit sql = some out)
    (hRead : ∀ f ∈ fill, ReadOnly sql ∧ f.currentDb = c.currentDb ∧
      View.all.Same f.engine c.engine) :
    Agrees texts (c.run (send out))
      (p.run (do let result ← callExecute now sql; send (buildResult result 1))) := by
  rw [Conn.l0Hit] at hHit
  split at hHit
  case isFalse => cases hHit
  case isTrue hKey =>
    obtain ⟨f, hFill, hFillHash, hFilled⟩ := hInv out hHit
    obtain ⟨hReadOnly, hDb, hSince⟩ := hRead f hFill
    obtain ⟨now₀, r, e₀, hFaithful₀, hRun₀, rfl⟩ := hFilled.run
    have hText : f.sql = sql :=
      hHash f.sql sql hFilled.text hSql (hFillHash.symm.trans hKey.1.symm)
    rw [hText, hDb, exec_execute_clock (hClock sql hSql) (hFaithful₀ sql hSql) now₀ now] at hRun₀
    -- the engine before the fill, after it, now, and that of the other loop
    have hFillSame := same_execute hReadOnly (hFaithful₀ sql hSql) now c.currentDb c.effectiveUser
    rw [hRun₀] at hFillSame
    have hBefore : View.all.Same e₀ p.engine := (hFillSame.symm.trans hSince).trans h.engine
    have hParse : parseAnswer e₀ sql = parseAnswer p.engine sql :=
      (hFaithful₀ sql hSql).trans (h.faithful' sql hSql).symm
    obtain ⟨hOut, hSame⟩ := agree_execute View.all now c.currentDb c.effectiveUser hBefore
      (.inr hParse) (fun _ _ => trivial) fun _ _ _ hEq => hEq
    rw [hRun₀] at hOut hSame
    have hFaithful' := h.faithful'.execute hHash hSql now c.currentDb c.effectiveUser
    rw [run_plain, ← h.currentDb, ← h.effectiveUser]
    rcases hRun' : (execute now sql c.currentDb c.effectiveUser).exec p.engine with ⟨_ | r', e'⟩ <;>
      rw [hRun'] at hOut hSame hFaithful'
    · cases hOut
    · cases hOut
      have hNow : View.all.Same c.engine e' := hSince.symm.trans hSame
      have hReplies : (c.run (send (buildResult r 1))).replies = (p.answered sql r e').replies := by
        rw [Conn.answered, Conn.replies, Conn.replies, List.filterMap_append]
        show List.filterMap _ (c.events ++ _) = _
        rw [List.filterMap_append]
        exact congrArg (· ++ [buildResult r 1]) h.replies
      exact ⟨h.phase, h.currentDb, h.txnSnapshot, h.effectiveUser, hReplies, hNow, h.faithful,
        hFaithful'⟩

-- ---------------------------------------------------------------------------
-- Steps and runs
-- ---------------------------------------------------------------------------

/-- The relation the two loops keep. -/
structure Matches (texts : Str → Prop) (t : Tracked) (p : Conn) : Prop where
  agrees : Agrees texts t.conn p
  cached : t.conn.phase = .command → CacheInv texts t.conn t.fill

theorem run_of_panic {c : Conn} {sql : Str} {fault : Fault} (h : useTarget sql = .error fault)
    (k : ConnM Unit) :
    c.run (do takeUse sql; k) = { c with phase := .closed } := by
  rw [Conn.run, Prog.exec_bind, exec_takeUse, h]

theorem run_of_used {c : Conn} {sql : Str} {target : Option Str} (h : useTarget sql = .ok target)
    (k : ConnM Unit) : c.run (do takeUse sql; k) = (c.used sql).run k := by
  rw [Conn.run, Conn.run, Prog.exec_bind, Conn.used, exec_takeUse, h]

theorem cacheInv_used {c : Conn} {fill : Option Fill} (h : CacheInv texts c fill) (sql : Str) :
    CacheInv texts (c.used sql) fill := by
  rw [Conn.used, exec_takeUse]
  cases useTarget sql <;> exact h

theorem cacheInv_txn {c : Conn} {fill : Option Fill} (h : CacheInv texts c fill) (t : TxnControl) :
    CacheInv texts (c.run (handleTxn t)) fill := by
  cases t with
  | begin => exact h
  | commit => exact h
  | rollback =>
    have hBack : CacheInv texts c.rollback fill := by
      rw [Conn.rollback]
      cases c.txnSnapshot <;> exact h
    exact hBack

/-- One text keeps the two loops together. -/
theorem matches_step (hHash : NoCollision texts) (hClock : ∀ sql, texts sql → ClockFree sql)
    {t : Tracked} {p : Conn} {q : Nat × Str} (h : Matches texts t p) (hSql : texts q.2)
    (hRead : HitIsRead t q) : Matches texts (t.step q) (p.plainStep q) := by
  obtain ⟨now, sql⟩ := q
  have hPhase := h.agrees.phase
  by_cases hCommand : t.conn.phase = .command
  case neg =>
    -- a closed session
    have hCommand' : p.phase ≠ .command := fun hp => hCommand (hPhase.trans hp)
    refine ⟨?_, fun hC => absurd ?_ hCommand⟩
    · rw [Tracked.step, Conn.queryStep, if_neg hCommand, Conn.plainStep, if_neg hCommand']
      exact h.agrees
    · rwa [Tracked.step, Conn.queryStep, if_neg hCommand] at hC
  have hCommand' : p.phase = .command := hPhase.symm.trans hCommand
  have hInv := h.cached hCommand
  rw [HitIsRead] at hRead
  rw [Tracked.step, Conn.queryStep, if_pos hCommand, Conn.plainStep, if_pos hCommand', handleQuery,
    plainQuery]
  by_cases hOne : isSelectOne sql = true
  · simp only [hOne, if_true, reachesCache, Bool.not_true, Bool.false_and]
    exact ⟨h.agrees.replied select1Response, fun _ => hInv⟩
  simp only [hOne, Bool.false_eq_true, if_false]
  cases hUse : useTarget sql with
  | error fault =>
    rw [run_of_panic hUse, run_of_panic hUse]
    exact ⟨h.agrees.closed, fun hC => by cases hC⟩
  | ok target =>
    rw [run_of_used hUse, run_of_used hUse]
    have hUsed := h.agrees.used sql
    have hInvUsed := cacheInv_used hInv sql
    cases hTxn : txnControl sql with
    | some control =>
      simp only [reachesCache, hTxn, Option.isNone_some, Bool.and_false]
      exact ⟨hUsed.txn control, fun _ => cacheInv_txn hInvUsed control⟩
    | none =>
      have hReaches : reachesCache sql = true := by simp [reachesCache, hOne, hTxn]
      have hRead' := hRead hReaches
      simp only [hReaches, Bool.true_and]
      cases hHit : (t.conn.used sql).l0Hit sql with
      | some out =>
        have hAnswer : (t.conn.used sql).run (answerQuery now sql) =
            (t.conn.used sql).run (send out) := by
          rw [Conn.run, Conn.run, answerQuery, Prog.exec_get_bind, hHit]
        rw [hAnswer]
        refine ⟨?_, fun _ => hInvUsed⟩
        exact agrees_hit hUsed hInvUsed hHash hClock now hSql hHit
          (hRead' (by rw [hHit, Option.isSome_some]))
      | none =>
        have hAnswer : (t.conn.used sql).run (answerQuery now sql) =
            (t.conn.used sql).run (executeAndCache now sql) := by
          rw [Conn.run, Conn.run, answerQuery, Prog.exec_get_bind, hHit]
        rw [hAnswer]
        refine ⟨agrees_miss hUsed hHash now hSql, fun _ => ?_⟩
        exact cacheInv_miss hInvUsed hUsed.faithful now hSql

theorem matches_run (hHash : NoCollision texts) (hClock : ∀ sql, texts sql → ClockFree sql)
    {t : Tracked} {p : Conn} {qs : List (Nat × Str)} (h : Matches texts t p)
    (hTexts : ∀ q ∈ qs, texts q.2) (hRun : Trace.Along Tracked.step HitIsRead t qs) :
    Matches texts (Trace.run Tracked.step t qs) (Trace.run Conn.plainStep p qs) := by
  induction qs generalizing t p with
  | nil => exact h
  | cons q qs ih =>
    have hStep := matches_step hHash hClock h (hTexts q (List.mem_cons_self ..)) hRun.1
    exact ih hStep (fun q' hq' => hTexts q' (List.mem_cons_of_mem _ hq')) hRun.2

theorem run_tracked_conn (t : Tracked) (qs : List (Nat × Str)) :
    (Trace.run Tracked.step t qs).conn = Trace.run Conn.queryStep t.conn qs := by
  induction qs generalizing t with
  | nil => rfl
  | cons q qs ih => exact ih (t.step q)

/-- **The result cache.** A session that runs alone, with texts the clock makes
no difference to and whose hashes tell them apart, also in the statement cache:
if a text is answered from the result cache only when it writes nothing and the
state is that right after the cache was filled, then the loop answers and
leaves the databases as it does without the cache. -/
theorem queryStep_run_eq (c : Conn) (qs : List (Nat × Str)) (hFresh : c.l0Bytes = none)
    (hClock : ∀ sql ∈ qs.map Prod.snd, ClockFree sql)
    (hHash : NoCollision (· ∈ qs.map Prod.snd)) (hParse : Faithful (· ∈ qs.map Prod.snd) c.engine)
    (hRun : Trace.Along Tracked.step HitIsRead ⟨c, none⟩ qs) :
    (Trace.run Conn.queryStep c qs).replies = (Trace.run Conn.plainStep c qs).replies ∧
      (Trace.run Conn.queryStep c qs).engine.databases =
        (Trace.run Conn.plainStep c qs).engine.databases := by
  have hStart : Matches (· ∈ qs.map Prod.snd) ⟨c, none⟩ c := by
    refine ⟨⟨rfl, rfl, rfl, rfl, rfl, ⟨rfl, rfl, rfl⟩, hParse, hParse⟩, fun _ out hOut => ?_⟩
    rw [hFresh] at hOut
    cases hOut
  have hEnd := matches_run hHash hClock hStart (fun q hq => List.mem_map_of_mem hq) hRun
  rw [← run_tracked_conn ⟨c, none⟩ qs]
  exact ⟨hEnd.agrees.replies, hEnd.agrees.engine.databases⟩

end Cache

-- ---------------------------------------------------------------------------
-- A read answered twice, and an INSERT lost
-- ---------------------------------------------------------------------------

set_option maxRecDepth 2000

section Sessions

def rowInsert : Statement :=
  .insert {
    table := .tableName [⟨"t", none⟩]
    columns := []
    source := some (.mk (.values [[.value (.number "1" false)]]) none none none)
    replaceInto := false }

local instance cachePlatform : Platform := tablePlatform
  [("CREATE TABLE t (a INT)", [.createTable {
      name := [⟨"t", none⟩], columns := [⟨⟨"a", none⟩, .int, []⟩], ifNotExists := false
      query := none }]),
    ("INSERT INTO t VALUES (1)", [rowInsert])]

/-- A session of root right after its login. -/
def rootSession : Conn := { Conn.start ⟨[]⟩ [] (Engine.fresh []) [] with phase := .command }

theorem showDatabases_shortcut :
    shortcutOf (toUppercase (trim "SHOW DATABASES")) = some .showDatabases := by decide +kernel

theorem showDatabases_used (c : Conn) : c.used "SHOW DATABASES" = c := by
  have hUse : useTarget "SHOW DATABASES" = .ok none := by decide +kernel
  rw [Conn.used, exec_takeUse, hUse]
  rfl

theorem showDatabases_step :
    ∃ evs gen out, Tracked.step ⟨rootSession, none⟩ (0, "SHOW DATABASES") =
      ⟨{ rootSession with
          events := evs, l0Hash := hashQuery "SHOW DATABASES", l0Gen := gen, l0Bytes := out },
        some ⟨"SHOW DATABASES", none, Engine.fresh []⟩⟩ := by
  have hUse : useTarget "SHOW DATABASES" = .ok none := by decide +kernel
  have hReaches : reachesCache "SHOW DATABASES" = true := by decide +kernel
  have hTxn : txnControl "SHOW DATABASES" = none := by decide +kernel
  have hOne : isSelectOne "SHOW DATABASES" = false := by decide +kernel
  have hMiss : rootSession.l0Hit "SHOW DATABASES" = none := by
    rw [Conn.l0Hit]
    split <;> rfl
  have hExec := exec_execute_shortcut showDatabases_shortcut 0 rootSession.currentDb
    rootSession.effectiveUser
  have hRun : rootSession.run (handleQuery 0 "SHOW DATABASES") =
      rootSession.run (executeAndCache 0 "SHOW DATABASES") := by
    rw [handleQuery, hOne, if_neg Bool.false_ne_true, run_of_used hUse, showDatabases_used,
      hTxn, Conn.run, Conn.run, answerQuery, Prog.exec_get_bind, hMiss]
  have hStep : rootSession.queryStep (0, "SHOW DATABASES") =
      rootSession.run (handleQuery 0 "SHOW DATABASES") := if_pos rfl
  have hFill : rootSession.fillBy 0 "SHOW DATABASES" =
      some ⟨"SHOW DATABASES", none, Engine.fresh []⟩ := by
    rw [Conn.fillBy, hExec]
    rfl
  simp only [Tracked.step, showDatabases_used, hReaches, hMiss, hFill,
    Option.isNone_none, Bool.and_self, if_true, Option.some_or]
  rw [hStep, hRun, run_executeAndCache, hExec]
  exact ⟨_, _, _, rfl⟩

theorem queryStep_run_eq_showDatabases :
    (Trace.run Conn.queryStep rootSession [(0, "SHOW DATABASES"), (1, "SHOW DATABASES")]).replies =
        (Trace.run Conn.plainStep rootSession
          [(0, "SHOW DATABASES"), (1, "SHOW DATABASES")]).replies ∧
      (Trace.run Conn.queryStep rootSession
          [(0, "SHOW DATABASES"), (1, "SHOW DATABASES")]).engine.databases =
        (Trace.run Conn.plainStep rootSession
          [(0, "SHOW DATABASES"), (1, "SHOW DATABASES")]).engine.databases := by
  have hTexts : ∀ sql ∈ ([(0, "SHOW DATABASES"), (1, "SHOW DATABASES")] : List (Nat × Str)).map
      Prod.snd, sql = "SHOW DATABASES" := by simp
  refine queryStep_run_eq rootSession _ rfl ?_ ?_ ?_ ⟨?_, ?_, trivial⟩
  · intro sql hSql stmts hStmts
    rw [hTexts sql hSql] at hStmts
    cases hStmts
  · intro sql sql' hSql hSql' _
    rw [hTexts sql hSql, hTexts sql' hSql']
  · intro sql hSql
    rw [hTexts sql hSql]
    rfl
  · intro _ hHit
    exact absurd hHit (by decide +kernel)
  · intro _ _ f hFill
    obtain ⟨evs, gen, out, hStep⟩ := showDatabases_step
    rw [hStep] at hFill ⊢
    obtain rfl := Option.some.inj hFill
    simp only
    rw [showDatabases_used]
    exact ⟨by rw [ReadOnly, showDatabases_shortcut]; rfl, rfl, rfl, rfl, rfl⟩

/-- The rows of table t in database test. -/
def rowCount (c : Conn) : Option Nat :=
  ((c.engine.databases.get "test").bind fun d => d.tables.get "t").map fun t => t.rows.length

/-- The second INSERT is answered with OK and not executed. -/
theorem not_queryStep_run_eq :
    ¬ ∀ (c : Conn) (qs : List (Nat × Str)), c.l0Bytes = none →
      (∀ sql ∈ qs.map Prod.snd, ClockFree sql) →
      (Trace.run Conn.queryStep c qs).replies = (Trace.run Conn.plainStep c qs).replies ∧
        (Trace.run Conn.queryStep c qs).engine.databases =
          (Trace.run Conn.plainStep c qs).engine.databases := by
  intro hAll
  have hRun := (hAll rootSession [(0, "CREATE TABLE t (a INT)"), (0, "INSERT INTO t VALUES (1)"),
    (0, "INSERT INTO t VALUES (1)")] rfl ?_).2
  · have hCount : rowCount (Trace.run Conn.queryStep rootSession [(0, "CREATE TABLE t (a INT)"),
        (0, "INSERT INTO t VALUES (1)"), (0, "INSERT INTO t VALUES (1)")]) =
        rowCount (Trace.run Conn.plainStep rootSession [(0, "CREATE TABLE t (a INT)"),
          (0, "INSERT INTO t VALUES (1)"), (0, "INSERT INTO t VALUES (1)")]) := by
      rw [rowCount, rowCount, hRun]
    revert hCount
    decide +kernel
  · intro sql hSql stmts hStmts stmt hMem now now' currentDb
    simp only [List.map_cons, List.map_nil, List.mem_cons, List.not_mem_nil, or_false, or_self]
      at hSql
    rcases hSql with rfl | rfl <;> cases hStmts <;> cases hMem with
    | head => rfl
    | tail _ h => cases h

end Sessions

end RunAlexDb
