import RunAlexDb.Model.Concrete
import RunAlexDb.Model.Server
import RunAlexDb.Session.WriteGeneration

/-!
# StaleReads — the result cache against a writer

A reader answers SELECTs in five atomic steps: it reads the write generation,
looks into its cache, executes, reads the generation again and stores. A writer
changes a table and then bumps the generation. The generation of a cached answer
is the one read after the execution, so a change and its bump that fall between
the two reads leave old rows under the new generation.

Main results: `served_fresh` and `served_stale`.
-/

set_option linter.unusedSectionVars false

namespace RunAlexDb

open Text Platform

section Race

variable [Platform]

-- ---------------------------------------------------------------------------
-- The machine
-- ---------------------------------------------------------------------------

/-- Where the reader stands. -/
inductive ReaderAt
  | idle
  /-- `cur_gen` is read. -/
  | checked (sql : Str) (curGen : UInt64)
  /-- The cache has no answer. -/
  | missed (sql : Str)
  /-- Executed and answered, with no error. -/
  | executed (sql : Str) (out : Bytes)
  /-- `l0_gen` is read. -/
  | reread (sql : Str) (out : Bytes) (gen : UInt64)
deriving DecidableEq

/-- An answer from the cache: how many changes were bumped when its SELECT
began, and how many were made when its rows were computed. -/
structure Served where
  bumped : Nat
  rowsAt : Nat
deriving DecidableEq

/-- The two sessions; `reader.engine` is the engine of both. -/
structure Race where
  reader : Conn
  readerAt : ReaderAt
  /-- The result of a change whose bump is to come. -/
  writerAt : Option QueryResult
  /-- Changes made so far. -/
  changes : Nat
  /-- The last change that was bumped. -/
  bumped : Nat
  /-- `bumped` when the reader last read `cur_gen`. -/
  checkedAt : Nat
  /-- `changes` when the reader last executed. -/
  rowsAt : Nat
  /-- `changes` when the cached answer was computed. -/
  cachedAt : Nat
  served : List Served

inductive RaceLabel
  /-- The reader takes up a text and reads the generation. -/
  | check (sql : Str)
  | look
  | execute (now : Nat)
  | reread
  | store
  /-- The writer executes a statement. -/
  | change (now : Nat) (currentDb : Option Str) (stmt : Statement)
  | bump

/-- INSERT, REPLACE, UPDATE and DELETE. -/
def Statement.isDml : Statement → Bool
  | .insert _ | .update .. | .delete _ => true
  | _ => false

namespace Race

def engine (s : Race) : Engine := s.reader.engine

/-- Before the first step. -/
def start (c : Conn) : Race := ⟨c, .idle, none, 0, 0, 0, 0, 0, []⟩

def look (s : Race) (sql : Str) (curGen : UInt64) : Race :=
  if hashQuery sql = s.reader.l0Hash ∧ curGen = s.reader.l0Gen then
    match s.reader.l0Bytes with
    | some cached =>
      { s with
        reader := ((send cached).exec s.reader).2
        readerAt := .idle
        served := s.served ++ [⟨s.checkedAt, s.cachedAt⟩] }
    | none => { s with readerAt := .missed sql }
  else { s with readerAt := .missed sql }

/-- Execute and answer; an error is not cached, a panic ends the session. -/
def execute (s : Race) (now : Nat) (sql : Str) : Race :=
  match (callExecute now sql).exec s.reader with
  | (.error _, c) => { s with reader := { c with phase := .closed }, readerAt := .idle }
  | (.ok result, c) =>
    { s with
      reader := ((send (buildResult result 1)).exec c).2
      readerAt := if result.isErr then .idle else .executed sql (buildResult result 1)
      rowsAt := s.changes }

def change (s : Race) (now : Nat) (currentDb : Option Str) (stmt : Statement) : Race :=
  { s with
    reader := { s.reader with engine := ((execStmt now currentDb stmt).exec s.engine).2 }
    writerAt := ((execStmt now currentDb stmt).exec s.engine).1.toOption
    changes := s.changes + 1 }

def bump (s : Race) (r : QueryResult) : Race :=
  { s with
    reader := { s.reader with engine := ((bumpIfOk r).exec s.engine).2 }
    writerAt := none
    bumped := if r.isOk then s.changes else s.bumped }

/-- One atomic step of one of the two; a step that is not due does nothing. -/
def step (s : Race) : RaceLabel → Race
  | .check sql =>
    if s.readerAt = .idle ∧ s.reader.phase = .command then
      { s with readerAt := .checked sql s.engine.writeGen, checkedAt := s.bumped }
    else s
  | .look =>
    match s.readerAt with
    | .checked sql curGen => s.look sql curGen
    | _ => s
  | .execute now =>
    match s.readerAt with
    | .missed sql => s.execute now sql
    | _ => s
  | .reread =>
    match s.readerAt with
    | .executed sql out => { s with readerAt := .reread sql out s.engine.writeGen }
    | _ => s
  | .store =>
    match s.readerAt with
    | .reread sql out gen =>
      { s with
        reader := { s.reader with l0Hash := hashQuery sql, l0Gen := gen, l0Bytes := some out }
        readerAt := .idle
        cachedAt := s.rowsAt }
    | _ => s
  | .change now currentDb stmt =>
    if s.writerAt.isNone && stmt.isDml then s.change now currentDb stmt else s
  | .bump =>
    match s.writerAt with
    | some r => s.bump r
    | none => s

/-- No SELECT was answered from the cache with rows computed before a change
that had been bumped when it began. -/
def Fresh (s : Race) : Prop := ∀ a ∈ s.served, a.bumped ≤ a.rowsAt

end Race

-- ---------------------------------------------------------------------------
-- The steps and the code
-- ---------------------------------------------------------------------------

namespace Race

@[simp] theorem engine_change (s : Race) (now : Nat) (currentDb : Option Str) (stmt : Statement) :
    (s.change now currentDb stmt).engine = ((execStmt now currentDb stmt).exec s.engine).2 := rfl

@[simp] theorem writerAt_change (s : Race) (now : Nat) (currentDb : Option Str) (stmt : Statement) :
    (s.change now currentDb stmt).writerAt =
      ((execStmt now currentDb stmt).exec s.engine).1.toOption := rfl

@[simp] theorem engine_bump (s : Race) (r : QueryResult) :
    (s.bump r).engine = ((bumpIfOk r).exec s.engine).2 := rfl

theorem step_check {s : Race} (hIdle : s.readerAt = .idle) (hCommand : s.reader.phase = .command)
    (sql : Str) : s.step (.check sql) =
      { s with readerAt := .checked sql s.engine.writeGen, checkedAt := s.bumped } :=
  if_pos ⟨hIdle, hCommand⟩

theorem look_hit {s : Race} {sql : Str} {curGen : UInt64} {cached : Bytes}
    (hKey : hashQuery sql = s.reader.l0Hash ∧ curGen = s.reader.l0Gen)
    (hBytes : s.reader.l0Bytes = some cached) :
    s.look sql curGen =
      { s with
        reader := ((send cached).exec s.reader).2
        readerAt := .idle
        served := s.served ++ [⟨s.checkedAt, s.cachedAt⟩] } := by
  rw [look, if_pos hKey, hBytes]

theorem look_miss {s : Race} {sql : Str} {curGen : UInt64}
    (h : hashQuery sql = s.reader.l0Hash ∧ curGen = s.reader.l0Gen → s.reader.l0Bytes = none) :
    s.look sql curGen = { s with readerAt := .missed sql } := by
  rw [look]
  split_ifs with hKey
  · rw [h hKey]
  · rfl

theorem engine_check (s : Race) (sql : Str) : (s.step (.check sql)).engine = s.engine := by
  rw [step]
  split_ifs <;> rfl

theorem engine_look (s : Race) : (s.step .look).engine = s.engine := by
  rw [step]
  split
  · rw [look]
    split_ifs
    · split <;> rfl
    · rfl
  · rfl

/-- An idle reader has nothing to go on with. -/
theorem run_idle {s : Race} (hIdle : s.readerAt = .idle) (now : Nat) :
    Trace.run step s [.execute now, .reread, .store] = s := by
  simp only [Trace.run_cons, Trace.run_nil, step, hIdle]

end Race

/-- From the look into the cache on. -/
theorem run_checked {s : Race} {sql : Str} (now : Nat)
    (hChecked : s.readerAt = .checked sql s.engine.writeGen) :
    (Trace.run Race.step s [.look, .execute now, .reread, .store]).reader =
      s.reader.run (answerQuery now sql) := by
  rw [Trace.run_cons, Race.step, hChecked, Conn.run, answerQuery, Prog.exec_get_bind, Conn.l0Hit]
  show (Trace.run Race.step (s.look sql s.engine.writeGen) _).reader = _
  by_cases hHit : (hashQuery sql = s.reader.l0Hash ∧ s.engine.writeGen = s.reader.l0Gen) ∧
      s.reader.l0Bytes.isSome = true
  · obtain ⟨hKey, hSome⟩ := hHit
    obtain ⟨cached, hBytes⟩ := Option.isSome_iff_exists.1 hSome
    have hKey' : hashQuery sql = s.reader.l0Hash ∧ s.reader.engine.writeGen = s.reader.l0Gen := hKey
    rw [Race.look_hit hKey hBytes, Race.run_idle rfl, if_pos hKey', hBytes]
    rfl
  · have hMiss : hashQuery sql = s.reader.l0Hash ∧ s.engine.writeGen = s.reader.l0Gen →
        s.reader.l0Bytes = none := by
      intro hKey
      cases hBytes : s.reader.l0Bytes with
      | none => rfl
      | some cached => exact absurd ⟨hKey, by rw [hBytes]; rfl⟩ hHit
    have hNone : (if hashQuery sql = s.reader.l0Hash ∧ s.reader.engine.writeGen = s.reader.l0Gen
        then s.reader.l0Bytes else none) = none := by
      split_ifs with hKey
      · exact hMiss hKey
      · rfl
    rw [Race.look_miss hMiss, hNone, executeAndCache, Prog.exec_bind, Trace.run_cons]
    show (Trace.run Race.step (Race.execute _ now sql) _).reader = _
    rw [Race.execute]
    rcases (callExecute now sql).exec s.reader with ⟨_ | result, c⟩
    · rfl
    · cases hErr : result.isErr <;> simp [hErr, Race.step, Prog.exec_bind, send, emit, Race.engine]

/-- **The reader's steps are `answerQuery`** when nothing comes between them. -/
theorem reader_uninterrupted (s : Race) (now : Nat) (sql : Str) (hIdle : s.readerAt = .idle)
    (hCommand : s.reader.phase = .command) :
    (Trace.run Race.step s [.check sql, .look, .execute now, .reread, .store]).reader =
      s.reader.run (answerQuery now sql) := by
  rw [Trace.run_cons, Race.step_check hIdle hCommand]
  exact run_checked now rfl

/-- **The writer's steps are `exec_stmt` and the bump of `execute`.** -/
theorem writer_uninterrupted (s : Race) (now : Nat) (currentDb : Option Str) (stmt : Statement)
    (hIdle : s.writerAt = none) (hDml : stmt.isDml = true) :
    (Trace.run Race.step s [.change now currentDb stmt, .bump]).engine =
      Job.step s.engine (.text now currentDb stmt) := by
  have hChange : s.step (.change now currentDb stmt) = s.change now currentDb stmt := by
    rw [Race.step, hIdle, hDml]
    rfl
  rw [Trace.run_cons, hChange, Trace.run_cons, Trace.run_nil, Job.step, Job.run, Prog.exec_bind,
    Race.step, Race.writerAt_change]
  rcases hRun : (execStmt now currentDb stmt).exec s.engine with ⟨_ | r, e⟩
  · simp only [Except.toOption, Race.engine_change, hRun]
  · simp only [Except.toOption, Race.engine_bump, Race.engine_change, hRun]

-- ---------------------------------------------------------------------------
-- What raises the generation
-- ---------------------------------------------------------------------------

/-- The text is a SELECT: of its statements, or of the texts answered unparsed. -/
def SelectText (e : Engine) (sql : Str) : Prop :=
  match shortcutOf (toUppercase (trim sql)) with
  | some s => s.writes = false
  | none => ∀ stmts, parseAnswer e sql = .ok stmts → ∀ stmt ∈ stmts, ∃ q, stmt = .query q

/-- An execution leaves the cache. -/
theorem exec_callExecute (now : Nat) (sql : Str) (c : Conn) :
    (callExecute now sql).exec c =
      (((execute now sql c.currentDb c.effectiveUser).exec c.engine).1,
        { c with
          engine := ((execute now sql c.currentDb c.effectiveUser).exec c.engine).2
          events := c.events ++ [.executes c.effectiveUser sql] }) := rfl

theorem bumpsOf_queries {jobs : List Job} (h : ∀ j ∈ jobs, ∃ q, j.statement = .query q)
    (e : Engine) : bumpsOf e jobs = 0 := by
  induction jobs generalizing e with
  | nil => rfl
  | cons j rest ih =>
    obtain ⟨q, hQuery⟩ := h j (List.mem_cons_self ..)
    have hNone : j.bumps e = 0 := by
      cases j with
      | text now currentDb stmt =>
        obtain rfl : stmt = .query q := hQuery
        rfl
      | prepared now bound currentDb stmt =>
        obtain rfl : stmt = .query q := hQuery
        rfl
    have hRest := ih (fun k hk => h k (List.mem_cons_of_mem _ hk)) (j.step e)
    rw [bumpsOf, hNone, hRest, ite_self]

theorem writeGen_select {e : Engine} {sql : Str} (h : SelectText e sql) (now : Nat)
    (currentDb : Option Str) (userName : Str) :
    ((execute now sql currentDb userName).exec e).2.writeGen = e.writeGen := by
  have hGen := writeGen_call userName (.text now sql currentDb) e
  rw [Call.step, Call.run] at hGen
  have hNone : (Operation.call userName (.text now sql currentDb)).bumps e = 0 := by
    rw [SelectText] at h
    rw [Operation.bumps, Call.shortcut]
    cases hShort : shortcutOf (toUppercase (trim sql)) with
    | some s =>
      rw [hShort] at h
      cases s <;> first | rfl | cases h
    | none =>
      rw [hShort] at h
      refine bumpsOf_queries (fun j hj => ?_) _
      have hMem := Call.mem_executed hj
      rw [Call.executed, Call.shortcut, hShort, Call.sql] at hMem
      cases hAnswer : parseAnswer e sql with
      | error msg => rw [hAnswer] at hMem; cases hMem
      | ok stmts =>
        rw [hAnswer] at hMem
        simp only at hMem
        split at hMem
        · cases hMem
        · exact h stmts hAnswer _ hMem
  rw [hGen, hNone]
  exact UInt64.add_zero _

theorem writeGen_dml {stmt : Statement} (h : stmt.isDml = true) (now : Nat) (currentDb : Option Str)
    (e : Engine) : ((execStmt now currentDb stmt).exec e).2.writeGen = e.writeGen := by
  have hGen := (settles_execStmt now currentDb stmt e).2
  have hNone : stmt.bumpsItself currentDb e = false := by
    cases stmt <;> first | rfl | cases h
  rw [hGen, hNone, Bool.and_false]
  exact UInt64.add_zero _

-- ---------------------------------------------------------------------------
-- Fresh answers
-- ---------------------------------------------------------------------------

namespace Race

/-- What the reader executes is a SELECT. -/
def Selects (s : Race) : RaceLabel → Prop
  | .execute _ => ∀ sql, s.readerAt = .missed sql → SelectText s.engine sql
  | _ => True

/-- An answer is stored, or about to be, under this generation. -/
def Holds (s : Race) (gen : UInt64) : Prop :=
  (s.reader.l0Bytes.isSome = true ∧ s.reader.l0Gen = gen) ∨
    ∃ sql out, s.readerAt = .reread sql out gen

theorem not_holds {s : Race} {gen : UInt64} (hGen : s.reader.l0Gen ≠ gen)
    (hIdle : s.readerAt = .idle) : ¬ s.Holds gen := by
  rintro (⟨-, hEq⟩ | ⟨sql, out, hAt⟩)
  · exact hGen hEq
  · rw [hIdle] at hAt
    cases hAt

/-- When the reader reads the generation again, no change made since it executed
has been bumped; and no bump comes round to a generation the reader holds. -/
def InOrder (s : Race) : RaceLabel → Prop
  | .reread => ∀ sql out, s.readerAt = .executed sql out → s.bumped ≤ s.rowsAt
  | .bump => ∀ r, s.writerAt = some r → r.isOk = true → ¬ s.Holds (s.engine.writeGen + 1)
  | _ => True

/-- Under the present generation only rows as new as the last bump. -/
structure Inv (s : Race) : Prop where
  bumped : s.bumped ≤ s.changes
  cached : s.reader.l0Bytes.isSome = true → s.reader.l0Gen = s.engine.writeGen →
    s.bumped ≤ s.cachedAt
  checked : ∀ sql gen, s.readerAt = .checked sql gen → s.reader.l0Bytes.isSome = true →
    s.reader.l0Gen = gen → s.checkedAt ≤ s.cachedAt
  pending : ∀ sql out gen, s.readerAt = .reread sql out gen → gen = s.engine.writeGen →
    s.bumped ≤ s.rowsAt
  fresh : s.Fresh

theorem inv_start {c : Conn} (h : c.l0Bytes = none) : (start c).Inv := by
  have hNone : ¬ (start c).reader.l0Bytes.isSome = true := by
    show ¬ c.l0Bytes.isSome = true
    rw [h]
    exact Bool.false_ne_true
  exact ⟨Nat.le_refl _, fun hSome => absurd hSome hNone, nofun, nofun, nofun⟩

theorem inv_look {s : Race} (h : s.Inv) {sql : Str} {curGen : UInt64}
    (hAt : s.readerAt = .checked sql curGen) : (s.look sql curGen).Inv := by
  rw [look]
  split_ifs with hKey
  · cases hBytes : s.reader.l0Bytes with
    | none =>
      refine ⟨h.bumped, fun hSome => ?_, nofun, nofun, h.fresh⟩
      simp only [hBytes] at hSome
      cases hSome
    | some cached =>
      refine ⟨h.bumped, fun _ => h.cached (by rw [hBytes]; rfl), nofun, nofun, ?_⟩
      intro a ha
      rcases List.mem_append.1 ha with hOld | hNew
      · exact h.fresh a hOld
      · obtain rfl := List.mem_singleton.1 hNew
        exact h.checked sql curGen hAt (by rw [hBytes]; rfl) hKey.2.symm
  · exact ⟨h.bumped, h.cached, nofun, nofun, h.fresh⟩

theorem inv_execute {s : Race} (h : s.Inv) (now : Nat) {sql : Str}
    (hSelect : SelectText s.engine sql) : (s.execute now sql).Inv := by
  have hGen := writeGen_select hSelect now s.reader.currentDb s.reader.effectiveUser
  rw [execute, exec_callExecute]
  rw [engine] at hGen
  rcases hRun : (RunAlexDb.execute now sql s.reader.currentDb s.reader.effectiveUser).exec
    s.reader.engine with ⟨_ | result, e⟩ <;> rw [hRun] at hGen <;> simp only at hGen ⊢
  · refine ⟨h.bumped, fun hSome hEq => h.cached hSome (hEq.trans hGen), ?_, ?_, h.fresh⟩
    · intro sql' gen hAt
      cases hAt
    · intro sql' out gen hAt
      cases hAt
  · refine ⟨h.bumped, fun hSome hEq => h.cached hSome (hEq.trans hGen), ?_, ?_, h.fresh⟩
    · intro sql' gen hAt
      simp only at hAt
      split_ifs at hAt
    · intro sql' out gen hAt
      simp only at hAt
      split_ifs at hAt

theorem inv_change {s : Race} (h : s.Inv) (now : Nat) (currentDb : Option Str) {stmt : Statement}
    (hDml : stmt.isDml = true) : (s.change now currentDb stmt).Inv := by
  have hGen : (s.change now currentDb stmt).engine.writeGen = s.engine.writeGen :=
    writeGen_dml hDml now currentDb s.engine
  refine ⟨Nat.le_succ_of_le h.bumped, ?_, h.checked, ?_, h.fresh⟩
  · intro hSome hEq
    exact h.cached hSome (hEq.trans hGen)
  · intro sql out gen hAt hEq
    exact h.pending sql out gen hAt (hEq.trans hGen)

theorem inv_bump {s : Race} (h : s.Inv) {r : QueryResult}
    (hRound : r.isOk = true → ¬ s.Holds (s.engine.writeGen + 1)) : (s.bump r).Inv := by
  cases hOk : r.isOk with
  | false =>
    have hSame : s.bump r = { s with writerAt := none } := by
      simp [bump, bumpIfOk, hOk, engine]
    rw [hSame]
    exact ⟨h.bumped, h.cached, h.checked, h.pending, h.fresh⟩
  | true =>
    have hGen : (s.bump r).engine.writeGen = s.engine.writeGen + 1 := by
      rw [engine_bump, bumpIfOk, if_pos hOk]
      rfl
    have hBumped : (s.bump r).bumped = s.changes := by
      simp [bump, hOk]
    refine ⟨Nat.le_of_eq hBumped, ?_, h.checked, ?_, h.fresh⟩
    · intro hSome hEq
      exact absurd (.inl ⟨hSome, hEq.trans hGen⟩) (hRound hOk)
    · intro sql out gen hAt hEq
      rw [hGen] at hEq
      subst hEq
      exact absurd (.inr ⟨sql, out, hAt⟩) (hRound hOk)

theorem inv_step {s : Race} (h : s.Inv) {l : RaceLabel} (hSelects : s.Selects l)
    (hOrder : s.InOrder l) : (s.step l).Inv := by
  cases l with
  | check sql =>
    rw [step]
    split_ifs
    · refine ⟨h.bumped, h.cached, ?_, nofun, h.fresh⟩
      intro sql' gen hAt hSome hEq
      cases hAt
      exact h.cached hSome hEq
    · exact h
  | look =>
    rw [step]
    split
    · exact inv_look h ‹_›
    · exact h
  | execute now =>
    rw [step]
    split
    · exact inv_execute h now (hSelects _ ‹_›)
    · exact h
  | reread =>
    rw [step]
    split
    · rename_i sql out hAt
      refine ⟨h.bumped, h.cached, nofun, ?_, h.fresh⟩
      intro sql' out' gen hAt' hEq
      exact hOrder sql out hAt
    · exact h
  | store =>
    rw [step]
    split
    · rename_i sql out gen hAt
      refine ⟨h.bumped, fun _ hEq => h.pending sql out gen hAt hEq, nofun, nofun, h.fresh⟩
    · exact h
  | change now currentDb stmt =>
    rw [step]
    split_ifs with hDue
    · rw [Bool.and_eq_true] at hDue
      exact inv_change h now currentDb hDue.2
    · exact h
  | bump =>
    rw [step]
    split
    · exact inv_bump h (hOrder _ ‹_›)
    · exact h

theorem inv_run {s : Race} (h : s.Inv) {ls : List RaceLabel}
    (hSelects : Trace.Along step Selects s ls) (hOrder : Trace.Along step InOrder s ls) :
    (Trace.run step s ls).Inv := by
  induction ls generalizing s with
  | nil => exact h
  | cons l ls ih => exact ih (inv_step h hSelects.1 hOrder.1) hSelects.2 hOrder.2

/-- Rows older than a bumped change are stored under the present generation and
answer the next SELECT of their text. -/
theorem stale_of_executed {s : Race} {sql : Str} {out : Bytes}
    (hAt : s.readerAt = .executed sql out) (hCommand : s.reader.phase = .command)
    (hOld : s.rowsAt < s.bumped) :
    ¬ (Trace.run step s [.reread, .store, .check sql, .look]).Fresh := by
  intro hFresh
  have hServed : (Trace.run step s [.reread, .store, .check sql, .look]).served =
      s.served ++ [⟨s.bumped, s.rowsAt⟩] := by
    simp [step, hAt, hCommand, look, engine]
  have hLast := hFresh ⟨s.bumped, s.rowsAt⟩ (by rw [hServed]; simp)
  exact absurd hLast (Nat.not_le_of_lt hOld)

end Race

/-- **The cache under a race.** Let the reader execute nothing but SELECTs. In
every run in which it re-reads the generation only while no change made since it
executed has been bumped, no SELECT is answered with rows older than a change
bumped before it began. Where such a run stands before a re-read that is not so,
the next SELECT of that text is answered with old rows. -/
theorem served_fresh (c : Conn) (ls : List RaceLabel) (hCache : c.l0Bytes = none)
    (hSelects : Trace.Along Race.step Race.Selects (Race.start c) ls)
    (hOrder : Trace.Along Race.step Race.InOrder (Race.start c) ls) :
    (Trace.run Race.step (Race.start c) ls).Fresh ∧
      ∀ sql out, (Trace.run Race.step (Race.start c) ls).readerAt = .executed sql out →
        (Trace.run Race.step (Race.start c) ls).reader.phase = .command →
        ¬ (Trace.run Race.step (Race.start c) ls).InOrder .reread →
        ¬ (Trace.run Race.step (Race.start c) (ls ++ [.reread, .store, .check sql, .look])).Fresh := by
  refine ⟨(Race.inv_run (Race.inv_start hCache) hSelects hOrder).fresh, ?_⟩
  intro sql out hAt hCommand hNot
  rw [Trace.run_append]
  refine Race.stale_of_executed hAt hCommand (Nat.lt_of_not_le fun hLe => hNot ?_)
  exact fun _ _ _ => hLe

end Race

-- ---------------------------------------------------------------------------
-- A DELETE between execution and re-read
-- ---------------------------------------------------------------------------

set_option maxRecDepth 2000

section Delete

def fromT : TableWithJoins := .mk (.table [⟨"t", none⟩] []) []

/-- `SELECT a FROM t` -/
def selectA : Query :=
  .mk (.select (.mk none [.unnamedExpr (.identifier ⟨"a", none⟩)] [fromT] none (.expressions []) none))
    none none none

local instance stalePlatform : Platform := tablePlatform [("SELECT a FROM t", [.query selectA])]

/-- `DELETE FROM t` -/
def deleteAll : Statement := .delete { from_ := [fromT], selection := none }

/-- A session on a fresh engine with one row in table t of database test. -/
def oneRowSession : Conn :=
  { Conn.start ⟨[]⟩ [] { Engine.fresh [] with
      databases := HashMap.ofList [("test", ⟨"test", HashMap.ofList
        [("t", { Table.create "test" "t" [⟨"a", .float, true, false⟩] [] with rows := [[.int 1]] })]⟩)] }
      [] with phase := .command }

theorem selectText_selectA {e : Engine} (h : e.stmtCache = HashMap.empty) :
    SelectText e "SELECT a FROM t" := by
  have hShort : shortcutOf (toUppercase (trim "SELECT a FROM t")) = none := by decide +kernel
  rw [SelectText, hShort]
  intro stmts hAnswer stmt hMem
  rw [parseAnswer, h] at hAnswer
  cases hAnswer
  obtain rfl := List.mem_singleton.1 hMem
  exact ⟨selectA, rfl⟩

/-- The SELECT, and what the writer does after it. -/
def quietRun : List RaceLabel :=
  [.check "SELECT a FROM t", .look, .execute 0, .reread, .store, .change 0 none deleteAll, .bump]

theorem selects_execute :
    (((Race.start oneRowSession).step (.check "SELECT a FROM t")).step .look).Selects
      (.execute 0) := by
  have hAt : (((Race.start oneRowSession).step (.check "SELECT a FROM t")).step .look).readerAt =
      .missed "SELECT a FROM t" := by decide +kernel
  intro sql hMissed
  rw [hAt] at hMissed
  cases hMissed
  rw [Race.engine_look, Race.engine_check]
  exact selectText_selectA rfl

theorem served_fresh_quiet :
    (Trace.run Race.step (Race.start oneRowSession) quietRun).Fresh ∧
      ∀ sql out, (Trace.run Race.step (Race.start oneRowSession) quietRun).readerAt =
          .executed sql out →
        (Trace.run Race.step (Race.start oneRowSession) quietRun).reader.phase = .command →
        ¬ (Trace.run Race.step (Race.start oneRowSession) quietRun).InOrder .reread →
        ¬ (Trace.run Race.step (Race.start oneRowSession)
          (quietRun ++ [.reread, .store, .check sql, .look])).Fresh := by
  refine served_fresh oneRowSession quietRun rfl
    ⟨trivial, trivial, selects_execute, trivial, trivial, trivial, trivial, trivial⟩
    ⟨trivial, trivial, trivial, fun _ _ _ => ?_, trivial, trivial, fun _ _ _ => ?_, trivial⟩
  · decide +kernel
  · exact Race.not_holds (by decide +kernel) (by decide +kernel)

/-- The writer deletes the row and bumps after the reader has executed and
before it reads the generation again. -/
def racingRun : List RaceLabel :=
  [.check "SELECT a FROM t", .look, .execute 0, .change 0 none deleteAll, .bump, .reread, .store,
    .check "SELECT a FROM t", .look]

theorem not_served_fresh :
    ¬ ∀ (c : Conn) (ls : List RaceLabel), c.l0Bytes = none →
      Trace.Along Race.step Race.Selects (Race.start c) ls →
      (Trace.run Race.step (Race.start c) ls).Fresh := by
  intro hAll
  have hFresh := hAll oneRowSession racingRun rfl
    ⟨trivial, trivial, selects_execute, trivial, trivial, trivial, trivial, trivial, trivial, trivial⟩
  have hServed : (Trace.run Race.step (Race.start oneRowSession) racingRun).served = [⟨1, 0⟩] := by
    decide +kernel
  have hLast := hFresh ⟨1, 0⟩ (by rw [hServed]; exact List.mem_singleton_self _)
  exact absurd hLast (by decide)

end Delete

end RunAlexDb
