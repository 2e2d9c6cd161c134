import RunAlexDb.Lib.Trace
import RunAlexDb.Statement.Calls

/-!
# Runs — calls of the engine as steps

A `Call` is a call of `execute` or `execute_prepared`. Unless a shortcut answers
it, it executes its statements one after the other up to the first panic; each
of them is a `Job`, a step of its own.

Main results: `step_shortcut`, `step_jobs` and `databases_step`.
-/

set_option linter.unusedSectionVars false

namespace RunAlexDb

open Text Platform

variable [Platform]

-- ---------------------------------------------------------------------------
-- Jobs
-- ---------------------------------------------------------------------------

/-- One statement as a batch executes it. -/
inductive Job
  | text (now : Nat) (currentDb : Option Str) (stmt : Statement)
  | prepared (now : Nat) (bound : List Value) (currentDb : Option Str) (stmt : Statement)

def Job.statement : Job → Statement
  | .text _ _ stmt => stmt
  | .prepared _ _ _ stmt => stmt

def Job.run : Job → EngineM QueryResult
  | .text now currentDb stmt => do
    let r ← execStmt now currentDb stmt
    bumpIfOk r
  | .prepared now bound currentDb stmt => execStmtPrepared now bound currentDb stmt

/-- The engine a job leaves, panic or not. -/
def Job.step (e : Engine) (j : Job) : Engine := (j.run.exec e).2

def Job.effects (e : Engine) : Job → List Effect
  | .text now currentDb stmt => stmt.effects now currentDb e
  | .prepared now bound currentDb stmt => stmt.effectsPrepared now bound currentDb e

theorem wrote_job (e : Engine) (j : Job) : Wrote e (j.effects e) (j.step e) := by
  cases j with
  | prepared now bound currentDb stmt => exact wrote_execStmtPrepared now bound currentDb stmt e
  | text now currentDb stmt =>
    have hStmt := wrote_execStmt now currentDb stmt e
    rw [Job.step, Job.run, Prog.exec_bind]
    rcases hRun : (execStmt now currentDb stmt).exec e with ⟨_ | r, e'⟩ <;> rw [hRun] at hStmt
    · exact hStmt
    · exact wrote_bumpIfOk hStmt r

/-- No job touches the user table. -/
theorem users_jobs (e : Engine) (jobs : List Job) :
    (Trace.run Job.step e jobs).users = e.users := by
  induction jobs generalizing e with
  | nil => rfl
  | cons j jobs ih => rw [Trace.run_cons, ih, (wrote_job e j).users]

/-- A job whose statement writes nothing leaves databases and last insert id. -/
theorem same_job {j : Job} (h : j.statement.writes = false) (e : Engine) :
    View.all.Same (j.step e) e := by
  cases j with
  | prepared now bound currentDb stmt =>
    rw [Job.step, Job.run, exec_of_not_writes_prepared stmt h]
    exact ⟨rfl, rfl, rfl⟩
  | text now currentDb stmt =>
    have hStmt := exec_of_not_writes stmt h now currentDb e
    rw [Job.step, Job.run, Prog.exec_bind]
    rcases hRun : (execStmt now currentDb stmt).exec e with ⟨_ | r, e'⟩ <;> rw [hRun] at hStmt <;>
      obtain rfl := hStmt
    · exact ⟨rfl, rfl, rfl⟩
    · exact same_bumpIfOk r e'

theorem same_jobs {jobs : List Job} (h : ∀ j ∈ jobs, j.statement.writes = false) (e : Engine) :
    View.all.Same (Trace.run Job.step e jobs) e := by
  induction jobs generalizing e with
  | nil => exact ⟨rfl, rfl, rfl⟩
  | cons j jobs ih =>
    have hRest := ih (fun k hk => h k (List.mem_cons_of_mem _ hk)) (j.step e)
    exact hRest.trans (same_job (h j (List.mem_cons_self ..)) e)

-- ---------------------------------------------------------------------------
-- Batches
-- ---------------------------------------------------------------------------

/-- The jobs of a batch, USE taken into account. -/
def textJobs (now : Nat) : Option Str → List Statement → List Job
  | _, [] => []
  | effDb, stmt :: rest => .text now (stmt.effDb effDb) stmt :: textJobs now (stmt.effDb effDb) rest

def preparedJobs (now : Nat) (bound : List Value) (currentDb : Option Str)
    (stmts : List Statement) : List Job := stmts.map (Job.prepared now bound currentDb)

theorem statements_textJobs (now : Nat) (effDb : Option Str) (stmts : List Statement) :
    (textJobs now effDb stmts).map Job.statement = stmts := by
  induction stmts generalizing effDb with
  | nil => rfl
  | cons stmt rest ih => rw [textJobs, List.map_cons, ih]; rfl

theorem mem_textJobs {now : Nat} {effDb : Option Str} {stmts : List Statement} {j : Job}
    (h : j ∈ textJobs now effDb stmts) : j.statement ∈ stmts := by
  rw [← statements_textJobs now effDb stmts]
  exact List.mem_map_of_mem h

theorem exec_bumpIfOk (r : QueryResult) (e : Engine) :
    (bumpIfOk r).exec e = (.ok r, ((bumpIfOk r).exec e).2) := by
  rw [bumpIfOk]
  split <;> rfl

/-- A batch runs its jobs up to the first panic. -/
theorem exec_execBatch (now : Nat) (effDb : Option Str) (last : QueryResult)
    (stmts : List Statement) (e : Engine) :
    ∃ jobs, jobs <+: textJobs now effDb stmts ∧
      ((execBatch now effDb last stmts).exec e).2 = Trace.run Job.step e jobs := by
  induction stmts generalizing effDb last e with
  | nil => exact ⟨[], List.nil_prefix, rfl⟩
  | cons stmt rest ih =>
    have hStep : Job.step e (.text now (stmt.effDb effDb) stmt) =
        ((execStmt now (stmt.effDb effDb) stmt >>= bumpIfOk).exec e).2 := rfl
    rw [execBatch, Prog.exec_bind, textJobs]
    rw [Prog.exec_bind] at hStep
    rcases hRun : (execStmt now (stmt.effDb effDb) stmt).exec e with ⟨_ | r, e'⟩ <;>
      rw [hRun] at hStep <;> simp only at hStep ⊢
    · exact ⟨[_], (List.prefix_cons_inj _).2 List.nil_prefix, by rw [Trace.run_cons, hStep]; rfl⟩
    · rw [Prog.exec_bind_ok (exec_bumpIfOk r e'), ← hStep]
      obtain ⟨jobs, hPrefix, hEq⟩ := ih (stmt.effDb effDb) r
        (Job.step e (.text now (stmt.effDb effDb) stmt))
      exact ⟨_ :: jobs, (List.prefix_cons_inj _).2 hPrefix, hEq⟩

theorem exec_execBatchPrepared (now : Nat) (bound : List Value) (currentDb : Option Str)
    (last : QueryResult) (stmts : List Statement) (e : Engine) :
    ∃ jobs, jobs <+: preparedJobs now bound currentDb stmts ∧
      ((execBatchPrepared now bound currentDb last stmts).exec e).2 = Trace.run Job.step e jobs := by
  induction stmts generalizing last e with
  | nil => exact ⟨[], List.nil_prefix, rfl⟩
  | cons stmt rest ih =>
    have hStep : Job.step e (.prepared now bound currentDb stmt) =
        ((execStmtPrepared now bound currentDb stmt).exec e).2 := rfl
    rw [execBatchPrepared, Prog.exec_bind, preparedJobs, List.map_cons]
    rcases hRun : (execStmtPrepared now bound currentDb stmt).exec e with ⟨_ | r, e'⟩ <;>
      rw [hRun] at hStep <;> simp only at hStep ⊢
    · exact ⟨[_], (List.prefix_cons_inj _).2 List.nil_prefix, by rw [Trace.run_cons, hStep]; rfl⟩
    · rw [← hStep]
      obtain ⟨jobs, hPrefix, hEq⟩ := ih r (Job.step e (.prepared now bound currentDb stmt))
      exact ⟨_ :: jobs, (List.prefix_cons_inj _).2 hPrefix, hEq⟩

-- ---------------------------------------------------------------------------
-- Calls
-- ---------------------------------------------------------------------------

/-- One call of the engine. -/
inductive Call
  | text (now : Nat) (sql : Str) (currentDb : Option Str)
  | prepared (now : Nat) (sql : Str) (params : List (Option Str)) (currentDb : Option Str)

namespace Call

def sql : Call → Str
  | .text _ sql _ => sql
  | .prepared _ sql _ _ => sql

def currentDb : Call → Option Str
  | .text _ _ currentDb => currentDb
  | .prepared _ _ _ currentDb => currentDb

def run (userName : Str) : Call → EngineM QueryResult
  | .text now sql currentDb => execute now sql currentDb userName
  | .prepared now sql params currentDb => executePrepared now sql params currentDb userName

/-- The engine a call leaves, panic or not. -/
def step (userName : Str) (e : Engine) (c : Call) : Engine := ((c.run userName).exec e).2

/-- Only texts are held against the shortcuts. -/
def shortcut : Call → Option Shortcut
  | .text _ sql _ => shortcutOf (toUppercase (trim sql))
  | .prepared .. => none

/-- The statements a call comes to execute: those of its text, none when it is
refused or answered without parsing. -/
def executed (userName : Str) (e : Engine) (c : Call) : List Statement :=
  match c.shortcut, parseAnswer e c.sql with
  | none, .ok stmts =>
    if (privilegeCheck e.users userName c.currentDb stmts).isSome then [] else stmts
  | _, _ => []

theorem executed_eq {c : Call} (hShort : c.shortcut = none) {e : Engine} {stmts : List Statement}
    (hStmts : parseAnswer e c.sql = .ok stmts) (userName : Str) :
    c.executed userName e =
      match privilegeCheck e.users userName c.currentDb stmts with
      | some _ => []
      | none => stmts := by
  simp only [executed, hShort, hStmts]
  cases privilegeCheck e.users userName c.currentDb stmts <;> rfl

/-- Its jobs. -/
def jobs (userName : Str) (e : Engine) (c : Call) : List Job :=
  match c with
  | .text now _ currentDb => textJobs now currentDb (c.executed userName e)
  | .prepared now _ params currentDb =>
    preparedJobs now (params.map bindParam) currentDb (c.executed userName e)

theorem statements_jobs (userName : Str) (e : Engine) (c : Call) :
    (c.jobs userName e).map Job.statement = c.executed userName e := by
  cases c with
  | text now sql currentDb => exact statements_textJobs _ _ _
  | prepared now sql params currentDb =>
    rw [jobs, preparedJobs, List.map_map]
    exact List.map_id'' (fun _ => rfl) _

theorem mem_executed {userName : Str} {e : Engine} {c : Call} {j : Job}
    (h : j ∈ c.jobs userName e) : j.statement ∈ c.executed userName e := by
  rw [← statements_jobs]
  exact List.mem_map_of_mem h

/-- **A call that a shortcut answers.** -/
theorem step_shortcut {c : Call} (h : c.shortcut.isSome = true) (userName : Str) (e : Engine) :
    UsersOnly e (c.step userName e) := by
  cases c with
  | prepared now sql params currentDb => cases h
  | text now sql currentDb =>
    obtain ⟨s, hShort⟩ := Option.isSome_iff_exists.1 h
    rw [step, run, exec_execute_shortcut hShort]
    exact usersOnly_execShortcut _ _ _ s e

/-- **Any other call** runs its jobs up to the first panic. -/
theorem step_jobs {c : Call} (h : c.shortcut = none) (userName : Str) (e : Engine) :
    ∃ jobs, jobs <+: c.jobs userName e ∧
      c.step userName e = Trace.run Job.step (e.parsed c.sql) jobs := by
  have hNone : ∀ e', c.step userName e = e' → e' = e.parsed c.sql →
      ∃ jobs, jobs <+: c.jobs userName e ∧
        c.step userName e = Trace.run Job.step (e.parsed c.sql) jobs := by
    intro e' hStep hEq
    exact ⟨[], List.nil_prefix, hStep.trans hEq⟩
  cases c with
  | text now sql currentDb =>
    have hExec := exec_execute_parsed h now currentDb userName e
    cases hAnswer : parseAnswer e sql with
    | error msg =>
      simp only [hAnswer] at hExec
      exact hNone _ (congrArg Prod.snd hExec) rfl
    | ok stmts =>
      cases hRefused : privilegeCheck e.users userName currentDb stmts with
      | some refusal =>
        simp only [hAnswer, hRefused] at hExec
        exact hNone _ (congrArg Prod.snd hExec) rfl
      | none =>
        simp only [hAnswer, hRefused] at hExec
        have hStmts : (Call.text now sql currentDb).executed userName e = stmts := by
          rw [executed_eq h hAnswer userName, Call.currentDb, hRefused]
        obtain ⟨jobs, hPrefix, hEq⟩ := exec_execBatch now currentDb (.ok 0 0) stmts (e.parsed sql)
        refine ⟨jobs, by rwa [Call.jobs, hStmts], ?_⟩
        rw [step, run, hExec, hEq]
        rfl
  | prepared now sql params currentDb =>
    have hExec := exec_executePrepared now sql params currentDb userName e
    cases hAnswer : parseAnswer e sql with
    | error msg =>
      simp only [hAnswer] at hExec
      exact hNone _ (congrArg Prod.snd hExec) rfl
    | ok stmts =>
      cases hRefused : privilegeCheck e.users userName currentDb stmts with
      | some refusal =>
        simp only [hAnswer, hRefused] at hExec
        exact hNone _ (congrArg Prod.snd hExec) rfl
      | none =>
        simp only [hAnswer, hRefused] at hExec
        have hStmts : (Call.prepared now sql params currentDb).executed userName e = stmts := by
          rw [executed_eq h hAnswer userName, Call.currentDb, hRefused]
        obtain ⟨jobs, hPrefix, hEq⟩ := exec_execBatchPrepared now (params.map bindParam) currentDb
          (.ok 0 0) stmts (e.parsed sql)
        refine ⟨jobs, by rwa [Call.jobs, hStmts], ?_⟩
        rw [step, run, hExec, hEq]
        rfl

end Call

end RunAlexDb
