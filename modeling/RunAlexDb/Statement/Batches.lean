import RunAlexDb.Model.Concrete
import RunAlexDb.Statement.Runs

/-!
# Batches — several statements in one text

The statements of a text run one after the other, each on the engine the one
before it left, whether that one failed or not. The answer of the text is the
answer of its last statement; what the others answered is lost.

Main result: `execute_batch`.
-/

set_option linter.unusedSectionVars false

namespace RunAlexDb

open Text Platform

section Batches

variable [Platform]

-- ---------------------------------------------------------------------------
-- Answers
-- ---------------------------------------------------------------------------

/-- What each job answers, none of them stopping the next. -/
def Job.answers : Engine → List Job → List (Rust QueryResult)
  | _, [] => []
  | e, j :: rest => (j.run.exec e).1 :: Job.answers (j.step e) rest

theorem length_answers (jobs : List Job) (e : Engine) : (Job.answers e jobs).length = jobs.length := by
  induction jobs generalizing e with
  | nil => rfl
  | cons j rest ih =>
    unfold Job.answers
    rw [List.length_cons, List.length_cons, ih]

/-- A batch that comes to its end has run all its jobs, and returns the last answer. -/
structure RunsAll (e : Engine) (last : QueryResult) (jobs : List Job) (r : QueryResult) (e' : Engine) :
    Prop where
  engine : e' = Trace.run Job.step e jobs
  answers : ∃ rs : List QueryResult, Job.answers e jobs = rs.map .ok ∧ r = rs.getLastD last

theorem RunsAll.cons {e e' : Engine} {last r : QueryResult} {j : Job} {jobs : List Job}
    {r' : QueryResult} (hAnswer : (j.run.exec e).1 = .ok r') (h : RunsAll (j.step e) r' jobs r e') :
    RunsAll e last (j :: jobs) r e' := by
  obtain ⟨rs, hAnswers, hLast⟩ := h.answers
  refine ⟨h.engine, r' :: rs, ?_, ?_⟩
  · unfold Job.answers
    rw [hAnswer, hAnswers]
    rfl
  · rw [hLast, List.getLastD_cons]

theorem runsAll_execBatch {now : Nat} {stmts : List Statement} {r : QueryResult} {e' : Engine} :
    ∀ {effDb : Option Str} {last : QueryResult} {e : Engine},
      (execBatch now effDb last stmts).exec e = (.ok r, e') →
        RunsAll e last (textJobs now effDb stmts) r e' := by
  induction stmts with
  | nil =>
    intro effDb last e h
    obtain ⟨hAnswer, rfl⟩ := Prod.mk.inj h
    exact ⟨rfl, [], rfl, (Except.ok.inj hAnswer).symm⟩
  | cons stmt rest ih =>
    intro effDb last e h
    have hJob : (Job.text now (stmt.effDb effDb) stmt).run.exec e =
        (execStmt now (stmt.effDb effDb) stmt >>= bumpIfOk).exec e := rfl
    rw [execBatch, Prog.exec_bind] at h
    rw [Prog.exec_bind] at hJob
    rcases hRun : (execStmt now (stmt.effDb effDb) stmt).exec e with ⟨fault | r', e₁⟩
    · rw [hRun] at h
      cases (Prod.mk.inj h).1
    · rw [hRun] at h hJob
      simp only at h hJob
      rw [Prog.exec_bind_ok (exec_bumpIfOk r' e₁)] at h
      rw [exec_bumpIfOk] at hJob
      have hStep : (Job.text now (stmt.effDb effDb) stmt).step e = ((bumpIfOk r').exec e₁).2 := by
        unfold Job.step
        rw [hJob]
      rw [textJobs]
      refine RunsAll.cons (congrArg Prod.fst hJob) ?_
      rw [hStep]
      exact ih h

theorem runsAll_execBatchPrepared {now : Nat} {bound : List Value} {currentDb : Option Str}
    {stmts : List Statement} {r : QueryResult} {e' : Engine} :
    ∀ {last : QueryResult} {e : Engine},
      (execBatchPrepared now bound currentDb last stmts).exec e = (.ok r, e') →
        RunsAll e last (preparedJobs now bound currentDb stmts) r e' := by
  induction stmts with
  | nil =>
    intro last e h
    obtain ⟨hAnswer, rfl⟩ := Prod.mk.inj h
    exact ⟨rfl, [], rfl, (Except.ok.inj hAnswer).symm⟩
  | cons stmt rest ih =>
    intro last e h
    have hJob : (Job.prepared now bound currentDb stmt).run.exec e =
        (execStmtPrepared now bound currentDb stmt).exec e := rfl
    rw [execBatchPrepared, Prog.exec_bind] at h
    rcases hRun : (execStmtPrepared now bound currentDb stmt).exec e with ⟨fault | r', e₁⟩
    · rw [hRun] at h
      cases (Prod.mk.inj h).1
    · rw [hRun] at h hJob
      have hStep : (Job.prepared now bound currentDb stmt).step e = e₁ := congrArg Prod.snd hJob
      refine RunsAll.cons (congrArg Prod.fst hJob) ?_
      rw [hStep]
      exact ih h

-- ---------------------------------------------------------------------------
-- Texts
-- ---------------------------------------------------------------------------

/-- What a text that comes to an end has done with its statements: none of them
has run and the answer is an error, or all of them have and the answer is that of
the last. -/
def AnswersLast (e : Engine) (sql : Str) (jobs : List Statement → List Job) (r : QueryResult)
    (e' : Engine) : Prop :=
  (r.isErr = true ∧ e' = e.parsed sql) ∨
    ∃ stmts, parseAnswer e sql = .ok stmts ∧
      ∃ rs : List QueryResult, Job.answers (e.parsed sql) (jobs stmts) = rs.map .ok ∧
        rs.length = stmts.length ∧ r = rs.getLastD (.ok 0 0) ∧
          e' = Trace.run Job.step (e.parsed sql) (jobs stmts)

theorem isErr_privilegeCheck {users : HashMap Str DbUser} {userName : Str} {currentDb : Option Str}
    {stmts : List Statement} {refusal : QueryResult}
    (h : privilegeCheck users userName currentDb stmts = some refusal) : refusal.isErr = true := by
  unfold privilegeCheck at h
  split at h
  · cases h
  · simp only at h
    split at h
    · obtain rfl := Option.some.inj h
      rfl
    · split_ifs at h
      obtain rfl := Option.some.inj h
      rfl

theorem RunsAll.answersLast {e : Engine} {sql : Str} {jobs : List Statement → List Job}
    {stmts : List Statement} {r : QueryResult} {e' : Engine} (hStmts : parseAnswer e sql = .ok stmts)
    (hLen : (jobs stmts).length = stmts.length)
    (h : RunsAll (e.parsed sql) (.ok 0 0) (jobs stmts) r e') : AnswersLast e sql jobs r e' := by
  obtain ⟨rs, hAnswers, hLast⟩ := h.answers
  refine .inr ⟨stmts, hStmts, rs, hAnswers, ?_, hLast, h.engine⟩
  have hSize := length_answers (jobs stmts) (e.parsed sql)
  rw [hAnswers, List.length_map, hLen] at hSize
  exact hSize

/-- **A text of several statements**, unless its beginning is answered without
parsing: every statement runs, also after one that failed, and the answer is that
of the last. -/
theorem execute_batch (now : Nat) (sql : Str) (currentDb : Option Str) (userName : Str) (e : Engine)
    (hText : shortcutOf (toUppercase (trim sql)) = none) :
    (∀ r e', (execute now sql currentDb userName).exec e = (.ok r, e') →
      AnswersLast e sql (textJobs now currentDb) r e') ∧
      ∀ params r e', (executePrepared now sql params currentDb userName).exec e = (.ok r, e') →
        AnswersLast e sql (preparedJobs now (params.map bindParam) currentDb) r e' := by
  constructor
  · intro r e' hRun
    rw [exec_execute_parsed hText] at hRun
    rcases hParse : parseAnswer e sql with msg | stmts
    · rw [hParse] at hRun
      obtain ⟨hAnswer, rfl⟩ := Prod.mk.inj hRun
      obtain rfl := Except.ok.inj hAnswer
      exact .inl ⟨rfl, rfl⟩
    · rw [hParse] at hRun
      simp only at hRun
      rcases hCheck : privilegeCheck e.users userName currentDb stmts with _ | refusal
      · rw [hCheck] at hRun
        have hLen := congrArg List.length (statements_textJobs now currentDb stmts)
        rw [List.length_map] at hLen
        exact RunsAll.answersLast hParse hLen (runsAll_execBatch hRun)
      · rw [hCheck] at hRun
        obtain ⟨hAnswer, rfl⟩ := Prod.mk.inj hRun
        obtain rfl := Except.ok.inj hAnswer
        exact .inl ⟨isErr_privilegeCheck hCheck, rfl⟩
  · intro params r e' hRun
    rw [exec_executePrepared] at hRun
    rcases hParse : parseAnswer e sql with msg | stmts
    · rw [hParse] at hRun
      obtain ⟨hAnswer, rfl⟩ := Prod.mk.inj hRun
      obtain rfl := Except.ok.inj hAnswer
      exact .inl ⟨rfl, rfl⟩
    · rw [hParse] at hRun
      simp only at hRun
      rcases hCheck : privilegeCheck e.users userName currentDb stmts with _ | refusal
      · rw [hCheck] at hRun
        exact RunsAll.answersLast hParse (List.length_map _) (runsAll_execBatchPrepared hRun)
      · rw [hCheck] at hRun
        obtain ⟨hAnswer, rfl⟩ := Prod.mk.inj hRun
        obtain rfl := Except.ok.inj hAnswer
        exact .inl ⟨isErr_privilegeCheck hCheck, rfl⟩

end Batches

-- ---------------------------------------------------------------------------
-- A failure that is not answered
-- ---------------------------------------------------------------------------

section Masked

set_option maxRecDepth 2000

/-- A table that is not there, and a new database. -/
def truncateCreate : List Statement :=
  [.truncate [[⟨"t", none⟩]], .createDatabase [⟨"a", none⟩]]

local instance batchesPlatform : Platform :=
  tablePlatform [("TRUNCATE t;CREATE DATABASE a", truncateCreate)]

theorem text_truncateCreate :
    shortcutOf (toUppercase (trim "TRUNCATE t;CREATE DATABASE a")) = none := by
  decide +kernel

theorem parse_truncateCreate :
    parseAnswer (Engine.fresh []) "TRUNCATE t;CREATE DATABASE a" = .ok truncateCreate := by
  have hCache : (Engine.fresh []).stmtCache = HashMap.empty := rfl
  have hParse : parseSql "TRUNCATE t;CREATE DATABASE a" = .ok truncateCreate := rfl
  unfold parseAnswer
  rw [hCache, HashMap.get_empty]
  rw [hParse]

theorem answer_truncateCreate :
    ((execute 0 "TRUNCATE t;CREATE DATABASE a" none "root").exec (Engine.fresh [])).1 =
      .ok (.ok 1 0) := by
  rw [exec_execute_parsed text_truncateCreate, parse_truncateCreate]
  rfl

theorem execute_batch_masked :
    AnswersLast (Engine.fresh []) "TRUNCATE t;CREATE DATABASE a" (textJobs 0 none) (.ok 1 0)
      ((execute 0 "TRUNCATE t;CREATE DATABASE a" none "root").exec (Engine.fresh [])).2 := by
  refine (execute_batch 0 "TRUNCATE t;CREATE DATABASE a" none "root" (Engine.fresh [])
    text_truncateCreate).1 _ _ ?_
  rw [← answer_truncateCreate]

/-- The first statement fails, the second makes its database, and the text is
answered OK. -/
theorem not_execute_batch :
    ¬ ∀ (now : Nat) (sql : Str) (currentDb : Option Str) (userName : Str) (e : Engine)
      (stmts : List Statement), parseAnswer e sql = .ok stmts →
      ∀ r, ((execute now sql currentDb userName).exec e).1 = .ok r → r.isErr = false →
        ∀ a ∈ Job.answers (e.parsed sql) (textJobs now currentDb stmts),
          a.toOption.any QueryResult.isErr = false := by
  intro hAll
  have hNone := hAll 0 "TRUNCATE t;CREATE DATABASE a" none "root" (Engine.fresh []) truncateCreate
    parse_truncateCreate _ answer_truncateCreate rfl
  have hFirst := hNone _ (List.mem_cons_self ..)
  cases hFirst

end Masked

end RunAlexDb
