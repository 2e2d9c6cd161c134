import Mathlib.Data.List.Induction

/-!
# Trace — runs of a machine and what its trace may hold

A machine is a step function `σ → ℓ → σ`; a run folds it over a list of labels.
`Along C s ls` says that every step of the run from `s` meets the condition `C`
in the state it starts from.

A trace is guarded when each of its events is allowed by the events before it.

Main results: `invariant_run`, `related_run`, `answers_replay` and
`guarded_append_one`.
-/

namespace Trace

variable {σ τ ℓ : Type}

/-- The state a run ends in. -/
def run (step : σ → ℓ → σ) (s : σ) (ls : List ℓ) : σ := ls.foldl step s

/-- Every step of the run from `s` meets `C`. -/
def Along (step : σ → ℓ → σ) (C : σ → ℓ → Prop) : σ → List ℓ → Prop
  | _, [] => True
  | s, l :: ls => C s l ∧ Along step C (step s l) ls

variable {step : σ → ℓ → σ} {C : σ → ℓ → Prop}

@[simp] theorem run_nil (s : σ) : run step s [] = s := rfl

@[simp] theorem run_cons (s : σ) (l : ℓ) (ls : List ℓ) :
    run step s (l :: ls) = run step (step s l) ls := rfl

theorem run_append (s : σ) (ls ms : List ℓ) :
    run step s (ls ++ ms) = run step (run step s ls) ms := by
  rw [run, run, run, List.foldl_append]

theorem along_true (s : σ) (ls : List ℓ) : Along step (fun _ _ => True) s ls := by
  induction ls generalizing s with
  | nil => trivial
  | cons l ls ih => exact ⟨trivial, ih _⟩

instance decidableAlong [∀ s l, Decidable (C s l)] :
    ∀ (ls : List ℓ) (s : σ), Decidable (Along step C s ls)
  | [], _ => isTrue trivial
  | l :: ls, s =>
    haveI := decidableAlong ls (step s l)
    inferInstanceAs (Decidable (C s l ∧ Along step C (step s l) ls))

/-- A condition on the labels alone. -/
theorem along_of_forall {ls : List ℓ} (h : ∀ l ∈ ls, ∀ s, C s l) (s : σ) : Along step C s ls := by
  induction ls generalizing s with
  | nil => trivial
  | cons l ls ih =>
    exact ⟨h l (List.mem_cons_self ..) s, ih (fun m hm => h m (List.mem_cons_of_mem _ hm)) _⟩

/-- The condition along a run holds along each of its beginnings. -/
theorem Along.prefix {s : σ} {ls ms : List ℓ} (h : Along step C s (ls ++ ms)) :
    Along step C s ls := by
  induction ls generalizing s with
  | nil => trivial
  | cons l ls ih => exact ⟨h.1, ih h.2⟩

theorem Along.and {D : σ → ℓ → Prop} {s : σ} {ls : List ℓ} (h : Along step C s ls) (h' : Along step D s ls) :
    Along step (fun s l => C s l ∧ D s l) s ls := by
  induction ls generalizing s with
  | nil => trivial
  | cons l ls ih => exact ⟨⟨h.1, h'.1⟩, ih h.2 h'.2⟩

/-- An invariant kept by every step that meets the condition holds at the end
of every run that meets it. -/
theorem invariant_run {I : σ → Prop} (hStep : ∀ s l, I s → C s l → I (step s l))
    {s : σ} {ls : List ℓ} (hInit : I s) (hRun : Along step C s ls) : I (run step s ls) := by
  induction ls generalizing s with
  | nil => exact hInit
  | cons l ls ih => exact ih (hStep s l hInit hRun.1) hRun.2

/-- What the condition gives in the states of an invariant, it gives along the
run. -/
theorem Along.of_invariant {I : σ → Prop} {D : σ → ℓ → Prop}
    (hStep : ∀ s l, I s → C s l → I (step s l)) (hImp : ∀ s l, I s → C s l → D s l)
    {s : σ} {ls : List ℓ} (hInit : I s) (hRun : Along step C s ls) : Along step D s ls := by
  induction ls generalizing s with
  | nil => trivial
  | cons l ls ih => exact ⟨hImp s l hInit hRun.1, ih (hStep s l hInit hRun.1) hRun.2⟩

/-- The same without a condition. -/
theorem invariant_run_all {I : σ → Prop} (hStep : ∀ s l, I s → I (step s l)) {s : σ}
    (hInit : I s) (ls : List ℓ) : I (run step s ls) := by
  induction ls generalizing s with
  | nil => exact hInit
  | cons l ls ih => exact ih (hStep s l hInit)

/-- Two machines whose steps keep a relation are related at the end of every
run that meets the condition of the first. -/
theorem related_run {step' : τ → ℓ → τ} {R : σ → τ → Prop}
    (hStep : ∀ s t l, R s t → C s l → R (step s l) (step' t l))
    {s : σ} {t : τ} {ls : List ℓ} (hInit : R s t) (hRun : Along step C s ls) :
    R (run step s ls) (run step' t ls) := by
  induction ls generalizing s t with
  | nil => exact hInit
  | cons l ls ih => exact ih (hStep s t l hInit hRun.1) hRun.2

/-- The same without a condition. -/
theorem related_run_all {step' : τ → ℓ → τ} {R : σ → τ → Prop}
    (hStep : ∀ s t l, R s t → R (step s l) (step' t l)) {s : σ} {t : τ} (hInit : R s t) (ls : List ℓ) :
    R (run step s ls) (run step' t ls) :=
  related_run (C := fun _ _ => True) (fun s t l h _ => hStep s t l h) hInit (along_true s ls)

-- ---------------------------------------------------------------------------
-- Runs played again on another machine
-- ---------------------------------------------------------------------------

section Replay

variable {κ ο : Type}

/-- What a run answers: some labels have an answer, in the state they meet. -/
def answers (step : σ → ℓ → σ) (out : σ → ℓ → Option ο) : σ → List ℓ → List ο
  | _, [] => []
  | s, l :: ls => (out s l).toList ++ answers step out (step s l) ls

/-- For each label of a run, those that the other machine takes for it. -/
def replay (step : σ → ℓ → σ) (f : σ → ℓ → List κ) : σ → List ℓ → List κ
  | _, [] => []
  | s, l :: ls => f s l ++ replay step f (step s l) ls

theorem answers_append (out : σ → ℓ → Option ο) (s : σ) (ls ms : List ℓ) :
    answers step out s (ls ++ ms) = answers step out s ls ++ answers step out (run step s ls) ms := by
  induction ls generalizing s with
  | nil => rfl
  | cons l ls ih => rw [List.cons_append, answers, answers, ih, List.append_assoc, run_cons]

theorem answers_singleton (out : σ → ℓ → Option ο) (s : σ) (l : ℓ) :
    answers step out s [l] = (out s l).toList := List.append_nil _

/-- The labels do not depend on the states. -/
theorem replay_const (g : ℓ → List κ) (s : σ) (ls : List ℓ) :
    replay step (fun _ l => g l) s ls = ls.flatMap g := by
  induction ls generalizing s with
  | nil => rfl
  | cons l ls ih => rw [replay, ih, List.flatMap_cons]

/-- **Played again.** Where each label, and what the other machine takes for it,
keep a relation and have the same answers, so do the runs. -/
theorem answers_replay {step' : τ → κ → τ} {out : σ → ℓ → Option ο} {out' : τ → κ → Option ο}
    {f : σ → ℓ → List κ} {R : σ → τ → Prop}
    (hStep : ∀ s t l, R s t → C s l →
      (out s l).toList = answers step' out' t (f s l) ∧ R (step s l) (run step' t (f s l)))
    {s : σ} {t : τ} {ls : List ℓ} (hInit : R s t) (hRun : Along step C s ls) :
    answers step out s ls = answers step' out' t (replay step f s ls) ∧
      R (run step s ls) (run step' t (replay step f s ls)) := by
  induction ls generalizing s t with
  | nil => exact ⟨rfl, hInit⟩
  | cons l ls ih =>
    obtain ⟨hOut, hNext⟩ := hStep s t l hInit hRun.1
    obtain ⟨hOuts, hEnd⟩ := ih hNext hRun.2
    refine ⟨?_, ?_⟩
    · rw [answers, replay, answers_append, hOut, hOuts]
    · rw [run_cons, replay, run_append]
      exact hEnd

/-- The same, label by label. -/
theorem answers_related {step' : τ → ℓ → τ} {out : σ → ℓ → Option ο} {out' : τ → ℓ → Option ο}
    {R : σ → τ → Prop}
    (hStep : ∀ s t l, R s t → C s l → out s l = out' t l ∧ R (step s l) (step' t l))
    {s : σ} {t : τ} {ls : List ℓ} (hInit : R s t) (hRun : Along step C s ls) :
    answers step out s ls = answers step' out' t ls ∧ R (run step s ls) (run step' t ls) := by
  induction ls generalizing s t with
  | nil => exact ⟨rfl, hInit⟩
  | cons l ls ih =>
    obtain ⟨hOut, hNext⟩ := hStep s t l hInit hRun.1
    obtain ⟨hOuts, hEnd⟩ := ih hNext hRun.2
    refine ⟨?_, hEnd⟩
    rw [answers, answers, hOut, hOuts]

end Replay

-- ---------------------------------------------------------------------------
-- Guarded traces
-- ---------------------------------------------------------------------------

variable {ε : Type}

/-- Every event of the trace is allowed by those before it. -/
def Guarded (allowed : List ε → ε → Prop) (tr : List ε) : Prop :=
  ∀ before e rest, tr = before ++ e :: rest → allowed before e

variable {allowed : List ε → ε → Prop}

@[simp] theorem guarded_nil : Guarded allowed [] := by
  intro before e rest h
  simp at h

/-- **One more event.** A trace stays guarded exactly when the new event is
allowed by the trace so far. -/
theorem guarded_append_one (tr : List ε) (e : ε) :
    Guarded allowed (tr ++ [e]) ↔ Guarded allowed tr ∧ allowed tr e := by
  constructor
  · intro h
    refine ⟨fun before x rest hEq => h before x (rest ++ [e]) (by rw [hEq]; simp), ?_⟩
    exact h tr e [] rfl
  · rintro ⟨hTr, hNew⟩ before x rest hEq
    rcases List.eq_nil_or_concat rest with rfl | ⟨init, last, rfl⟩
    · -- the event is the new one
      have hSplit := List.append_inj' hEq rfl
      obtain ⟨rfl, hx⟩ := hSplit
      rw [List.cons.injEq] at hx
      rw [← hx.1]
      exact hNew
    · -- the event is an old one
      have hEq' : tr ++ [e] = (before ++ x :: init) ++ [last] := by simpa using hEq
      exact hTr before x init (List.append_inj' hEq' rfl).1

/-- A guarded trace extended by events that the old trace, and everything after
it, allows. -/
theorem guarded_append {tr new : List ε} (hTr : Guarded allowed tr)
    (hMono : ∀ before before' e, allowed before e → allowed (before ++ before') e)
    (hNew : ∀ e ∈ new, allowed tr e) : Guarded allowed (tr ++ new) := by
  induction new using List.reverseRecOn with
  | nil => simpa using hTr
  | append_singleton new e ih =>
    rw [← List.append_assoc, guarded_append_one]
    refine ⟨ih fun x hx => hNew x (by simp [hx]), ?_⟩
    exact hMono _ _ _ (hNew e (by simp))

end Trace
