import Mathlib.Data.List.Flatten
import Mathlib.Data.List.Perm.Basic

/-!
# Joins — the relational joins of two lists

A join of `l` and `r` by a condition `θ` has the pairs that meet it, and, outer
on one side, the elements of that side that are in no pair. A loop over `l` that
writes out an element without a partner where it stands gives the left join in
another order. Loops in a row, each with a condition on what has been put together
so far, give the tuples that meet all of them, the first list outermost.

Main results: `leftLoop_perm` and `loops_eq`.
-/

inductive JoinKind
  | inner | left | right
deriving DecidableEq, Repr

section Joins

variable {α β : Type} (θ : α → β → Bool)

/-- The pairs that meet the condition. -/
def joinPairs (l : List α) (r : List β) : List (α × β) :=
  l.flatMap fun a => (r.filter (θ a)).map fun b => (a, b)

/-- A join; the side that has no partner is missing. -/
def relJoin (l : List α) (r : List β) : JoinKind → List (Option α × Option β)
  | .inner => (joinPairs θ l r).map fun p => (some p.1, some p.2)
  | .left => (joinPairs θ l r).map (fun p => (some p.1, some p.2)) ++
      (l.filter fun a => r.all fun b => !θ a b).map fun a => (some a, none)
  | .right => (joinPairs θ l r).map (fun p => (some p.1, some p.2)) ++
      (r.filter fun b => l.all fun a => !θ a b).map fun b => (none, some b)

/-- What an element contributes to a nested loop, with `outer` itself when it has
no partner. -/
def loopRow (outer : Bool) (r : List β) (a : α) : List (Option α × Option β) :=
  if (r.filter (θ a)).isEmpty && outer then [(some a, none)]
  else (r.filter (θ a)).map fun b => (some a, some b)

theorem innerLoop_eq (l : List α) (r : List β) :
    l.flatMap (loopRow θ false r) = relJoin θ l r .inner := by
  rw [relJoin, joinPairs, List.map_flatMap]
  refine List.flatMap_congr fun a _ => ?_
  rw [loopRow, Bool.and_false, if_neg Bool.false_ne_true, List.map_map]
  rfl

/-- **The left join as a loop.** -/
theorem leftLoop_perm (l : List α) (r : List β) :
    (l.flatMap (loopRow θ true r)).Perm (relJoin θ l r .left) := by
  induction l with
  | nil => exact List.Perm.refl _
  | cons a l ih =>
    have hPairs : joinPairs θ (a :: l) r =
        (r.filter (θ a)).map (fun b => (a, b)) ++ joinPairs θ l r := by
      rw [joinPairs, List.flatMap_cons]
      rfl
    rw [List.flatMap_cons, loopRow, relJoin, hPairs, List.map_append, List.map_map,
      List.filter_cons, Bool.and_true]
    by_cases hNone : (r.filter (θ a)).isEmpty = true
    · have hNil := List.isEmpty_iff.1 hNone
      have hAlone : (r.all fun b => !θ a b) = true := by
        rw [List.all_eq_true]
        intro b hb
        have hNot := List.filter_eq_nil_iff.1 hNil b hb
        simpa using hNot
      rw [if_pos hNone, if_pos hAlone, hNil]
      exact (ih.cons _).trans List.perm_middle.symm
    · have hPartner : ¬ (r.all fun b => !θ a b) = true := by
        intro hAlone
        refine hNone (List.isEmpty_iff.2 (List.filter_eq_nil_iff.2 fun b hb => ?_))
        simpa using List.all_eq_true.1 hAlone b hb
      rw [if_neg hNone, if_neg hPartner, List.append_assoc]
      exact ih.append_left _

end Joins

section Loops

variable {β γ : Type} (extend : γ → β → γ)

/-- The tuples with one element of each list, the first list outermost. -/
def tuples : List (List β) → List (List β)
  | [] => [[]]
  | l :: ls => l.flatMap fun b => (tuples ls).map (b :: ·)

/-- What is put together so far, extended in one loop after the other. -/
def loops : List ((γ → Bool) × List β) → List γ → List γ
  | [], rows => rows
  | step :: steps, rows => loops steps (rows.flatMap fun a => (step.2.map (extend a)).filter step.1)

/-- A tuple that meets each condition as it is put together. -/
def meetsAll : γ → List ((γ → Bool) × List β) → List β → Bool
  | a, step :: steps, b :: bs => step.1 (extend a b) && meetsAll (extend a b) steps bs
  | _, _, _ => true

/-- The tuples that begin with `b`, if what they begin with meets its condition. -/
theorem filter_meetsAll (step : (γ → Bool) × List β) (steps : List ((γ → Bool) × List β)) (a : γ) (b : β)
    (ts : List (List β)) :
    ((ts.map (b :: ·)).filter (meetsAll extend a (step :: steps))).map (List.foldl extend a) =
      if step.1 (extend a b) then
        (ts.filter (meetsAll extend (extend a b) steps)).map (List.foldl extend (extend a b))
      else [] := by
  rw [List.filter_map]
  split
  · rename_i hMeets
    have hTail : meetsAll extend a (step :: steps) ∘ (b :: ·) = meetsAll extend (extend a b) steps := by
      funext t
      show (step.1 (extend a b) && _) = _
      rw [hMeets, Bool.true_and]
    rw [hTail, List.map_map]
    rfl
  · rename_i hFails
    have hNone : ts.filter (meetsAll extend a (step :: steps) ∘ (b :: ·)) = [] := by
      refine List.filter_eq_nil_iff.2 fun t _ hBoth => hFails ?_
      exact (Bool.and_eq_true_iff.1 hBoth).1
    rw [hNone]
    rfl

/-- **Loops in a row.** -/
theorem loops_eq (steps : List ((γ → Bool) × List β)) (rows : List γ) :
    loops extend steps rows = rows.flatMap fun a =>
      ((tuples (steps.map Prod.snd)).filter (meetsAll extend a steps)).map (List.foldl extend a) := by
  induction steps generalizing rows with
  | nil =>
    have hOne : ∀ a : γ, ((tuples ([] : List (List β))).filter (meetsAll extend a [])).map
        (List.foldl extend a) = [a] := fun _ => rfl
    rw [loops, List.map_nil]
    simp only [hOne, List.flatMap_singleton']
  | cons step steps ih =>
    rw [loops, ih, List.flatMap_assoc]
    refine List.flatMap_congr fun a _ => ?_
    rw [List.map_cons, tuples, List.filter_flatMap, List.map_flatMap]
    simp only [filter_meetsAll]
    -- both sides go through the elements of the list that is looped over
    induction step.2 with
    | nil => rfl
    | cons b l ihList =>
      rw [List.map_cons, List.filter_cons, List.flatMap_cons]
      split
      · rw [List.flatMap_cons, ihList]
      · rw [ihList, List.nil_append]

end Loops
