import RunAlexDb.Lib.TotalPreorders

/-!
# KeyedSorts — a list sorted by several keys, the last key first

A stable sort leaves what ties in its order. Sorted stably by the last key, then by
the one before it and so on to the first, a list is in the order of the first key, of
the second one where the first ties, and so on, and what ties in all keys stays in the
order of the list.

Main result: `sortedStably_sortAll`.
-/

namespace KeyedSorts

open TotalPreorders

variable {α : Type}

/-- The list sorted by `cmp`, with ties in the order they had. -/
structure SortedStably (cmp : α → α → Ordering) (l out : List α) : Prop where
  perm : out.Perm l
  ordered : out.Pairwise fun a b => cmp a b ≠ .gt
  ties : ∀ a ∈ l, out.filter (fun b => cmp a b = .eq) = l.filter fun b => cmp a b = .eq

/-- The insertion sort, which is stable. -/
def stableSort (cmp : α → α → Ordering) (l : List α) : List α :=
  l.insertionSort fun a b => cmp a b ≠ .gt

-- ---------------------------------------------------------------------------
-- One sort
-- ---------------------------------------------------------------------------

section One

variable {cmp : α → α → Ordering} {l : List α}

theorem perm_stableSort (cmp : α → α → Ordering) (l : List α) : (stableSort cmp l).Perm l :=
  List.perm_insertionSort ..

theorem filter_orderedInsert_of {p : α → Bool} {a : α}
    (h : p a = true → ∀ b ∈ l, p b = true → cmp a b ≠ .gt) :
    (l.orderedInsert (fun a b => cmp a b ≠ .gt) a).filter p = (a :: l).filter p := by
  induction l with
  | nil => rfl
  | cons b l ih =>
    rw [List.orderedInsert]
    split
    · rfl
    · rename_i hGt
      rw [List.filter_cons, ih fun ha c hc => h ha c (List.mem_cons_of_mem _ hc), List.filter_cons,
        List.filter_cons, List.filter_cons]
      -- the new element passes only what the filter leaves out, or is left out itself
      by_cases ha : p a = true
      · have hb : ¬p b = true := fun hb => hGt (h ha b (List.mem_cons_self ..) hb)
        rw [if_neg hb, if_neg hb, if_pos ha]
      · rw [if_neg ha, if_neg ha]

/-- What ties stays in its order. -/
theorem filter_stableSort {p : α → Bool}
    (h : ∀ a ∈ l, ∀ b ∈ l, p a = true → p b = true → cmp a b ≠ .gt) :
    (stableSort cmp l).filter p = l.filter p := by
  unfold stableSort
  induction l with
  | nil => rfl
  | cons a l ih =>
    have hTail := ih fun b hb c hc => h b (List.mem_cons_of_mem _ hb) c (List.mem_cons_of_mem _ hc)
    rw [List.insertionSort_cons, filter_orderedInsert_of, List.filter_cons, hTail, List.filter_cons]
    intro ha b hb
    exact h a (List.mem_cons_self ..) b (List.mem_cons_of_mem _ ((List.mem_insertionSort _).1 hb)) ha

/-- A list in the order of `R`, sorted by `cmp`, is in the order of `cmp` and, where that
ties, of `R`. -/
theorem pairwise_stableSort {S : Set α} (h : TotalPreorderOn cmp S) {R : α → α → Prop}
    (hl : ∀ a ∈ l, a ∈ S) (hTrans : ∀ a ∈ l, ∀ b ∈ l, ∀ c ∈ l, R a b → R b c → R a c)
    (hR : l.Pairwise R) :
    (stableSort cmp l).Pairwise fun a b => cmp a b = .lt ∨ cmp a b = .eq ∧ R a b := by
  have hNe : ∀ {o : Ordering} {P : Prop}, o = .lt ∨ o = .eq ∧ P → o ≠ .gt := by
    rintro o P (rfl | ⟨rfl, -⟩) <;> nofun
  refine pairwise_insertionSort_of_pairwise (fun a ha b hb c hc hab hbc => ?_) ?_
  · rcases hab with hLt | ⟨hEq, hRab⟩
    · exact .inl (h.lt_of_lt_of_ne_gt (hl a ha) (hl b hb) (hl c hc) hLt (hNe hbc))
    · rcases hbc with hLt | ⟨hEq', hRbc⟩
      · exact .inl (h.lt_of_ne_gt_of_lt (hl a ha) (hl b hb) (hl c hc) (by rw [hEq]; nofun) hLt)
      · have hba := h.eq_symm (hl a ha) (hl b hb) hEq
        have hEqs := h.eq_of_eq_eq (hl b hb) (hl a ha) (hl c hc) hba hEq'
        exact .inr ⟨hEqs, hTrans a ha b hb c hc hRab hRbc⟩
  · refine hR.imp_of_mem fun {a b} ha hb hRab => ⟨fun hLe => ?_, fun hGt => ?_⟩
    · cases hcmp : cmp a b with
      | lt => exact .inl rfl
      | eq => exact .inr ⟨rfl, hRab⟩
      | gt => exact absurd hcmp hLe
    · exact .inl (h.lt_of_gt (hl a ha) (hl b hb) (not_not.1 hGt))

end One

-- ---------------------------------------------------------------------------
-- Several sorts
-- ---------------------------------------------------------------------------

/-- The first comparison, where it ties the second one, and so on. -/
def compareAll : List (α → α → Ordering) → α → α → Ordering
  | [], _, _ => .eq
  | cmp :: cs, a, b => (cmp a b).then (compareAll cs a b)

/-- Sorted by the last comparison, by the one before it, and so on. -/
def sortAll (cs : List (α → α → Ordering)) (l : List α) : List α := cs.foldr stableSort l

theorem totalPreorderOn_compareAll {cs : List (α → α → Ordering)} {S : Set α}
    (h : ∀ cmp ∈ cs, TotalPreorderOn cmp S) : TotalPreorderOn (compareAll cs) S := by
  induction cs with
  | nil => exact ⟨fun _ _ => rfl, fun _ _ _ _ => rfl, fun _ _ _ _ _ _ _ _ => nofun⟩
  | cons cmp cs ih =>
    exact (h cmp (List.mem_cons_self ..)).andThen (ih fun c hc => h c (List.mem_cons_of_mem _ hc))

theorem transCmp_compareAll {cs : List (α → α → Ordering)} (h : ∀ cmp ∈ cs, Std.TransCmp cmp) :
    Std.TransCmp (compareAll cs) := by
  induction cs with
  | nil => exact { eq_swap := rfl, isLE_trans := fun _ _ => rfl }
  | cons cmp cs ih =>
    have hHead := h cmp (List.mem_cons_self ..)
    have hRest := ih fun c hc => h c (List.mem_cons_of_mem _ hc)
    exact inferInstanceAs (Std.TransCmp (compareLex cmp (compareAll cs)))

/-- **Several sorts.** Their result is sorted stably by all comparisons together. -/
theorem sortedStably_sortAll {cs : List (α → α → Ordering)} {l : List α}
    (h : ∀ cmp ∈ cs, TotalPreorderOn cmp {a | a ∈ l}) :
    SortedStably (compareAll cs) l (sortAll cs l) := by
  induction cs with
  | nil => exact ⟨List.Perm.refl l, List.pairwise_of_forall fun _ _ => nofun, fun _ _ => rfl⟩
  | cons cmp cs ih =>
    have hCmp := h cmp (List.mem_cons_self ..)
    have hRest : ∀ c ∈ cs, TotalPreorderOn c {a | a ∈ l} := fun c hc =>
      h c (List.mem_cons_of_mem _ hc)
    have hAll := totalPreorderOn_compareAll hRest
    have hSorted := ih hRest
    have hMem : ∀ a ∈ sortAll cs l, a ∈ l := fun a ha => hSorted.perm.subset ha
    refine ⟨(perm_stableSort cmp _).trans hSorted.perm, ?_, fun a ha => ?_⟩
    · have hPairs := pairwise_stableSort hCmp hMem (fun a ha b hb c hc =>
        hAll.trans a (hMem a ha) b (hMem b hb) c (hMem c hc)) hSorted.ordered
      refine hPairs.imp fun {a b} hab hGt => ?_
      rcases Ordering.then_eq_gt.1 hGt with hFirst | ⟨hEq, hSecond⟩
      · rcases hab with hLt | ⟨hEq, -⟩
        · exact nomatch hLt.symm.trans hFirst
        · exact nomatch hEq.symm.trans hFirst
      · rcases hab with hLt | ⟨-, hLe⟩
        · exact nomatch hLt.symm.trans hEq
        · exact hLe hSecond
    · -- what ties with `a` ties in the first comparison, and in the others
      have hTies := hSorted.ties a ha
      have hBoth : ∀ m : List α, m.filter (fun b => compareAll (cmp :: cs) a b = .eq) =
          (m.filter fun b => compareAll cs a b = .eq).filter fun b => cmp a b = .eq := by
        intro m
        rw [List.filter_filter]
        refine List.filter_congr fun b _ => ?_
        rw [Bool.eq_iff_iff, Bool.and_eq_true, decide_eq_true_eq, decide_eq_true_eq,
          decide_eq_true_eq]
        exact Ordering.then_eq_eq
      show (stableSort cmp (sortAll cs l)).filter _ = _
      rw [filter_stableSort, hBoth, hBoth, hTies]
      intro b hb c hc hab hac
      have hEqB := (Ordering.then_eq_eq.1 (of_decide_eq_true hab)).1
      have hEqC := (Ordering.then_eq_eq.1 (of_decide_eq_true hac)).1
      rw [hCmp.eq_of_eq_eq ha (hMem b hb) (hMem c hc) hEqB hEqC]
      nofun

end KeyedSorts
