import Mathlib.Data.Set.Operations
import RunAlexDb.Lib.Orderings

/-!
# TotalPreorders — comparisons that put a set in order

A comparison is a total preorder on a set when it is reflexive, turns round with its
arguments and is transitive there. Keys, reversed comparisons and comparisons in turn
keep that. A comparison that takes numbers for some elements and texts for all other
pairs keeps it exactly when no text stands across two numbers.

Main results: `TotalPreorderOn.compareBy`, `totalPreorderOn_byNumber_iff`.
-/

namespace TotalPreorders

variable {α β : Type}

/-- The comparison puts the set in order, with ties. -/
structure TotalPreorderOn (cmp : α → α → Ordering) (S : Set α) : Prop where
  refl : ∀ a ∈ S, cmp a a = .eq
  swap : ∀ a ∈ S, ∀ b ∈ S, cmp b a = (cmp a b).swap
  trans : ∀ a ∈ S, ∀ b ∈ S, ∀ c ∈ S, cmp a b ≠ .gt → cmp b c ≠ .gt → cmp a c ≠ .gt

theorem totalPreorderOn_of_transCmp (cmp : α → α → Ordering) [Std.TransCmp cmp] (S : Set α) :
    TotalPreorderOn cmp S where
  refl _ _ := Std.ReflCmp.compare_self
  swap _ _ _ _ := Std.OrientedCmp.eq_swap
  trans _ _ _ _ _ _ := ne_gt_trans

namespace TotalPreorderOn

variable {cmp d : α → α → Ordering} {S : Set α} (h : TotalPreorderOn cmp S)

include h

theorem lt_of_gt {a b : α} (ha : a ∈ S) (hb : b ∈ S) (hGt : cmp a b = .gt) : cmp b a = .lt := by
  rw [h.swap a ha b hb, hGt]
  rfl

theorem eq_symm {a b : α} (ha : a ∈ S) (hb : b ∈ S) (hEq : cmp a b = .eq) : cmp b a = .eq := by
  rw [h.swap a ha b hb, hEq]
  rfl

/-- What is neither greater nor, turned round, greater is equal. -/
theorem eq_of_ne_gt {a b : α} (ha : a ∈ S) (hb : b ∈ S) (hab : cmp a b ≠ .gt) (hba : cmp b a ≠ .gt) :
    cmp a b = .eq := by
  rw [h.swap a ha b hb] at hba
  cases hcmp : cmp a b with
  | lt =>
    rw [hcmp] at hba
    exact absurd rfl hba
  | eq => rfl
  | gt => exact absurd hcmp hab

theorem eq_of_eq_eq {a b c : α} (ha : a ∈ S) (hb : b ∈ S) (hc : c ∈ S) (hab : cmp a b = .eq)
    (hac : cmp a c = .eq) : cmp b c = .eq := by
  have hba := h.eq_symm ha hb hab
  have hca := h.eq_symm ha hc hac
  refine h.eq_of_ne_gt hb hc ?_ ?_
  · exact h.trans b hb a ha c hc (by rw [hba]; nofun) (by rw [hac]; nofun)
  · exact h.trans c hc a ha b hb (by rw [hca]; nofun) (by rw [hab]; nofun)

theorem lt_of_lt_of_ne_gt {a b c : α} (ha : a ∈ S) (hb : b ∈ S) (hc : c ∈ S) (hab : cmp a b = .lt)
    (hbc : cmp b c ≠ .gt) : cmp a c = .lt := by
  have hac := h.trans a ha b hb c hc (by rw [hab]; nofun) hbc
  cases hcmp : cmp a c with
  | lt => rfl
  | eq =>
    have hca := h.eq_symm ha hc hcmp
    have hba := h.trans b hb c hc a ha hbc (by rw [hca]; nofun)
    rw [h.swap a ha b hb, hab] at hba
    exact absurd rfl hba
  | gt => exact absurd hcmp hac

theorem lt_of_ne_gt_of_lt {a b c : α} (ha : a ∈ S) (hb : b ∈ S) (hc : c ∈ S) (hab : cmp a b ≠ .gt)
    (hbc : cmp b c = .lt) : cmp a c = .lt := by
  have hac := h.trans a ha b hb c hc hab (by rw [hbc]; nofun)
  cases hcmp : cmp a c with
  | lt => rfl
  | eq =>
    have hca := h.eq_symm ha hc hcmp
    have hcb := h.trans c hc a ha b hb (by rw [hca]; nofun) hab
    rw [h.swap b hb c hc, hbc] at hcb
    exact absurd rfl hcb
  | gt => exact absurd hcmp hac

/-- Three elements in a circle are equal. -/
theorem eq_of_cycle {a b c : α} (ha : a ∈ S) (hb : b ∈ S) (hc : c ∈ S) (hab : cmp a b ≠ .gt)
    (hbc : cmp b c ≠ .gt) (hca : cmp c a ≠ .gt) : cmp a b = .eq :=
  h.eq_of_ne_gt ha hb hab (h.trans b hb c hc a ha hbc hca)

theorem congr {d : α → α → Ordering} (hd : ∀ a ∈ S, ∀ b ∈ S, d a b = cmp a b) :
    TotalPreorderOn d S where
  refl a ha := by rw [hd a ha a ha, h.refl a ha]
  swap a ha b hb := by rw [hd b hb a ha, hd a ha b hb, h.swap a ha b hb]
  trans a ha b hb c hc := by
    rw [hd a ha b hb, hd b hb c hc, hd a ha c hc]
    exact h.trans a ha b hb c hc

theorem reverse : TotalPreorderOn (fun a b => (cmp a b).swap) S where
  refl a ha := by rw [h.refl a ha]; rfl
  swap a ha b hb := by rw [h.swap a ha b hb]
  trans a ha b hb c hc hab hbc := by
    rw [← h.swap a ha b hb] at hab
    rw [← h.swap b hb c hc] at hbc
    rw [← h.swap a ha c hc]
    exact h.trans c hc b hb a ha hbc hab

/-- Elements by their keys. -/
theorem compareBy {key : β → α} {T : Set β} (hKey : ∀ b ∈ T, key b ∈ S) :
    TotalPreorderOn (fun a b => cmp (key a) (key b)) T where
  refl a ha := h.refl _ (hKey a ha)
  swap a ha b hb := h.swap _ (hKey a ha) _ (hKey b hb)
  trans a ha b hb c hc := h.trans _ (hKey a ha) _ (hKey b hb) _ (hKey c hc)

/-- One comparison after the other. -/
theorem andThen (hd : TotalPreorderOn d S) :
    TotalPreorderOn (fun a b => (cmp a b).then (d a b)) S where
  refl a ha := by rw [h.refl a ha, hd.refl a ha]; rfl
  swap a ha b hb := by rw [h.swap a ha b hb, hd.swap a ha b hb, Ordering.swap_then]
  trans a ha b hb c hc hab hbc := by
    have hFirst : cmp a b ≠ .gt := fun hGt => hab (Ordering.then_eq_gt.2 (.inl hGt))
    have hSecond : cmp b c ≠ .gt := fun hGt => hbc (Ordering.then_eq_gt.2 (.inl hGt))
    intro hGt
    rcases Ordering.then_eq_gt.1 hGt with hac | ⟨hac, hdac⟩
    · exact h.trans a ha b hb c hc hFirst hSecond hac
    · -- the first comparison ties all three
      have hca := h.eq_symm ha hc hac
      have hEq := h.eq_of_cycle ha hb hc hFirst hSecond (by rw [hca]; nofun)
      have hEq' := h.eq_of_eq_eq ha hb hc hEq hac
      rw [hEq] at hab
      rw [hEq'] at hbc
      exact hd.trans a ha b hb c hc hab hbc hdac

end TotalPreorderOn

-- ---------------------------------------------------------------------------
-- Two rules
-- ---------------------------------------------------------------------------

/-- Two elements with a number by their numbers, any other two by `cmpText`. -/
def byNumber (num : α → Option β) (cmpNum : β → β → Ordering) (cmpText : α → α → Ordering) (a b : α) :
    Ordering :=
  match num a, num b with
  | some x, some y => cmpNum x y
  | _, _ => cmpText a b

section ByNumber

variable {num : α → Option β} {cmpNum : β → β → Ordering} {cmpText : α → α → Ordering} {a b : α}

theorem byNumber_some {x y : β} (ha : num a = some x) (hb : num b = some y) :
    byNumber num cmpNum cmpText a b = cmpNum x y := by
  unfold byNumber
  rw [ha, hb]

theorem byNumber_left (ha : num a = none) : byNumber num cmpNum cmpText a b = cmpText a b := by
  unfold byNumber
  rw [ha]

theorem byNumber_right (hb : num b = none) : byNumber num cmpNum cmpText a b = cmpText a b := by
  unfold byNumber
  rw [hb]
  cases num a <;> rfl

variable [Std.TransCmp cmpNum] [Std.TransCmp cmpText] {S : Set α}

instance : Std.OrientedCmp (byNumber num cmpNum cmpText) where
  eq_swap {a b} := by
    unfold byNumber
    cases num a <;> cases num b <;> exact Std.OrientedCmp.eq_swap

/-- Wherever an element without a number stands across two with numbers, from the greater
one to the smaller one, all three are equal. -/
def NoneAcross (num : α → Option β) (cmpNum : β → β → Ordering) (cmpText : α → α → Ordering)
    (S : Set α) : Prop :=
  ∀ a ∈ S, ∀ b ∈ S, ∀ c ∈ S, ∀ x y, num a = some x → num b = some y → num c = none →
    cmpNum x y ≠ .gt → cmpText b c ≠ .gt → cmpText c a ≠ .gt →
      cmpNum x y = .eq ∧ cmpText b c = .eq ∧ cmpText c a = .eq

theorem noneAcross_of_totalPreorderOn (h : TotalPreorderOn (byNumber num cmpNum cmpText) S) :
    NoneAcross num cmpNum cmpText S := by
  intro a ha b hb c hc x y hx hy hNone hab hbc hca
  have hNumbers : byNumber num cmpNum cmpText a b = cmpNum x y := byNumber_some hx hy
  have hTexts : byNumber num cmpNum cmpText b c = cmpText b c := byNumber_right hNone
  have hBack : byNumber num cmpNum cmpText c a = cmpText c a := byNumber_left hNone
  rw [← hNumbers] at hab ⊢
  rw [← hTexts] at hbc ⊢
  rw [← hBack] at hca ⊢
  exact ⟨h.eq_of_cycle ha hb hc hab hbc hca, h.eq_of_cycle hb hc ha hbc hca hab,
    h.eq_of_cycle hc ha hb hca hab hbc⟩

theorem totalPreorderOn_of_noneAcross (h : NoneAcross num cmpNum cmpText S) :
    TotalPreorderOn (byNumber num cmpNum cmpText) S where
  refl _ _ := Std.ReflCmp.compare_self
  swap _ _ _ _ := Std.OrientedCmp.eq_swap
  trans a ha b hb c hc hab hbc := by
    intro hGt
    cases hx : num a with
    | none =>
      rw [byNumber_left hx] at hab hGt
      have hca : cmpText c a = .lt := Std.OrientedCmp.lt_of_gt hGt
      cases hy : num b with
      | none =>
        rw [byNumber_left hy] at hbc
        exact ne_gt_trans hab hbc hGt
      | some y =>
        cases hz : num c with
        | none =>
          rw [byNumber_right hz] at hbc
          exact ne_gt_trans hab hbc hGt
        | some z =>
          rw [byNumber_some hy hz] at hbc
          obtain ⟨-, hEq, -⟩ := h b hb c hc a ha y z hy hz hx hbc (by rw [hca]; nofun) hab
          exact nomatch hca.symm.trans hEq
    | some x =>
      cases hy : num b with
      | none =>
        rw [byNumber_right hy] at hab
        rw [byNumber_left hy] at hbc
        cases hz : num c with
        | none =>
          rw [byNumber_right hz] at hGt
          exact ne_gt_trans hab hbc hGt
        | some z =>
          rw [byNumber_some hx hz] at hGt
          have hca : cmpNum z x = .lt := Std.OrientedCmp.lt_of_gt hGt
          obtain ⟨hEq, -, -⟩ := h c hc a ha b hb z x hz hx hy (by rw [hca]; nofun) hab hbc
          exact nomatch hca.symm.trans hEq
      | some y =>
        rw [byNumber_some hx hy] at hab
        cases hz : num c with
        | none =>
          rw [byNumber_right hz] at hbc hGt
          have hca : cmpText c a = .lt := Std.OrientedCmp.lt_of_gt hGt
          obtain ⟨-, -, hEq⟩ := h a ha b hb c hc x y hx hy hz hab hbc (by rw [hca]; nofun)
          exact nomatch hca.symm.trans hEq
        | some z =>
          rw [byNumber_some hy hz] at hbc
          rw [byNumber_some hx hz] at hGt
          exact ne_gt_trans hab hbc hGt

/-- **Two rules.** They make one order exactly when nothing stands across. -/
theorem totalPreorderOn_byNumber_iff :
    TotalPreorderOn (byNumber num cmpNum cmpText) S ↔ NoneAcross num cmpNum cmpText S :=
  ⟨noneAcross_of_totalPreorderOn, totalPreorderOn_of_noneAcross⟩

end ByNumber

end TotalPreorders
