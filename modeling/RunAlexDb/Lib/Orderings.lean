import Mathlib.Data.List.Sort

/-!
# Orderings — a list sorted by another comparison than the one asked for

Elements are to be put in the order of `num`, and seen through `f`; they are
sorted by `cmp`, which need not be transitive, on what `f` gives. It looks right
when `cmp` puts first what `num` does, wherever the two can be told apart.

Main results: `exists_sorted_map`, `cmp_lt_of_swapped`.
-/

variable {α β : Type}

-- ---------------------------------------------------------------------------
-- Insertion by a relation that is no order
-- ---------------------------------------------------------------------------

section Insertion

variable {r : α → α → Prop} [DecidableRel r] {M : α → α → Prop}

theorem pairwise_orderedInsert_of {a : α} {l : List α} (hTrans : ∀ b ∈ l, ∀ c ∈ l, M a b → M b c → M a c)
    (ha : ∀ b ∈ l, (r a b → M a b) ∧ (¬ r a b → M b a)) (h : l.Pairwise M) :
    (l.orderedInsert r a).Pairwise M := by
  induction l with
  | nil => exact List.pairwise_singleton ..
  | cons b l ih =>
    have hb : b ∈ b :: l := List.mem_cons_self ..
    obtain ⟨hHead, hTail⟩ := List.pairwise_cons.1 h
    rw [List.orderedInsert]
    split
    · rename_i hr
      have hFirst := (ha b hb).1 hr
      refine List.pairwise_cons.2 ⟨fun c hc => ?_, h⟩
      rcases List.mem_cons.1 hc with rfl | hc
      · exact hFirst
      · exact hTrans b hb c (List.mem_cons_of_mem _ hc) hFirst (hHead c hc)
    · rename_i hr
      refine List.pairwise_cons.2 ⟨fun c hc => ?_, ih ?_ ?_ hTail⟩
      · rcases (List.mem_orderedInsert r).1 hc with rfl | hc
        · exact (ha b hb).2 hr
        · exact hHead c hc
      · exact fun c hc d hd => hTrans c (List.mem_cons_of_mem _ hc) d (List.mem_cons_of_mem _ hd)
      · exact fun c hc => ha c (List.mem_cons_of_mem _ hc)

/-- Insertion sort by `r` puts things in the order of `M`, if `r` tells which way
`M` holds of what is before and what is after. -/
theorem pairwise_insertionSort_of_pairwise {l : List α}
    (hTrans : ∀ a ∈ l, ∀ b ∈ l, ∀ c ∈ l, M a b → M b c → M a c)
    (h : l.Pairwise fun a b => (r a b → M a b) ∧ (¬ r a b → M b a)) : (l.insertionSort r).Pairwise M := by
  induction l with
  | nil => exact List.Pairwise.nil
  | cons a l ih =>
    obtain ⟨hHead, hTail⟩ := List.pairwise_cons.1 h
    have hTail' : ∀ a ∈ l, ∀ b ∈ l, ∀ c ∈ l, M a b → M b c → M a c := fun a ha b hb c hc =>
      hTrans a (List.mem_cons_of_mem _ ha) b (List.mem_cons_of_mem _ hb) c (List.mem_cons_of_mem _ hc)
    have hMem : ∀ b ∈ l.insertionSort r, b ∈ l := fun b hb => (List.mem_insertionSort r).1 hb
    refine pairwise_orderedInsert_of (fun b hb c hc => ?_) (fun b hb => hHead b (hMem b hb))
      (ih hTail' hTail)
    exact hTrans a (List.mem_cons_self ..) b (List.mem_cons_of_mem _ (hMem b hb)) c
      (List.mem_cons_of_mem _ (hMem c hc))

theorem pairwise_insertionSort_of {s l : List α} (hTrans : ∀ a, ∀ b ∈ s, ∀ c, M a b → M b c → M a c)
    (hLe : ∀ a ∈ s, ∀ b ∈ s, r a b → M a b) (hGt : ∀ a ∈ s, ∀ b ∈ s, ¬ r a b → M b a)
    (hl : ∀ a ∈ l, a ∈ s) : (l.insertionSort r).Pairwise M := by
  refine pairwise_insertionSort_of_pairwise (fun a _ b hb c _ => hTrans a b (hl b hb) c) ?_
  refine List.pairwise_of_forall_mem_list fun a ha b hb => ?_
  exact ⟨hLe a (hl a ha) b (hl b hb), hGt a (hl a ha) b (hl b hb)⟩

/-- What is put before all others comes first. -/
theorem exists_cons_insertionSort {l : List α} {i : α} (hi : i ∈ l)
    (h : l.Pairwise fun a b => (b = i → ¬ r a b) ∧ (a = i → r a b)) :
    ∃ t, l.insertionSort r = i :: t := by
  induction l with
  | nil => exact absurd hi List.not_mem_nil
  | cons a l ih =>
    obtain ⟨hHead, hTail⟩ := List.pairwise_cons.1 h
    rw [List.insertionSort_cons]
    by_cases ha : a = i
    · cases hSorted : l.insertionSort r with
      | nil => exact ⟨[], by rw [ha]; rfl⟩
      | cons b t =>
        have hb : b ∈ l := (List.mem_insertionSort r).1 (hSorted ▸ List.mem_cons_self ..)
        rw [List.orderedInsert, if_pos ((hHead b hb).2 ha), ha]
        exact ⟨_, rfl⟩
    · have hil : i ∈ l := (List.mem_cons.1 hi).resolve_left fun hSame => ha hSame.symm
      obtain ⟨t, ht⟩ := ih hil hTail
      rw [ht, List.orderedInsert, if_neg ((hHead i hil).1 rfl)]
      exact ⟨_, rfl⟩

end Insertion

-- ---------------------------------------------------------------------------
-- Sorted once more
-- ---------------------------------------------------------------------------

section Again

section Oriented

variable {num : α → α → Ordering} [Std.OrientedCmp num]

theorem map_orderedInsert_of {f : α → β} {a : α} {l : List α}
    (h : ∀ b ∈ l, num b a = .lt → f a = f b) :
    (l.orderedInsert (fun a b => num a b ≠ .gt) a).map f = f a :: l.map f := by
  induction l with
  | nil => rfl
  | cons b l ih =>
    rw [List.orderedInsert]
    split
    · rfl
    · rename_i hGt
      have hSame : f a = f b := h b (List.mem_cons_self ..) (Std.OrientedCmp.lt_of_gt (not_not.1 hGt))
      rw [List.map_cons, ih fun c hc => h c (List.mem_cons_of_mem _ hc), List.map_cons, hSame]

/-- Where what stands in the wrong order looks the same, sorting changes nothing. -/
theorem map_insertionSort_of {f : α → β} {l : List α}
    (h : l.Pairwise fun a b => num b a = .lt → f a = f b) :
    (l.insertionSort fun a b => num a b ≠ .gt).map f = l.map f := by
  induction l with
  | nil => rfl
  | cons a l ih =>
    obtain ⟨hHead, hTail⟩ := List.pairwise_cons.1 h
    rw [List.insertionSort_cons, map_orderedInsert_of fun b hb =>
      hHead b ((List.mem_insertionSort _).1 hb), ih hTail, List.map_cons]

end Oriented

variable {num : α → α → Ordering} [Std.TransCmp num]

theorem ne_gt_trans {a b c : α} (hab : num a b ≠ .gt) (hbc : num b c ≠ .gt) : num a c ≠ .gt :=
  Ordering.isLE_iff_ne_gt.1
    (Std.TransCmp.isLE_trans (Ordering.isLE_iff_ne_gt.2 hab) (Ordering.isLE_iff_ne_gt.2 hbc))

theorem pairwise_insertionSort_cmp (l : List α) :
    (l.insertionSort fun a b => num a b ≠ .gt).Pairwise fun a b => num a b ≠ .gt := by
  refine pairwise_insertionSort_of (s := l) ?_ ?_ ?_ fun a ha => ha
  · exact fun a b _ c => ne_gt_trans
  · exact fun a _ b _ h => h
  · intro a _ b _ hGt hba
    rw [Std.OrientedCmp.lt_of_gt (not_not.1 hGt)] at hba
    cases hba

/-- What stands in the wrong order looks the same: the list looks sorted. -/
theorem exists_sorted_of_pairwise {f : α → β} {l : List α}
    (h : l.Pairwise fun a b => num b a = .lt → f a = f b) :
    ∃ sorted : List α, sorted.Perm l ∧ sorted.Pairwise (fun a b => num a b ≠ .gt) ∧
      sorted.map f = l.map f :=
  ⟨_, List.perm_insertionSort .., pairwise_insertionSort_cmp l, map_insertionSort_of h⟩

-- ---------------------------------------------------------------------------
-- Sorted by another comparison
-- ---------------------------------------------------------------------------

/-- **Another comparison.** It looks sorted. -/
theorem exists_sorted_map {cmp : β → β → Ordering} [Std.OrientedCmp cmp] {f : α → β} {l : List α}
    (h : ∀ a ∈ l, ∀ b ∈ l, num a b = .lt → f a = f b ∨ cmp (f a) (f b) = .lt) :
    ∃ sorted : List α, sorted.Perm l ∧ sorted.Pairwise (fun a b => num a b ≠ .gt) ∧
      sorted.map f = (l.map f).insertionSort fun p q => cmp p q ≠ .gt := by
  -- in the order of `M`, all that looks like `a` may stand before all that looks like `b`
  let M (a b : α) : Prop := f a = f b ∨ ∀ a' ∈ l, ∀ b' ∈ l, f a' = f a → f b' = f b → num a' b' ≠ .gt
  have hTold : ∀ a ∈ l, ∀ b ∈ l, ¬ M a b → cmp (f b) (f a) = .lt := by
    intro a _ b _ hNot
    obtain ⟨hDiffer, hNot⟩ := not_or.1 hNot
    push Not at hNot
    obtain ⟨a', ha', b', hb', hfa, hfb, hGt⟩ := hNot
    rw [← hfa, ← hfb] at hDiffer ⊢
    exact (h b' hb' a' ha' (Std.OrientedCmp.lt_of_gt hGt)).resolve_left fun hEq => hDiffer hEq.symm
  have hOrder : (l.insertionSort fun a b => cmp (f a) (f b) ≠ .gt).Pairwise M := by
    refine pairwise_insertionSort_of (s := l) ?_ ?_ ?_ fun a ha => ha
    · rintro a b hb c (hab | hab) (hbc | hbc)
      · exact .inl (hab.trans hbc)
      · exact .inr fun a' ha' c' hc' hfa => hbc a' ha' c' hc' (hfa.trans hab)
      · exact .inr fun a' ha' c' hc' hfa hfc => hab a' ha' c' hc' hfa (hfc.trans hbc.symm)
      · refine .inr fun a' ha' c' hc' hfa hfc => ?_
        exact ne_gt_trans (hab a' ha' b hb hfa rfl) (hbc b hb c' hc' rfl hfc)
    · intro a ha b hb hLe
      by_contra hNot
      exact hLe (Std.OrientedCmp.gt_of_lt (hTold a ha b hb hNot))
    · intro a ha b hb hGt
      by_contra hNot
      rw [hTold b hb a ha hNot] at hGt
      exact hGt nofun
  have hMap : (l.insertionSort fun a b => cmp (f a) (f b) ≠ .gt).map f =
      (l.map f).insertionSort fun p q => cmp p q ≠ .gt :=
    List.map_insertionSort _ _ f l fun a _ b _ => Iff.rfl
  have hPerm := List.perm_insertionSort (fun a b => cmp (f a) (f b) ≠ .gt) l
  have hLooks : (l.insertionSort fun a b => cmp (f a) (f b) ≠ .gt).Pairwise
      fun a b => num b a = .lt → f a = f b :=
    hOrder.imp_of_mem fun {a b} ha hb hM hLt => hM.resolve_right fun hAll =>
      hAll a (hPerm.subset ha) b (hPerm.subset hb) rfl rfl (Std.OrientedCmp.gt_of_lt hLt)
  obtain ⟨sorted, hSorted, hNum, hSame⟩ := exists_sorted_of_pairwise hLooks
  exact ⟨sorted, hSorted.trans hPerm, hNum, hSame.trans hMap⟩

end Again

/-- Comparing by a key. -/
theorem transCmp_key {cmp : β → β → Ordering} [Std.TransCmp cmp] (key : α → β) :
    Std.TransCmp fun a b => cmp (key a) (key b) where
  eq_swap := Std.OrientedCmp.eq_swap
  isLE_trans := Std.TransCmp.isLE_trans

-- ---------------------------------------------------------------------------
-- Two elements
-- ---------------------------------------------------------------------------

/-- Two elements that look different and are put right from the wrong order: the
comparison says so. -/
theorem cmp_lt_of_swapped {cmp : α → α → Ordering} [Std.OrientedCmp cmp] {f : α → β} {a b : α}
    (hDiffer : f a ≠ f b)
    (h : ([b, a].insertionSort fun a b => cmp a b ≠ .gt).map f = [f a, f b]) : cmp a b = .lt := by
  by_contra hNot
  have hLe : cmp b a ≠ .gt := fun hGt => hNot (Std.OrientedCmp.lt_of_gt hGt)
  have hStay : [b, a].insertionSort (fun a b => cmp a b ≠ .gt) = [b, a] := if_pos hLe
  rw [hStay] at h
  exact hDiffer (List.cons.inj h).1.symm

theorem eq_pair_of_sorted {num : α → α → Ordering} [Std.OrientedCmp num] {a b : α}
    (hLt : num a b = .lt) {sorted : List α} (hPerm : sorted.Perm [b, a])
    (hSorted : sorted.Pairwise fun a b => num a b ≠ .gt) : sorted = [a, b] := by
  have hRight : [a, b].Pairwise fun a b => num a b ≠ .gt := by
    refine List.pairwise_cons.2 ⟨fun c hc => ?_, List.pairwise_singleton ..⟩
    obtain rfl := List.mem_singleton.1 hc
    rw [hLt]
    nofun
  have hGt : num b a = .gt := Std.OrientedCmp.gt_of_lt hLt
  refine List.Perm.eq_of_pairwise ?_ hSorted hRight (hPerm.trans (List.Perm.swap a b []))
  intro c d hc hd hcd hdc
  have hc' : c = b ∨ c = a := by simpa using hPerm.subset hc
  have hd' : d = a ∨ d = b := by simpa using hd
  rcases hc' with rfl | rfl <;> rcases hd' with rfl | rfl
  · exact absurd hGt hcd
  · rfl
  · rfl
  · exact absurd hGt hdc
