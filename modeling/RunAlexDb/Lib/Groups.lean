import Mathlib.Data.List.Basic
import Mathlib.Data.List.Flatten
import Mathlib.Data.List.Induction
import Mathlib.Data.List.Nodup
import Mathlib.Data.List.Perm.Basic

/-!
# Groups — an ordered map from keys to what has them

A list is grouped by a key with one insertion for each element: the element goes
to the end of the group of its key, a new group to its place in the order of
keys. `Grouped` says what that leaves: the keys in order, each with exactly the
elements that have it.

Main results: `grouped_foldl`, and `Grouped.perm`, no element lost or doubled.
-/

variable {α κ : Type}

/-- Put `x` at the end of the group of the key `k`. -/
def insertGroup (cmp : κ → κ → Ordering) (k : κ) (x : α) : List (κ × List α) → List (κ × List α)
  | [] => [(k, [x])]
  | (k', g) :: rest =>
    match cmp k k' with
    | .lt => (k, [x]) :: (k', g) :: rest
    | .eq => (k', g ++ [x]) :: rest
    | .gt => (k', g) :: insertGroup cmp k x rest

/-- The groups of the elements of `xs` by their key. -/
structure Grouped [DecidableEq κ] (cmp : κ → κ → Ordering) (key : α → κ) (xs : List α)
    (groups : List (κ × List α)) : Prop where
  ordered : (groups.map Prod.fst).Pairwise fun a b => cmp a b = .lt
  members : ∀ g ∈ groups, g.2 = xs.filter fun x => key x = g.1
  covered : ∀ k, k ∈ groups.map Prod.fst ↔ ∃ x ∈ xs, key x = k
  perm : (groups.map Prod.snd).flatten.Perm xs

section Groups

variable {cmp : κ → κ → Ordering} {groups : List (κ × List α)}

theorem ne_of_cmp_lt [Std.ReflCmp cmp] {a b : κ} (h : cmp a b = .lt) :
    a ≠ b := by
  rintro rfl
  have hSelf : cmp a a = .eq := Std.ReflCmp.compare_self
  rw [hSelf] at h
  cases h

theorem perm_insertGroup (k : κ) (x : α) :
    ((insertGroup cmp k x groups).map Prod.snd).flatten.Perm
      ((groups.map Prod.snd).flatten ++ [x]) := by
  induction groups with
  | nil => exact List.Perm.refl _
  | cons g rest ih =>
    rw [insertGroup]
    split
    · exact List.perm_append_comm
    · simp only [List.map_cons, List.flatten_cons, List.append_assoc]
      exact List.perm_append_comm.append_left g.2
    · simp only [List.map_cons, List.flatten_cons, List.append_assoc]
      exact ih.append_left g.2

theorem mem_keys_insertGroup [Std.LawfulEqCmp cmp] {k k' : κ} {x : α} :
    k' ∈ (insertGroup cmp k x groups).map Prod.fst ↔ k' = k ∨ k' ∈ groups.map Prod.fst := by
  induction groups with
  | nil => simp [insertGroup]
  | cons g rest ih =>
    rw [insertGroup]
    split
    · simp
    · rename_i hEq
      have hSame : k = g.1 := Std.LawfulEqCmp.eq_of_compare hEq
      simp [hSame]
    · rw [List.map_cons, List.mem_cons, ih, List.map_cons, List.mem_cons]
      tauto

theorem ordered_insertGroup [Std.TransCmp cmp] [Std.LawfulEqCmp cmp] {k : κ} {x : α}
    (h : (groups.map Prod.fst).Pairwise fun a b => cmp a b = .lt) :
    ((insertGroup cmp k x groups).map Prod.fst).Pairwise fun a b => cmp a b = .lt := by
  induction groups with
  | nil => exact List.pairwise_singleton _ _
  | cons g rest ih =>
    have hParts := List.pairwise_cons.1 h
    rw [insertGroup]
    split
    · rename_i hLt
      refine List.pairwise_cons.2 ⟨fun k' hk' => ?_, h⟩
      rcases List.mem_cons.1 hk' with rfl | hIn
      · exact hLt
      · exact Std.TransCmp.lt_trans hLt (hParts.1 k' hIn)
    · exact h
    · rename_i hGt
      refine List.pairwise_cons.2 ⟨fun k' hk' => ?_, ih hParts.2⟩
      rcases mem_keys_insertGroup.1 hk' with rfl | hIn
      · exact Std.OrientedCmp.lt_of_gt hGt
      · exact hParts.1 k' hIn

/-- What a group becomes: it gets the element when it has its key. -/
theorem mem_insertGroup [Std.TransCmp cmp] [Std.LawfulEqCmp cmp] {k : κ} {x : α}
    (hOrd : (groups.map Prod.fst).Pairwise fun a b => cmp a b = .lt) {g : κ × List α}
    (hg : g ∈ insertGroup cmp k x groups) :
    (g.1 ≠ k ∧ g ∈ groups) ∨ (∃ old, (k, old) ∈ groups ∧ g = (k, old ++ [x])) ∨
      k ∉ groups.map Prod.fst ∧ g = (k, [x]) := by
  induction groups with
  | nil => exact .inr (.inr ⟨List.not_mem_nil, List.mem_singleton.1 hg⟩)
  | cons head rest ih =>
    have hParts := List.pairwise_cons.1 hOrd
    have hLater : ∀ g' ∈ rest, cmp head.1 g'.1 = .lt := fun g' hg' =>
      hParts.1 _ (List.mem_map_of_mem hg')
    rw [insertGroup] at hg
    split at hg
    · rename_i hLt
      -- the key stands before all others
      have hAll : ∀ g' ∈ head :: rest, cmp k g'.1 = .lt := by
        intro g' hg'
        rcases List.mem_cons.1 hg' with rfl | hIn
        · exact hLt
        · exact Std.TransCmp.lt_trans hLt (hLater g' hIn)
      have hNe : ∀ g' ∈ head :: rest, g'.1 ≠ k := fun g' hg' => (ne_of_cmp_lt (hAll g' hg')).symm
      rcases List.mem_cons.1 hg with rfl | hIn
      · refine .inr (.inr ⟨fun hKey => ?_, rfl⟩)
        obtain ⟨g', hg', hSame⟩ := List.mem_map.1 hKey
        exact hNe g' hg' hSame
      · exact .inl ⟨hNe g hIn, hIn⟩
    · rename_i hEq
      obtain rfl : k = head.1 := Std.LawfulEqCmp.eq_of_compare hEq
      rcases List.mem_cons.1 hg with rfl | hIn
      · exact .inr (.inl ⟨head.2, List.mem_cons_self .., rfl⟩)
      · exact .inl ⟨(ne_of_cmp_lt (hLater g hIn)).symm, List.mem_cons_of_mem _ hIn⟩
    · rename_i hGt
      have hHead : head.1 ≠ k := ne_of_cmp_lt (Std.OrientedCmp.lt_of_gt hGt)
      rcases List.mem_cons.1 hg with rfl | hIn
      · exact .inl ⟨hHead, List.mem_cons_self ..⟩
      · rcases ih hParts.2 hIn with ⟨hNe, hOld⟩ | ⟨old, hOld, rfl⟩ | ⟨hNew, rfl⟩
        · exact .inl ⟨hNe, List.mem_cons_of_mem _ hOld⟩
        · exact .inr (.inl ⟨old, List.mem_cons_of_mem _ hOld, rfl⟩)
        · refine .inr (.inr ⟨fun hKey => ?_, rfl⟩)
          rcases List.mem_cons.1 hKey with hSame | hIn
          · exact hHead hSame.symm
          · exact hNew hIn

variable [DecidableEq κ] {key : α → κ} {xs : List α}

theorem grouped_nil : Grouped cmp key [] [] where
  ordered := List.Pairwise.nil
  members := fun g hg => absurd hg List.not_mem_nil
  covered := fun k => by simp
  perm := List.Perm.refl _

/-- **One more element** goes to the group of its key. -/
theorem Grouped.insert [Std.TransCmp cmp] [Std.LawfulEqCmp cmp] (h : Grouped cmp key xs groups)
    (x : α) : Grouped cmp key (xs ++ [x]) (insertGroup cmp (key x) x groups) where
  ordered := ordered_insertGroup h.ordered
  members := by
    intro g hg
    rw [List.filter_append, List.filter_singleton]
    rcases mem_insertGroup h.ordered hg with ⟨hNe, hOld⟩ | ⟨old, hOld, rfl⟩ | ⟨hNew, rfl⟩
    · have hOther : ¬ key x = g.1 := fun hSame => hNe hSame.symm
      simp [← h.members g hOld, hOther]
    · simp [← h.members _ hOld]
    · have hNone : (xs.filter fun y => key y = key x) = [] := by
        refine List.filter_eq_nil_iff.2 fun y hy hSame => ?_
        exact hNew ((h.covered _).2 ⟨y, hy, of_decide_eq_true hSame⟩)
      simp [hNone]
  covered := by
    intro k
    rw [mem_keys_insertGroup, h.covered]
    constructor
    · rintro (rfl | ⟨y, hy, hKey⟩)
      · exact ⟨x, by simp, rfl⟩
      · exact ⟨y, List.mem_append_left _ hy, hKey⟩
    · rintro ⟨y, hy, hKey⟩
      rcases List.mem_append.1 hy with hOld | hNew
      · exact .inr ⟨y, hOld, hKey⟩
      · rw [List.mem_singleton.1 hNew] at hKey
        exact .inl hKey.symm
  perm := (perm_insertGroup _ _).trans (h.perm.append_right _)

/-- **The loop** groups the whole list. -/
theorem grouped_foldl [Std.TransCmp cmp] [Std.LawfulEqCmp cmp] (key : α → κ) (xs : List α) :
    Grouped cmp key xs (xs.foldl (fun groups x => insertGroup cmp (key x) x groups) []) := by
  induction xs using List.reverseRecOn with
  | nil => exact grouped_nil
  | append_singleton xs x ih =>
    rw [List.foldl_append]
    exact ih.insert x

/-- No key has two groups. -/
theorem Grouped.nodup [Std.ReflCmp cmp] (h : Grouped cmp key xs groups) :
    (groups.map Prod.fst).Nodup := h.ordered.imp ne_of_cmp_lt

end Groups
