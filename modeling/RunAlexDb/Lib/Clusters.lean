import Mathlib.Data.List.Destutter

/-!
# Clusters — lists cleared of equal neighbours

`destutter (· ≠ ·)` keeps one of each run of equal elements. It leaves no
element twice exactly when equal elements stand together (`Clustered`).

Main result: `nodup_destutter`.
-/

/-- Equal elements stand together: nothing else lies between two of them. -/
def Clustered {α : Type} (l : List α) : Prop := ∀ a b, [a, b, a].Sublist l → b = a

section Clusters

variable {α : Type}

/-- What stands before another element stands nowhere behind it. -/
theorem clustered_cons_of_ne {a b : α} (hNe : a ≠ b) (l : List α) :
    Clustered (a :: b :: l) ↔ a ∉ b :: l ∧ Clustered (b :: l) := by
  constructor
  · intro h
    refine ⟨fun hMem => ?_, fun x y hSub => h x y (hSub.cons a)⟩
    have hIn : a ∈ l := (List.mem_cons.1 hMem).resolve_left hNe
    exact hNe (h a b ((List.singleton_sublist.2 hIn).cons_cons b |>.cons_cons a)).symm
  · rintro ⟨hNot, h⟩ x y hSub
    rcases List.sublist_cons_iff.1 hSub with hTail | ⟨r, hEq, hRest⟩
    · exact h x y hTail
    · obtain ⟨rfl, rfl⟩ := List.cons.inj hEq
      have hLast : x ∈ [y, x] := by simp
      exact absurd (hRest.subset hLast) hNot

theorem clustered_cons_self (a : α) (l : List α) : Clustered (a :: a :: l) ↔ Clustered (a :: l) := by
  constructor
  · exact fun h x y hSub => h x y (hSub.cons a)
  · intro h x y hSub
    rcases List.sublist_cons_iff.1 hSub with hTail | ⟨r, hEq, hRest⟩
    · exact h x y hTail
    · obtain ⟨rfl, rfl⟩ := List.cons.inj hEq
      rcases List.sublist_cons_iff.1 hRest with hLater | ⟨s, hHead, -⟩
      · exact h x y (hLater.cons_cons x)
      · exact (List.cons.inj hHead).1

variable [DecidableEq α]

theorem mem_destutter'_ne {x : α} (a : α) (l : List α) :
    x ∈ l.destutter' (· ≠ ·) a ↔ x ∈ a :: l := by
  induction l generalizing a with
  | nil => rfl
  | cons b l ih =>
    by_cases hSame : a = b
    · rw [List.destutter'_cons_neg _ (not_not_intro hSame), ih a, hSame]
      simp
    · rw [List.destutter'_cons_pos _ hSame, List.mem_cons, ih b, ← List.mem_cons]

theorem mem_destutter_ne {x : α} (l : List α) : x ∈ l.destutter (· ≠ ·) ↔ x ∈ l := by
  cases l with
  | nil => rfl
  | cons a l => exact mem_destutter'_ne a l

/-- **No element twice** exactly when equal elements stand together. -/
theorem nodup_destutter (l : List α) : (l.destutter (· ≠ ·)).Nodup ↔ Clustered l := by
  cases l with
  | nil => exact iff_of_true List.nodup_nil fun a b hSub => absurd hSub (by simp)
  | cons a l =>
    rw [List.destutter_cons']
    induction l generalizing a with
    | nil =>
      refine iff_of_true (List.nodup_singleton a) fun x y hSub => ?_
      exact absurd hSub.length_le (by simp)
    | cons b l ih =>
      by_cases hSame : a = b
      · subst hSame
        rw [List.destutter'_cons_neg _ (not_not_intro rfl), ih a, clustered_cons_self]
      · rw [List.destutter'_cons_pos _ hSame, List.nodup_cons, mem_destutter'_ne, ih b,
          clustered_cons_of_ne hSame]

end Clusters
