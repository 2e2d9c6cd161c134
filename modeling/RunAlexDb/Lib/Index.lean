import RunAlexDb.Lib.Map

/-!
# Index — maps from keys to positions

`Indexes m ks` says that `m` is an index of the list of keys `ks`: every key of
the list has an entry, and an entry names a position where its key stands. Keys
may repeat; the index then has one of their positions.

Main results: how the index follows the list (`indexes_ofList`, `indexes_push`,
`indexes_swapRemove`).
-/

/-- `m` has an entry for each of the keys, and only entries that are right. -/
structure Indexes {κ : Type} [DecidableEq κ] (m : HashMap κ Nat) (ks : List κ) : Prop where
  indexed : ∀ k ∈ ks, (m.get k).isSome = true
  entry : ∀ k i, m.get k = some i → ks[i]? = some k

section Index

variable {κ : Type} [DecidableEq κ] {m : HashMap κ Nat} {ks : List κ}

theorem indexes_empty : Indexes (HashMap.empty : HashMap κ Nat) [] where
  indexed k hk := by cases hk
  entry k i h := by cases h

/-- The index of a list, made entry by entry. -/
theorem indexes_ofList (ks : List κ) : Indexes (HashMap.ofList ks.zipIdx) ks where
  indexed k hk := by
    obtain ⟨i, hi⟩ := List.mem_iff_getElem?.1 hk
    exact HashMap.isSome_get_ofList (List.mem_zipIdx_iff_getElem?.2 hi)
  entry k i h := List.mem_zipIdx_iff_getElem?.1 (HashMap.mem_of_get_ofList h)

theorem Indexes.lt_length (h : Indexes m ks) {k : κ} {i : Nat} (hEntry : m.get k = some i) :
    i < ks.length := (List.getElem?_eq_some_iff.1 (h.entry k i hEntry)).1

/-- One more key at the end, its entry the new position. -/
theorem indexes_push (h : Indexes m ks) (k : κ) : Indexes (m.insert k ks.length) (ks ++ [k]) where
  indexed k' hk' := by
    rw [HashMap.get_insert]
    split
    · rfl
    · rename_i hNe
      rcases List.mem_append.1 hk' with hOld | hNew
      · exact h.indexed k' hOld
      · exact absurd (List.mem_singleton.1 hNew) hNe
  entry k' i hGet := by
    rw [HashMap.get_insert] at hGet
    split at hGet
    · rename_i hSame
      obtain rfl := Option.some.inj hGet
      rw [List.getElem?_concat_length, hSame]
    · rw [List.getElem?_append_left (h.lt_length hGet)]
      exact h.entry k' i hGet

/-- An entry taken out for the key at position `i`, the last key moved there:
right as long as the key stood nowhere else, or is the one that moves. -/
theorem indexes_swapRemove (h : Indexes m ks) {k last : κ} {i : Nat} (hEntry : m.get k = some i)
    (hLast : ks.getLast? = some last)
    (hAlone : (∀ j, ks[j]? = some k → j = i) ∨ (i ≠ ks.length - 1 ∧ last = k)) :
    Indexes (if i = ks.length - 1 then m.remove k else (m.remove k).insert last i)
      (ks.set i last).dropLast := by
  have hAt := h.entry k i hEntry
  have hIn := h.lt_length hEntry
  have hLastAt : ks[ks.length - 1]? = some last := by rw [← List.getLast?_eq_getElem?, hLast]
  have hGetNew : ∀ j k', (ks.set i last).dropLast[j]? = some k' ↔
      j < ks.length - 1 ∧ (if i = j then last = k' else ks[j]? = some k') := by
    intro j k'
    rw [List.getElem?_dropLast, List.length_set]
    by_cases hj : j < ks.length - 1
    · rw [if_pos hj, List.getElem?_set]
      by_cases hij : i = j
      · rw [if_pos hij, if_pos (by omega), if_pos hij]
        simp only [hj, true_and, Option.some.injEq]
      · rw [if_neg hij, if_neg hij]
        simp only [hj, true_and]
    · rw [if_neg hj]
      simp only [hj, false_and, reduceCtorEq]
  by_cases hEnd : i = ks.length - 1
  · -- the last key goes: the others stay where they are
    have hOnly : ∀ j, ks[j]? = some k → j = i := by
      rcases hAlone with hOnly | ⟨hNe, -⟩
      · exact hOnly
      · exact absurd hEnd hNe
    rw [if_pos hEnd]
    constructor
    · intro k' hk'
      obtain ⟨j, hj⟩ := List.mem_iff_getElem?.1 hk'
      obtain ⟨hLt, hOld⟩ := (hGetNew j k').1 hj
      rw [if_neg (by omega)] at hOld
      have hNe : k' ≠ k := by
        rintro rfl
        have := hOnly j hOld
        omega
      rw [HashMap.get_remove, if_neg hNe]
      exact h.indexed k' (List.mem_of_getElem? hOld)
    · intro k' j hGet
      rw [HashMap.get_remove] at hGet
      split at hGet
      · cases hGet
      · rename_i hNe
        have hOld := h.entry k' j hGet
        have hNej : i ≠ j := by
          rintro rfl
          rw [hAt] at hOld
          exact hNe (Option.some.inj hOld).symm
        refine (hGetNew j k').2 ⟨?_, by rw [if_neg hNej]; exact hOld⟩
        have := h.lt_length hGet
        omega
  · rw [if_neg hEnd]
    constructor
    · intro k' hk'
      obtain ⟨j, hj⟩ := List.mem_iff_getElem?.1 hk'
      obtain ⟨hLt, hOld⟩ := (hGetNew j k').1 hj
      rw [HashMap.get_insert, HashMap.get_remove]
      split
      · rfl
      · rename_i hNeLast
        have hNej : i ≠ j := by
          rintro rfl
          rw [if_pos rfl] at hOld
          exact hNeLast hOld.symm
        rw [if_neg hNej] at hOld
        have hNe : k' ≠ k := by
          rintro rfl
          rcases hAlone with hOnly | ⟨-, hSame⟩
          · exact hNej (hOnly j hOld).symm
          · exact hNeLast hSame.symm
        rw [if_neg hNe]
        exact h.indexed k' (List.mem_of_getElem? hOld)
    · intro k' j hGet
      rw [HashMap.get_insert, HashMap.get_remove] at hGet
      split at hGet
      · rename_i hSame
        obtain rfl := Option.some.inj hGet
        exact (hGetNew i k').2 ⟨by omega, by rw [if_pos rfl]; exact hSame.symm⟩
      · rename_i hNeLast
        split at hGet
        · cases hGet
        · rename_i hNe
          have hOld := h.entry k' j hGet
          have hNej : i ≠ j := by
            rintro rfl
            rw [hAt] at hOld
            exact hNe (Option.some.inj hOld).symm
          have hNotEnd : j ≠ ks.length - 1 := by
            rintro rfl
            rw [hLastAt] at hOld
            exact hNeLast (Option.some.inj hOld).symm
          refine (hGetNew j k').2 ⟨?_, by rw [if_neg hNej]; exact hOld⟩
          have := h.lt_length hGet
          omega

end Index
