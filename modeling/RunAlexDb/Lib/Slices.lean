import Mathlib.Data.List.Dedup
import Mathlib.Data.List.Induction

/-!
# Slices — duplicates removed and a part cut out

Cutting a slice out of a list and removing its duplicates is not the same as
removing the duplicates first. `SliceKept` says when it is: an empty slice, or
nothing before it is lost and nothing behind it moves up.

Main result: `eraseDups_cutOut_iff`.
-/

variable {α : Type}

/-- At most `limit` elements from position `offset` on. -/
def cutOut (limit : Option Nat) (offset : Nat) (l : List α) : List α :=
  limit.elim (l.drop offset) fun n => (l.drop offset).take n

/-- What comes after the slice. -/
def afterCut (limit : Option Nat) (offset : Nat) (l : List α) : List α :=
  limit.elim [] fun n => (l.drop offset).drop n

theorem take_cutOut_after (limit : Option Nat) (offset : Nat) (l : List α) :
    l.take offset ++ cutOut limit offset l ++ afterCut limit offset l = l := by
  cases limit with
  | none => exact (List.append_nil _).trans (List.take_append_drop offset l)
  | some n =>
    show l.take offset ++ (l.drop offset).take n ++ (l.drop offset).drop n = l
    rw [List.append_assoc, List.take_append_drop, List.take_append_drop]

theorem cutOut_sublist (limit : Option Nat) (offset : Nat) (l : List α) :
    (cutOut limit offset l).Sublist l := by
  cases limit with
  | none => exact List.drop_sublist ..
  | some n => exact (List.take_sublist ..).trans (List.drop_sublist ..)

theorem cutOut_eq_nil_iff (limit : Option Nat) (offset : Nat) (l : List α) :
    cutOut limit offset l = [] ↔ limit = some 0 ∨ l.length ≤ offset := by
  cases limit with
  | none => simp [cutOut]
  | some n => simp [cutOut]

/-- A slice that is no longer than the limit, and as long when something follows. -/
theorem cutOut_length {n : Nat} (offset : Nat) (l : List α) :
    (cutOut (some n) offset l).length ≤ n ∧
      (afterCut (some n) offset l ≠ [] → (cutOut (some n) offset l).length = n) := by
  have hSlice : (cutOut (some n) offset l).length = min n (l.length - offset) := by
    simp [cutOut]
  constructor
  · omega
  · intro hAfter
    have hLong : (afterCut (some n) offset l).length = l.length - offset - n := by
      simp [afterCut, Nat.sub_add_eq]
    have hPos := List.length_pos_iff.2 hAfter
    omega

/-- A slice behind no more than `offset` elements. -/
theorem cutOut_parts {limit : Option Nat} {offset : Nat} {before rest : List α}
    (h : before.length ≤ offset) :
    cutOut limit offset (before ++ rest) = cutOut limit (offset - before.length) rest := by
  have hDrop : (before ++ rest).drop offset = rest.drop (offset - before.length) := by
    rw [List.drop_append, List.drop_eq_nil_of_le h, List.nil_append]
  rw [cutOut, cutOut, hDrop]

theorem cutOut_zero_some {n : Nat} (l : List α) : cutOut (some n) 0 l = l.take n := rfl

section Duplicates

variable [BEq α] [LawfulBEq α]

/-- Keeping the first of equal elements is keeping the last of the reversed list. -/
theorem reverse_dedup_reverse [DecidableEq α] (l : List α) : l.reverse.dedup.reverse = l.eraseDups := by
  induction l using List.reverseRecOn with
  | nil => rfl
  | append_singleton l a ih =>
    rw [List.reverse_append, List.reverse_singleton, List.singleton_append, List.eraseDups_append,
      ← ih]
    by_cases hIn : a ∈ l
    · have hNone : [a].removeAll l = [] := by simp [List.removeAll, hIn]
      rw [List.dedup_cons_of_mem (List.mem_reverse.2 hIn), hNone, List.eraseDups_nil,
        List.append_nil]
    · have hOne : [a].removeAll l = [a] := by simp [List.removeAll, hIn]
      rw [List.dedup_cons_of_notMem (fun h => hIn (List.mem_reverse.1 h)), hOne, List.reverse_cons]
      rfl

theorem eraseDups_sublist (l : List α) : l.eraseDups.Sublist l := by
  classical
  have h := (List.dedup_sublist l.reverse).reverse
  rwa [reverse_dedup_reverse, List.reverse_reverse] at h

theorem nodup_eraseDups (l : List α) : l.eraseDups.Nodup := by
  classical
  rw [← reverse_dedup_reverse]
  exact List.nodup_reverse.2 (List.nodup_dedup _)

theorem eraseDups_eq_self_iff (l : List α) : l.eraseDups = l ↔ l.Nodup := by
  classical
  refine ⟨fun h => h ▸ nodup_eraseDups l, fun h => ?_⟩
  rw [← reverse_dedup_reverse, (List.nodup_reverse.2 h).dedup, List.reverse_reverse]

/-- As many elements as before: none of them was a duplicate. -/
theorem nodup_of_length_eraseDups {l : List α} (h : l.length ≤ l.eraseDups.length) : l.Nodup :=
  (eraseDups_eq_self_iff l).1 ((eraseDups_sublist l).eq_of_length_le h)

/-- A slice of the list is one of the list without its duplicates: it is empty, or
nothing before it is a duplicate, nothing in it occurs before it, and it has no
duplicates itself unless nothing new follows. -/
def SliceKept (limit : Option Nat) (offset : Nat) (l : List α) : Prop :=
  cutOut limit offset l = [] ∨
    (l.take offset).Nodup ∧ (∀ x ∈ cutOut limit offset l, x ∉ l.take offset) ∧
      ((cutOut limit offset l).Nodup ∨
        ∀ x ∈ afterCut limit offset l, x ∈ l.take offset ++ cutOut limit offset l)

theorem removeAll_eq_self {l m : List α} (h : ∀ x ∈ l, x ∉ m) : l.removeAll m = l := by
  rw [List.removeAll, List.filter_eq_self]
  intro x hx
  simpa using h x hx

theorem removeAll_eq_nil {l m : List α} : l.removeAll m = [] ↔ ∀ x ∈ l, x ∈ m := by
  rw [List.removeAll, List.filter_eq_nil_iff]
  simp

theorem mem_removeAll {l m : List α} {x : α} : x ∈ l.removeAll m ↔ x ∈ l ∧ x ∉ m := by
  rw [List.removeAll, List.mem_filter]
  simp

theorem eraseDups_eq_nil {l : List α} : l.eraseDups = [] ↔ l = [] := by
  cases l with
  | nil => simp
  | cons a l => simp [List.eraseDups_cons]

/-- The list without its duplicates, part by part. -/
theorem eraseDups_parts (before inside after : List α) :
    (before ++ inside ++ after).eraseDups = before.eraseDups ++
      ((inside.removeAll before).eraseDups ++ (after.removeAll (before ++ inside)).eraseDups) := by
  rw [List.eraseDups_append, List.eraseDups_append, List.append_assoc]

section Parts

variable {limit : Option Nat} {before inside after : List α} (hInside : inside ≠ [])

include hInside

/-- Where the slice is right, nothing before it is a duplicate or comes again. -/
theorem before_of_cutOut (h : inside.eraseDups =
    cutOut limit before.length (before ++ inside ++ after).eraseDups) :
    before.Nodup ∧ ∀ x ∈ inside, x ∉ before := by
  have hParts := eraseDups_parts before inside after
  have hNodup := nodup_eraseDups (before ++ inside ++ after)
  rw [hParts] at h hNodup
  rw [cutOut_parts (eraseDups_sublist before).length_le] at h
  obtain ⟨x, inside, rfl⟩ := List.exists_cons_of_ne_nil hInside
  -- the first element of the slice is new
  have hSub := (cutOut_sublist limit (before.length - before.eraseDups.length)
    (((x :: inside).removeAll before).eraseDups ++
      (after.removeAll (before ++ x :: inside)).eraseDups)).subset
  rw [← h] at hSub
  have hOutside : ∀ y ∈ x :: inside, y ∉ before := by
    intro y hy
    rcases List.mem_append.1 (hSub (List.mem_eraseDups.2 hy)) with hIn | hAfter
    · exact (mem_removeAll.1 (List.mem_eraseDups.1 hIn)).2
    · exact fun hBefore => (mem_removeAll.1 (List.mem_eraseDups.1 hAfter)).2
        (List.mem_append_left _ hBefore)
  refine ⟨?_, hOutside⟩
  rw [removeAll_eq_self hOutside, List.eraseDups_cons, List.cons_append] at h hNodup
  -- and stands first among what is left of the list
  by_contra hDup
  have hShort : before.eraseDups.length < before.length := by
    by_contra hNot
    exact hDup (nodup_of_length_eraseDups (by omega))
  obtain ⟨k, hk⟩ : ∃ k, before.length - before.eraseDups.length = k + 1 :=
    ⟨before.length - before.eraseDups.length - 1, by omega⟩
  rw [hk] at h
  have hTail := List.nodup_cons.1 (List.nodup_append.1 hNodup).2.1
  have hHead : x ∈ cutOut limit (k + 1) (x :: (((inside.filter fun b => !b == x).eraseDups) ++
      (after.removeAll (before ++ x :: inside)).eraseDups)) := h ▸ List.mem_cons_self ..
  have hIn : x ∈ cutOut limit k (((inside.filter fun b => !b == x).eraseDups) ++
      (after.removeAll (before ++ x :: inside)).eraseDups) := hHead
  exact hTail.1 ((cutOut_sublist ..).subset hIn)

theorem eraseDups_inside_iff (hNone : limit = none → after = [])
    (hSome : ∀ n, limit = some n → inside.length ≤ n ∧ (after ≠ [] → inside.length = n)) :
    inside.eraseDups =
      cutOut limit before.length (before ++ inside ++ after).eraseDups ↔
    before.Nodup ∧ (∀ x ∈ inside, x ∉ before) ∧
      (inside.Nodup ∨ ∀ x ∈ after, x ∈ before ++ inside) := by
  have hRest : before.Nodup → (∀ x ∈ inside, x ∉ before) →
      cutOut limit before.length (before ++ inside ++ after).eraseDups =
        cutOut limit 0 (inside.eraseDups ++ (after.removeAll (before ++ inside)).eraseDups) := by
    intro hBefore hOutside
    rw [eraseDups_parts, (eraseDups_eq_self_iff before).2 hBefore, removeAll_eq_self hOutside,
      cutOut_parts (Nat.le_refl _), Nat.sub_self]
  have hLe := (eraseDups_sublist inside).length_le
  constructor
  · intro h
    obtain ⟨hBefore, hOutside⟩ := before_of_cutOut hInside h
    refine ⟨hBefore, hOutside, ?_⟩
    rw [hRest hBefore hOutside] at h
    by_cases hNew : after.removeAll (before ++ inside) = []
    · exact .inr (removeAll_eq_nil.1 hNew)
    left
    cases limit with
    | none =>
      have hNil := hNone rfl
      rw [hNil] at hNew
      exact absurd rfl hNew
    | some n =>
      have hCut := (hSome n rfl).1
      have hLength := congrArg List.length h
      have hPos := List.length_pos_iff.2 fun hNil => hNew (eraseDups_eq_nil.1 hNil)
      rw [cutOut_zero_some, List.length_take, List.length_append] at hLength
      exact nodup_of_length_eraseDups (by omega)
  · rintro ⟨hBefore, hOutside, hEither⟩
    rw [hRest hBefore hOutside]
    cases limit with
    | none =>
      rw [hNone rfl]
      exact (List.append_nil _).symm
    | some n =>
      obtain ⟨hShort, hFull⟩ := hSome n rfl
      rw [cutOut_zero_some]
      by_cases hNew : after.removeAll (before ++ inside) = []
      · rw [hNew, List.eraseDups_nil, List.append_nil, List.take_of_length_le (by omega)]
      · have hInsideNodup : inside.Nodup :=
          hEither.resolve_right fun hAll => hNew (removeAll_eq_nil.2 hAll)
        have hAfter : after ≠ [] := fun hNil => by
          rw [hNil] at hNew
          exact hNew rfl
        rw [(eraseDups_eq_self_iff inside).2 hInsideNodup, ← hFull hAfter, List.take_left']
        rfl

end Parts

/-- **A slice without duplicates** is the slice of the list without duplicates
exactly when `SliceKept`. -/
theorem eraseDups_cutOut_iff (limit : Option Nat) (offset : Nat) (l : List α) :
    (cutOut limit offset l).eraseDups = cutOut limit offset l.eraseDups ↔
      SliceKept limit offset l := by
  by_cases hInside : cutOut limit offset l = []
  · have hErased : cutOut limit offset l.eraseDups = [] := by
      rw [cutOut_eq_nil_iff] at hInside ⊢
      exact hInside.imp_right (Nat.le_trans (eraseDups_sublist l).length_le)
    rw [hInside, hErased]
    exact iff_of_true rfl (.inl hInside)
  · have hLong : offset < l.length := by
      rw [cutOut_eq_nil_iff] at hInside
      omega
    have hBefore : (l.take offset).length = offset := by
      rw [List.length_take]
      omega
    have hParts := @eraseDups_inside_iff α _ _ limit (l.take offset) _ (afterCut limit offset l)
      hInside (fun hNone => by rw [hNone]; rfl)
      fun n hSome => by
        rw [hSome]
        exact cutOut_length offset l
    rw [take_cutOut_after, hBefore] at hParts
    rw [hParts, SliceKept]
    exact ⟨.inr, fun h => h.resolve_left hInside⟩

end Duplicates
