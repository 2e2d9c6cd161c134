import RunAlexDb.Lib.Words

/-!
# CharBoundaries — where a text can be cut

A byte offset is a boundary of a text when the text falls into two parts there.
A slice succeeds exactly between boundaries, and what it returns is the part of
the text between them.

Main results: `sliceFrom_eq_some`, `slice_eq_some`, `find_char` and
`isBoundary_of_ascii`.
-/

namespace Text

/-- `str::is_char_boundary`. -/
def IsBoundary (s : Str) (n : Nat) : Prop := ∃ a b, s = a ++ b ∧ byteLen a = n

-- ---------------------------------------------------------------------------
-- Slices
-- ---------------------------------------------------------------------------

theorem byteLen_eq_zero {s : Str} : byteLen s = 0 ↔ s = [] := by
  cases s with
  | nil => exact iff_of_true rfl rfl
  | cons c s =>
    have hSize := Char.utf8Size_pos c
    rw [byteLen_cons]
    exact iff_of_false (by omega) (List.cons_ne_nil c s)

theorem sliceFrom_eq_some {s r : Str} {n : Nat} :
    sliceFrom s n = some r ↔ ∃ a, s = a ++ r ∧ byteLen a = n := by
  constructor
  · intro h
    induction s generalizing n with
    | nil =>
      cases n with
      | zero => exact ⟨[], (Option.some.inj h), rfl⟩
      | succ n => cases h
    | cons c s ih =>
      cases n with
      | zero => exact ⟨[], Option.some.inj h, rfl⟩
      | succ n =>
        unfold sliceFrom at h
        split_ifs at h with hSize
        obtain ⟨a, rfl, hLen⟩ := ih h
        refine ⟨c :: a, rfl, ?_⟩
        rw [byteLen_cons]
        omega
  · rintro ⟨a, rfl, rfl⟩
    exact sliceFrom_append a r

theorem sliceTo_eq_some {s r : Str} {n : Nat} :
    sliceTo s n = some r ↔ ∃ b, s = r ++ b ∧ byteLen r = n := by
  constructor
  · intro h
    induction s generalizing n r with
    | nil =>
      cases n with
      | zero =>
        obtain rfl := Option.some.inj h
        exact ⟨[], rfl, rfl⟩
      | succ n => cases h
    | cons c s ih =>
      cases n with
      | zero =>
        obtain rfl := Option.some.inj h
        exact ⟨c :: s, rfl, rfl⟩
      | succ n =>
        unfold sliceTo at h
        split_ifs at h with hSize
        obtain ⟨t, hTail, rfl⟩ := Option.map_eq_some_iff.1 h
        obtain ⟨b, rfl, hLen⟩ := ih hTail
        refine ⟨b, rfl, ?_⟩
        rw [byteLen_cons]
        omega
  · rintro ⟨b, rfl, rfl⟩
    exact sliceTo_append r b

theorem slice_eq_some {s r : Str} {m n : Nat} :
    slice s m n = some r ↔ ∃ a b, s = a ++ (r ++ b) ∧ byteLen a = m ∧ byteLen a + byteLen r = n := by
  constructor
  · intro h
    unfold slice at h
    split_ifs at h with hLe
    obtain ⟨t, hFrom, hTo⟩ := Option.bind_eq_some_iff.1 h
    obtain ⟨a, rfl, rfl⟩ := sliceFrom_eq_some.1 hFrom
    obtain ⟨b, rfl, hLen⟩ := sliceTo_eq_some.1 hTo
    exact ⟨a, b, rfl, rfl, by omega⟩
  · rintro ⟨a, b, rfl, rfl, rfl⟩
    exact slice_append a r b

theorem isBoundary_append_iff (a b : Str) (n : Nat) :
    IsBoundary (a ++ b) (byteLen a + n) ↔ IsBoundary b n := by
  constructor
  · rintro ⟨x, y, hText, hLen⟩
    rcases List.append_eq_append_iff.1 hText with ⟨c, rfl, rfl⟩ | ⟨c, rfl, -⟩
    · rw [byteLen_append] at hLen
      exact ⟨c, y, rfl, by omega⟩
    · rw [byteLen_append] at hLen
      exact ⟨[], b, rfl, show 0 = n by omega⟩
  · rintro ⟨x, y, rfl, rfl⟩
    exact ⟨a ++ x, y, (List.append_assoc ..).symm, byteLen_append a x⟩

-- ---------------------------------------------------------------------------
-- Searching for one character
-- ---------------------------------------------------------------------------

theorem findFrom_char (c : Char) (off : Nat) (s : Str) :
    findFrom off s [c] = (splitOnce c s).map fun p => off + byteLen p.1 := by
  induction s generalizing off with
  | nil => rfl
  | cons x s ih =>
    unfold findFrom splitOnce
    by_cases hx : x = c
    · subst hx
      rw [if_pos (by simp), if_pos rfl]
      rfl
    · have hNot : ¬List.isPrefixOf [c] (x :: s) = true := by
        simpa using fun h => hx h.symm
      rw [if_neg hNot, if_neg hx, ih, Option.map_map]
      congr 1
      funext p
      show off + x.utf8Size + byteLen p.1 = off + byteLen (x :: p.1)
      rw [byteLen_cons]
      omega

/-- A search for a character finds the end of the text before it. -/
theorem find_char (c : Char) (s : Str) : find s [c] = (splitOnce c s).map fun p => byteLen p.1 := by
  unfold find
  rw [findFrom_char]
  congr 1
  funext p
  exact Nat.zero_add _

theorem splitOnce_eq_some {c : Char} {s a b : Str} :
    splitOnce c s = some (a, b) ↔ s = a ++ c :: b ∧ c ∉ a := by
  constructor
  · intro h
    induction s generalizing a with
    | nil => cases h
    | cons x s ih =>
      unfold splitOnce at h
      by_cases hx : x = c
      · rw [if_pos hx] at h
        obtain ⟨rfl, rfl⟩ := Prod.mk.inj (Option.some.inj h)
        exact ⟨by rw [hx]; rfl, List.not_mem_nil⟩
      · rw [if_neg hx] at h
        obtain ⟨⟨a', b'⟩, hRest, hEq⟩ := Option.map_eq_some_iff.1 h
        obtain ⟨rfl, rfl⟩ := Prod.mk.inj hEq
        obtain ⟨rfl, hNot⟩ := ih hRest
        refine ⟨rfl, ?_⟩
        rw [List.mem_cons]
        rintro (rfl | hIn)
        · exact hx rfl
        · exact hNot hIn
  · rintro ⟨rfl, hNot⟩
    exact splitOnce_append hNot b

theorem splitOnce_isNone {c : Char} {s : Str} : splitOnce c s = none ↔ c ∉ s := by
  refine ⟨fun h hIn => ?_, splitOnce_eq_none⟩
  obtain ⟨a, b, rfl, hNot⟩ := List.eq_append_cons_of_mem hIn
  rw [splitOnce_append hNot b] at h
  cases h

-- ---------------------------------------------------------------------------
-- ASCII
-- ---------------------------------------------------------------------------

theorem utf8Size_of_ascii {c : Char} (h : c.toNat < 128) : c.utf8Size = 1 := by
  have hLe : c.val ≤ 0x7f := by
    rw [UInt32.le_iff_toNat_le]
    have hNat : c.val.toNat < 128 := h
    show c.val.toNat ≤ 127
    omega
  exact if_pos hLe

theorem byteLen_of_ascii {s : Str} (h : ∀ c ∈ s, c.toNat < 128) : byteLen s = s.length := by
  induction s with
  | nil => rfl
  | cons c s ih =>
    have hHead := utf8Size_of_ascii (h c (List.mem_cons_self ..))
    have hTail := ih fun x hx => h x (List.mem_cons_of_mem _ hx)
    rw [byteLen_cons, hHead, hTail, List.length_cons]
    omega

/-- A text of ASCII characters can be cut anywhere. -/
theorem isBoundary_of_ascii {s : Str} (h : ∀ c ∈ s, c.toNat < 128) {n : Nat} (hLe : n ≤ s.length) :
    IsBoundary s n := by
  refine ⟨s.take n, s.drop n, (List.take_append_drop n s).symm, ?_⟩
  rw [byteLen_of_ascii fun c hc => h c (List.mem_of_mem_take hc), List.length_take]
  omega

/-- A found pattern ends inside the text. -/
theorem le_of_findFrom {off p : Nat} {s pat : Str} (h : findFrom off s pat = some p) :
    p + byteLen pat ≤ off + byteLen s := by
  induction s generalizing off with
  | nil =>
    unfold findFrom at h
    split_ifs at h with hEmpty
    obtain rfl := Option.some.inj h
    rw [List.isEmpty_iff.1 hEmpty]
  | cons c s ih =>
    unfold findFrom at h
    split_ifs at h with hPrefix
    · obtain rfl := Option.some.inj h
      obtain ⟨t, ht⟩ := List.isPrefixOf_iff_prefix.1 hPrefix
      rw [← ht, byteLen_append]
      omega
    · have hRest := ih h
      rw [byteLen_cons]
      omega

theorem le_of_find {p : Nat} {s pat : Str} (h : find s pat = some p) :
    p + byteLen pat ≤ byteLen s := by
  have hLe := le_of_findFrom h
  omega

end Text
