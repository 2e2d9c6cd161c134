import RunAlexDb.Lib.Text

/-!
# Utf8 — texts as bytes and back

The encoding of a character starts with a byte that announces its length, and
the bytes behind it carry six bits each. Decoding the bytes of a text gives the
text.
-/

namespace Text

-- ---------------------------------------------------------------------------
-- One character
-- ---------------------------------------------------------------------------

/-- Code points are no surrogates. -/
theorem toNat_char (c : Char) : c.toNat < 0xD800 ∨ (0xDFFF < c.toNat ∧ c.toNat < 0x110000) := c.valid

theorem toNat_byte {n : Nat} (h : n < 256) : (UInt8.ofNat n).toNat = n := by
  rw [UInt8.toNat_ofNat']
  exact Nat.mod_eq_of_lt h

/-- A lead byte that announces the bytes that follow it. -/
theorem go_lead {n x len lo hi : Nat} (tail : List UInt8) {rest : List UInt8} (hByte : x < 256)
    (hLead : utf8Lead x = some (len, lo, hi))
    (hTail : continuation lo hi (len - 1) (tail ++ rest) = tail.map UInt8.toNat)
    (hLength : tail.length = len - 1) :
    fromUtf8Lossy.go (n + 1) (UInt8.ofNat x :: tail ++ rest) =
      Char.ofNat ((tail.map UInt8.toNat).foldl (fun a t => a * 64 + t % 64)
        (if len = 1 then x else x % 2 ^ (7 - len))) :: fromUtf8Lossy.go n rest := by
  have hRead : (UInt8.ofNat x).toNat = x := toNat_byte hByte
  show fromUtf8Lossy.go (n + 1) (UInt8.ofNat x :: (tail ++ rest)) = _
  rw [fromUtf8Lossy.go, hRead, hLead]
  simp only [hTail, List.length_map, hLength, if_true]
  rw [← hLength, List.drop_left]

theorem continuation_one {lo hi b : Nat} (rest : List UInt8) (hByte : b < 256) (hLo : lo ≤ b)
    (hHi : b ≤ hi) (n : Nat) :
    continuation lo hi (n + 1) (UInt8.ofNat b :: rest) =
      (UInt8.ofNat b).toNat :: continuation 0x80 0xBF n rest := by
  rw [continuation, toNat_byte hByte, if_pos ⟨hLo, hHi⟩]

/-- Three bytes: no second byte makes a shorter encoding or a surrogate. -/
theorem utf8Lead_three {v : Nat} (hPoint : v < 0xD800 ∨ (0xDFFF < v ∧ v < 0x110000))
    (hLarge : 0x7FF < v) (hSmall : v ≤ 0xFFFF) :
    ∃ lo hi, utf8Lead (v / 4096 % 16 + 0xE0) = some (3, lo, hi) ∧
      lo ≤ v / 64 % 64 + 0x80 ∧ v / 64 % 64 + 0x80 ≤ hi := by
  rw [utf8Lead, if_neg (by omega), if_neg (by omega)]
  split
  · exact ⟨_, _, rfl, by omega, by omega⟩
  · split
    · exact ⟨_, _, rfl, by omega, by omega⟩
    · rw [if_pos (by omega)]
      exact ⟨_, _, rfl, by omega, by omega⟩

/-- Four bytes: nor a shorter one, or a point past the last. -/
theorem utf8Lead_four {v : Nat} (hPoint : v < 0xD800 ∨ (0xDFFF < v ∧ v < 0x110000))
    (hLarge : 0xFFFF < v) :
    ∃ lo hi, utf8Lead (v / 262144 % 8 + 0xF0) = some (4, lo, hi) ∧
      lo ≤ v / 4096 % 64 + 0x80 ∧ v / 4096 % 64 + 0x80 ≤ hi := by
  rw [utf8Lead, if_neg (by omega), if_neg (by omega), if_neg (by omega), if_neg (by omega),
    if_neg (by omega)]
  split
  · exact ⟨_, _, rfl, by omega, by omega⟩
  · split
    · exact ⟨_, _, rfl, by omega, by omega⟩
    · rw [if_pos (by omega)]
      exact ⟨_, _, rfl, by omega, by omega⟩

/-- The encoding of a character is decoded to it. -/
theorem go_utf8EncodeChar (n : Nat) (c : Char) (rest : List UInt8) :
    fromUtf8Lossy.go (n + 1) (String.utf8EncodeChar c ++ rest) = c :: fromUtf8Lossy.go n rest := by
  have hChar : Char.ofNat c.toNat = c := Char.ofNat_toNat c
  have hPoint := toNat_char c
  rw [String.utf8EncodeChar]
  simp only [Char.toNat] at hChar hPoint
  generalize c.val.toNat = v at hChar hPoint
  split
  · rename_i hOne
    have hLead : utf8Lead v = some (1, 0, 0) := by
      rw [utf8Lead, if_pos (by omega)]
    rw [go_lead [] (by omega) hLead rfl rfl]
    simp only [List.map_nil, List.foldl_nil, if_true, hChar]
  · split
    · rename_i hOne hTwo
      have hLead : utf8Lead (v / 64 % 32 + 0xC0) = some (2, 0x80, 0xBF) := by
        rw [utf8Lead, if_neg (by omega), if_pos (by omega)]
      rw [go_lead [UInt8.ofNat (v % 64 + 0x80)] (by omega) hLead ?_ rfl]
      · simp only [List.map_cons, List.map_nil, List.foldl_cons, List.foldl_nil]
        rw [toNat_byte (by omega), if_neg (by omega)]
        congr 1
        rw [← hChar]
        congr 1
        omega
      · rw [List.singleton_append, continuation_one _ (by omega) (by omega) (by omega)]
        rfl
    · split
      · rename_i hOne hTwo hThree
        obtain ⟨lo, hi, hLead, hLo, hHi⟩ := utf8Lead_three hPoint (by omega) hThree
        rw [go_lead [UInt8.ofNat (v / 64 % 64 + 0x80), UInt8.ofNat (v % 64 + 0x80)]
          (by omega) hLead ?_ rfl]
        · simp only [List.map_cons, List.map_nil, List.foldl_cons, List.foldl_nil]
          rw [toNat_byte (by omega), toNat_byte (by omega), if_neg (by omega)]
          congr 1
          rw [← hChar]
          congr 1
          omega
        · rw [List.cons_append, List.singleton_append,
            continuation_one _ (by omega) hLo hHi, continuation_one _ (by omega) (by omega) (by omega)]
          rfl
      · rename_i hOne hTwo hThree
        obtain ⟨lo, hi, hLead, hLo, hHi⟩ := utf8Lead_four hPoint (by omega)
        rw [go_lead [UInt8.ofNat (v / 4096 % 64 + 0x80), UInt8.ofNat (v / 64 % 64 + 0x80),
          UInt8.ofNat (v % 64 + 0x80)] (by omega) hLead ?_ rfl]
        · simp only [List.map_cons, List.map_nil, List.foldl_cons, List.foldl_nil]
          rw [toNat_byte (by omega), toNat_byte (by omega), toNat_byte (by omega), if_neg (by omega)]
          congr 1
          rw [← hChar]
          congr 1
          omega
        · rw [List.cons_append, List.cons_append, List.singleton_append,
            continuation_one _ (by omega) hLo hHi, continuation_one _ (by omega) (by omega) (by omega),
            continuation_one _ (by omega) (by omega) (by omega)]
          rfl

-- ---------------------------------------------------------------------------
-- Texts
-- ---------------------------------------------------------------------------

theorem bytes_cons (c : Char) (s : Str) : bytes (c :: s) = String.utf8EncodeChar c ++ bytes s := rfl

@[simp] theorem length_bytes (s : Str) : (bytes s).length = byteLen s := by
  induction s with
  | nil => rfl
  | cons c s ih =>
    rw [bytes_cons, List.length_append, ih, String.length_utf8EncodeChar]
    rfl

theorem length_le_byteLen (s : Str) : s.length ≤ byteLen s := by
  induction s with
  | nil => exact Nat.le_refl 0
  | cons c s ih =>
    show s.length + 1 ≤ c.utf8Size + byteLen s
    have hPos := Char.utf8Size_pos c
    omega

/-- An ASCII byte stands for nothing but its character. -/
theorem count_utf8EncodeChar {b : Nat} (hAscii : b < 0x80) (c : Char) :
    (String.utf8EncodeChar c).count (UInt8.ofNat b) = if c.toNat = b then 1 else 0 := by
  have hPoint := toNat_char c
  have hOther : ∀ n, 0x80 ≤ n → n < 256 → (UInt8.ofNat n == UInt8.ofNat b) = false := by
    intro n hHigh hByte
    refine beq_false_of_ne fun hSame => ?_
    have hNat := congrArg UInt8.toNat hSame
    rw [toNat_byte hByte, toNat_byte (by omega)] at hNat
    omega
  have hVal : c.val.toNat = c.toNat := rfl
  rw [String.utf8EncodeChar]
  simp only [hVal]
  generalize c.toNat = v at hPoint ⊢
  split
  · rename_i hOne
    rw [List.count_singleton]
    by_cases hSame : v = b
    · rw [if_pos hSame, hSame, if_pos (beq_self_eq_true _)]
    · have hNe : (UInt8.ofNat v == UInt8.ofNat b) = false := by
        refine beq_false_of_ne fun hByte => hSame ?_
        have hNat := congrArg UInt8.toNat hByte
        rwa [toNat_byte (by omega), toNat_byte (by omega)] at hNat
      rw [if_neg hSame, hNe, if_neg Bool.false_ne_true]
  · have hNe : ¬ v = b := by omega
    rw [if_neg hNe]
    split
    · simp only [List.count_cons, List.count_nil]
      rw [hOther _ (by omega) (by omega), hOther _ (by omega) (by omega)]
      rfl
    · split
      · simp only [List.count_cons, List.count_nil]
        rw [hOther _ (by omega) (by omega), hOther _ (by omega) (by omega),
          hOther _ (by omega) (by omega)]
        rfl
      · simp only [List.count_cons, List.count_nil]
        rw [hOther _ (by omega) (by omega), hOther _ (by omega) (by omega),
          hOther _ (by omega) (by omega), hOther _ (by omega) (by omega)]
        rfl

/-- An ASCII byte is as often among the bytes as its character in the text. -/
theorem count_bytes {c : Char} (hAscii : c.toNat < 0x80) (s : Str) :
    (bytes s).count (UInt8.ofNat c.toNat) = s.count c := by
  induction s with
  | nil => rfl
  | cons d s ih =>
    rw [bytes_cons, List.count_append, count_utf8EncodeChar hAscii, ih, List.count_cons, Nat.add_comm]
    congr 1
    by_cases hSame : d = c
    · rw [hSame, if_pos rfl, if_pos (beq_self_eq_true c)]
    · rw [if_neg fun hNat => hSame (Char.toNat_inj.1 hNat), beq_false_of_ne hSame,
        if_neg Bool.false_ne_true]

/-- What was written is read. -/
theorem fromUtf8Lossy_bytes (s : Str) : fromUtf8Lossy (bytes s) = s := by
  have hGo : ∀ n, s.length ≤ n → fromUtf8Lossy.go n (bytes s) = s := by
    induction s with
    | nil =>
      intro n _
      cases n <;> rfl
    | cons c s ih =>
      intro n hFuel
      obtain ⟨m, rfl⟩ : ∃ m, n = m + 1 := ⟨n - 1, by rw [List.length_cons] at hFuel; omega⟩
      rw [bytes_cons, go_utf8EncodeChar, ih m (by rw [List.length_cons] at hFuel; omega)]
  rw [fromUtf8Lossy]
  exact hGo _ (by rw [length_bytes]; exact length_le_byteLen s)

end Text
