import RunAlexDb.Lib.Text

/-!
# Digits — texts of decimal digits

A text of digits has a value, which is what is parsed from it, and leading zeros
do not change it. A number that is padded with zeros to a width is read back, and
has that width when it fits.

Main results: `parseI64_digits`, `parseI64_padZero`, `length_padZero` and
`digitsValue_tail`.
-/

namespace Text

/-- The value of a text of digits. -/
def digitsValue (s : Str) : Nat := s.foldl (fun n c => 10 * n + (c.toNat - '0'.toNat)) 0

theorem foldl_digits (s : Str) (n : Nat) :
    s.foldl (fun n c => 10 * n + (c.toNat - '0'.toNat)) n = n * 10 ^ s.length + digitsValue s := by
  unfold digitsValue
  induction s generalizing n with
  | nil => simp
  | cons c s ih =>
    rw [List.foldl_cons, List.foldl_cons, ih, ih (10 * 0 + _), List.length_cons, Nat.pow_succ]
    generalize 10 ^ s.length = p
    generalize c.toNat - '0'.toNat = d
    generalize List.foldl _ 0 s = v
    rw [Nat.mul_zero, Nat.zero_add, Nat.add_mul, ← Nat.add_assoc]
    congr 2
    rw [Nat.mul_comm 10 n, Nat.mul_assoc, Nat.mul_comm 10 p]

theorem digitsValue_cons (c : Char) (s : Str) :
    digitsValue (c :: s) = (c.toNat - '0'.toNat) * 10 ^ s.length + digitsValue s := by
  show List.foldl _ (10 * 0 + (c.toNat - '0'.toNat)) s = _
  rw [foldl_digits, Nat.mul_zero, Nat.zero_add]

theorem digit_le {c : Char} (h : c.isDigit = true) : '0'.toNat ≤ c.toNat ∧ c.toNat ≤ '9'.toNat := by
  unfold Char.isDigit at h
  simpa [UInt32.le_iff_toNat_le] using h

theorem digit_noSpace {c : Char} (h : c.isDigit = true) : isWhitespace c = false := by
  obtain ⟨hLow, hHigh⟩ := digit_le h
  have hMin : 48 ≤ c.toNat := hLow
  have hMax : c.toNat ≤ 57 := hHigh
  unfold isWhitespace
  simp only [Bool.or_eq_false_iff, Bool.and_eq_false_iff, decide_eq_false_iff_not, beq_eq_false_iff_ne]
  omega

theorem digitsValue_lt {s : Str} (h : ∀ c ∈ s, c.isDigit = true) : digitsValue s < 10 ^ s.length := by
  induction s with
  | nil => exact Nat.one_pos
  | cons c s ih =>
    have hRest := ih fun x hx => h x (List.mem_cons_of_mem _ hx)
    have hDigit : c.toNat - '0'.toNat ≤ 9 := by
      have hLe := (digit_le (h c (List.mem_cons_self ..))).2
      show c.toNat - 48 ≤ 9
      have hNine : c.toNat ≤ 57 := hLe
      omega
    have hScale : (c.toNat - '0'.toNat) * 10 ^ s.length ≤ 9 * 10 ^ s.length :=
      Nat.mul_le_mul_right _ hDigit
    rw [digitsValue_cons, List.length_cons, Nat.pow_succ]
    omega

/-- Without its first digit a text keeps its value exactly when that is a zero. -/
theorem digitsValue_tail {c : Char} {s : Str} (h : ∀ x ∈ c :: s, x.isDigit = true) :
    digitsValue s = digitsValue (c :: s) ↔ digitsValue (c :: s) < 10 ^ s.length := by
  have hRest := digitsValue_lt fun x hx => h x (List.mem_cons_of_mem _ hx)
  rw [digitsValue_cons]
  rcases Nat.eq_zero_or_pos (c.toNat - '0'.toNat) with hZero | hPos
  · rw [hZero, Nat.zero_mul, Nat.zero_add]
    exact iff_of_true rfl hRest
  · have hOne : 10 ^ s.length ≤ (c.toNat - '0'.toNat) * 10 ^ s.length := Nat.le_mul_of_pos_left _ hPos
    have hTen : 0 < 10 ^ s.length := Nat.pow_pos (by decide)
    exact iff_of_false (by omega) (by omega)

-- ---------------------------------------------------------------------------
-- Parsing
-- ---------------------------------------------------------------------------

theorem parseNat_digits {s : Str} (hSome : s ≠ []) (h : ∀ c ∈ s, c.isDigit = true) :
    parseNat s = some (digitsValue s) :=
  if_pos ⟨hSome, List.all_eq_true.2 h⟩

/-- A text without a sign is a natural number. -/
theorem parseI64_of_parseNat {c : Char} {r : Str} {v : Nat} (hMinus : c ≠ '-') (hPlus : c ≠ '+')
    (hNat : parseNat (c :: r) = some v) (hRange : v < 2 ^ 63) :
    parseI64 (c :: r) = some (Int64.ofNat v) := by
  have hFits : -2 ^ 63 ≤ (v : Int) ∧ (v : Int) < 2 ^ 63 := by omega
  have hSigned : parseI64 (c :: r) = (some (v : Int)).bind fun i =>
      if -2 ^ 63 ≤ i ∧ i < 2 ^ 63 then some (Int64.ofInt i) else none := by
    rw [parseI64, hNat]
    · rfl
    · exact fun _ hEq => hMinus (List.cons.inj hEq).1
    · exact fun _ hEq => hPlus (List.cons.inj hEq).1
  rw [hSigned, Option.bind_some, if_pos hFits, Int64.ofInt_eq_ofNat]

theorem parseI64_digits {s : Str} (hSome : s ≠ []) (h : ∀ c ∈ s, c.isDigit = true)
    (hRange : digitsValue s < 2 ^ 63) : parseI64 s = some (Int64.ofNat (digitsValue s)) := by
  have hNat := parseNat_digits hSome h
  cases s with
  | nil => exact absurd rfl hSome
  | cons c r =>
    have hDigit := h c (List.mem_cons_self ..)
    refine parseI64_of_parseNat ?_ ?_ hNat hRange
    · rintro rfl
      exact absurd hDigit (by decide)
    · rintro rfl
      exact absurd hDigit (by decide)

-- ---------------------------------------------------------------------------
-- Padded numbers
-- ---------------------------------------------------------------------------

theorem isDigit_padZero {width n : Nat} {c : Char} (h : c ∈ padZero width n) : c.isDigit = true := by
  rcases List.mem_append.1 h with hZero | hDigit
  · obtain rfl := List.eq_of_mem_replicate hZero
    rfl
  · exact Nat.isDigit_of_mem_toDigits (by decide) (by decide) hDigit

theorem padZero_ne_nil (width n : Nat) : padZero width n ≠ [] :=
  List.append_ne_nil_of_right_ne_nil _ Nat.toDigits_ne_nil

theorem digitsValue_padZero (width n : Nat) : digitsValue (padZero width n) = n := by
  have hZeros : ∀ k (s : Str), digitsValue (List.replicate k '0' ++ s) = digitsValue s := by
    intro k s
    induction k with
    | zero => rfl
    | succ k ih =>
      rw [List.replicate_succ, List.cons_append, digitsValue_cons, ih, Nat.sub_self, Nat.zero_mul,
        Nat.zero_add]
  have hDigits : parseNat (natToString n) = some (digitsValue (natToString n)) :=
    parseNat_digits Nat.toDigits_ne_nil fun c hc =>
      Nat.isDigit_of_mem_toDigits (by decide) (by decide) hc
  have hNat := parseNat_natToString n
  rw [hDigits] at hNat
  unfold padZero
  rw [hZeros]
  exact Option.some.inj hNat

/-- A padded number reads back. -/
theorem parseI64_padZero (width : Nat) {n : Nat} (h : n < 2 ^ 63) :
    parseI64 (padZero width n) = some (Int64.ofNat n) := by
  have hValue := digitsValue_padZero width n
  rw [parseI64_digits (padZero_ne_nil width n) (fun c => isDigit_padZero) (by rwa [hValue]), hValue]

theorem length_padZero {width n : Nat} (hWidth : 0 < width) (h : n < 10 ^ width) :
    (padZero width n).length = width := by
  have hLe : (natToString n).length ≤ width := (Nat.length_toDigits_le_iff (by decide) hWidth).2 h
  unfold padZero
  rw [List.length_append, List.length_replicate]
  omega

theorem padZeroInt_nat (width n : Nat) : padZeroInt width (n : Int) = padZero width n :=
  if_neg (Int.not_lt.2 (Int.natCast_nonneg n))

-- ---------------------------------------------------------------------------
-- Characters of printed numbers
-- ---------------------------------------------------------------------------

theorem mem_i64ToString {i : Int64} {c : Char} (h : c ∈ i64ToString i) :
    c = '-' ∨ c.isDigit = true := by
  unfold i64ToString at h
  split at h
  · rcases List.mem_cons.1 h with hSign | hMem
    · exact .inl hSign
    · exact .inr (isDigit_natToString hMem)
  · exact .inr (isDigit_natToString h)

theorem mem_hexEncode {b : List UInt8} {c : Char} (h : c ∈ hexEncode b) :
    c ∈ "0123456789abcdef".toList := by
  have hDigit : ∀ n, hexDigit n ∈ "0123456789abcdef".toList := by
    intro n
    unfold hexDigit
    rw [List.getD_eq_getElem?_getD]
    cases hGet : "0123456789abcdef".toList[n]? with
    | none => decide
    | some d => exact List.mem_of_getElem? hGet
  obtain ⟨x, -, hx⟩ := List.mem_flatMap.1 h
  rcases List.mem_cons.1 hx with rfl | hx
  · exact hDigit _
  · rw [List.mem_singleton.1 hx]
    exact hDigit _

theorem padZero_inj {width m n : Nat} (h : padZero width m = padZero width n) : m = n := by
  rw [← digitsValue_padZero width m, h, digitsValue_padZero]

end Text
