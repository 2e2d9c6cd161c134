import RunAlexDb.Lib.Calendar
import RunAlexDb.Lib.Digits
import RunAlexDb.Lib.Words
import RunAlexDb.Model.Dates

/-!
# DayNumbers — dates of the evaluator and dates of the calendar

A date text is read as year, month and day, the three become a number of days
since 1970-01-01 and such a number becomes the three again. On valid dates with
a year up to 9999 these are the text, the ordinal and the date of the calendar.

Main results: `parseYmd_text`, `parseDateStr_text` and `daysToYmd_eq`.
-/

namespace RunAlexDb

open Text Calendar

/-- The ordinal of 1970-01-01. -/
def epoch : Nat := 719528

theorem beforeYear_epoch : beforeYear 1970 = epoch := by
  have hRule := beforeYear_eq 1970
  unfold epoch
  omega

theorem isLeap_nat (y : Nat) : isLeap (y : Int) = decide (IsLeap y) := by
  have hRest : ∀ n r : Nat, (y : Int).tmod n = r ↔ y % n = r := fun n r => Int.ofNat_inj
  have hFour : (y : Int).tmod 4 = 0 ↔ y % 4 = 0 := hRest 4 0
  have hHundred : (y : Int).tmod 100 = 0 ↔ y % 100 = 0 := hRest 100 0
  have hFourHundred : (y : Int).tmod 400 = 0 ↔ y % 400 = 0 := hRest 400 0
  unfold isLeap
  rw [Bool.eq_iff_iff, Bool.or_eq_true, Bool.and_eq_true, beq_iff_eq, bne_iff_ne, beq_iff_eq,
    decide_eq_true_eq]
  exact or_congr (and_congr hFour (not_congr hHundred)) hFourHundred

theorem monthDays_eq (y : Nat) : monthDays (isLeap (y : Int)) = monthLengths y := by
  rw [isLeap_nat]
  unfold monthDays monthLengths
  by_cases h : IsLeap y <;> simp [h]

theorem yearDays_eq (y : Nat) : (if isLeap (y : Int) then 366 else 365 : Nat) = yearLength y := by
  rw [isLeap_nat]
  unfold yearLength
  by_cases h : IsLeap y <;> simp [h]

-- ---------------------------------------------------------------------------
-- Days to a date
-- ---------------------------------------------------------------------------

/-- The year loop stops inside a year, at the same day. -/
theorem years_spec {fuel y rem : Nat} (h : rem < 365 * fuel) :
    beforeYear (daysToYmd.years fuel y rem).1 + (daysToYmd.years fuel y rem).2 = beforeYear y + rem ∧
      (daysToYmd.years fuel y rem).2 < yearLength (daysToYmd.years fuel y rem).1 ∧
        y ≤ (daysToYmd.years fuel y rem).1 := by
  induction fuel generalizing y rem with
  | zero => omega
  | succ fuel ih =>
    unfold daysToYmd.years
    simp only [yearDays_eq]
    split_ifs with hInside
    · exact ⟨rfl, hInside, Nat.le_refl y⟩
    · have hLength := le_yearLength y
      obtain ⟨hSame, hRest, hLater⟩ := @ih (y + 1) (rem - yearLength y) (by omega)
      rw [beforeYear_succ] at hSame
      exact ⟨by omega, hRest, by omega⟩

/-- The month loop stops inside a month, at the same day. -/
theorem months_spec {l : List Nat} {mo rem : Nat} (h : rem < l.sum) :
    ∃ i r, daysToYmd.months l mo rem = (mo + i, r) ∧ i < l.length ∧ (l.take i).sum + r = rem ∧
      r < l.getD i 0 := by
  induction l generalizing mo rem with
  | nil => exact absurd h (Nat.not_lt_zero rem)
  | cons a l ih =>
    unfold daysToYmd.months
    split_ifs with hInside
    · exact ⟨0, rem, rfl, Nat.zero_lt_succ _, by simp, hInside⟩
    · rw [List.sum_cons] at h
      obtain ⟨i, r, hMonths, hLt, hSum, hInner⟩ := @ih (mo + 1) (rem - a) (by omega)
      refine ⟨i + 1, r, ?_, Nat.succ_lt_succ hLt, ?_, hInner⟩
      · rw [hMonths]
        congr 1
        omega
      · rw [List.take_succ_cons, List.sum_cons]
        omega

/-- A number of days since the epoch becomes the date with that ordinal. -/
theorem daysToYmd_eq (n : Nat) :
    ∃ d : Date, d.ordinal = epoch + n ∧ 1970 ≤ d.year ∧ daysToYmd n = (d.year, d.month, d.day) := by
  obtain ⟨hSame, hInside, hLater⟩ := @years_spec (n / 365 + 1) 1970 n (by omega)
  unfold daysToYmd
  generalize daysToYmd.years (n / 365 + 1) 1970 n = p at hSame hInside hLater
  obtain ⟨y, rem⟩ := p
  dsimp only at hSame hInside hLater ⊢
  rw [monthDays_eq]
  rw [← sum_monthLengths] at hInside
  obtain ⟨i, r, hMonths, hLt, hSum, hDay⟩ := @months_spec (monthLengths y) 1 rem hInside
  rw [hMonths]
  have hTwelve : i < 12 := hLt
  have hMonth : 1 + i - 1 = i := by omega
  refine ⟨⟨y, 1 + i, r + 1, by omega, by omega, ?_⟩, ?_, hLater, rfl⟩
  · unfold monthLength
    rw [hMonth]
    omega
  · unfold Date.ordinal beforeMonth
    dsimp only
    rw [hMonth, ← beforeYear_epoch]
    omega

-- ---------------------------------------------------------------------------
-- A date to days
-- ---------------------------------------------------------------------------

/-- A loop of additions in machine integers adds up the integers. -/
theorem foldl_ofInt {f : Int64 → Nat → Int64} {b : Nat → Int}
    (hStep : ∀ a i, f (Int64.ofInt a) i = Int64.ofInt (a + (b (i + 1) - b i))) (n : Nat) (a : Int) :
    (List.range n).foldl f (Int64.ofInt a) = Int64.ofInt (a + (b n - b 0)) := by
  induction n with
  | zero => simp
  | succ n ih =>
    rw [List.range_succ, List.foldl_append, ih]
    show f (Int64.ofInt _) n = _
    rw [hStep]
    congr 1
    omega

theorem toInt_ofNat {n : Nat} (h : n < 2 ^ 63) : (Int64.ofNat n).toInt = n :=
  Int64.toInt_ofNat_of_lt h

theorem eq_ofNat {x : Int64} {n : Nat} (hx : x.toInt = n) (h : n < 2 ^ 63) : x = Int64.ofNat n :=
  Int64.toInt_inj.1 (hx.trans (toInt_ofNat h).symm)

/-- The days of a year as the loops count them. -/
theorem yearDays_ofInt (y : Nat) :
    (if isLeap (y : Int) then 366 else 365 : Int64) = Int64.ofInt (yearLength y : Nat) := by
  rw [← yearDays_eq]
  split_ifs <;> rfl

/-- The loops over integers run over the natural numbers. -/
theorem foldl_cast {f : Int64 → Int → Int64} (l : List Nat) (a : Int64) :
    (l >>= fun n => pure (n : Int)).foldl f a = l.foldl (fun a (n : Nat) => f a n) a := by
  have hMap : (l >>= fun n => pure (n : Int)) = l.map (Nat.cast : Nat → Int) :=
    bind_pure_comp _ l
  rw [hMap, List.foldl_map]

/-- The year loops add up whole years, forward from the epoch or back from it. -/
theorem years_ofInt {y : Nat} (hYear : y < 2 ^ 63) :
    (if 1970 ≤ Int64.ofNat y then
      (List.range ((Int64.ofNat y).toInt - 1970).toNat).foldl
        (fun days i => days + if isLeap (1970 + i) then 366 else 365) (0 : Int64)
    else
      (List.range (1970 - (Int64.ofNat y).toInt).toNat).foldl
        (fun days i => days - if isLeap ((Int64.ofNat y).toInt + i) then 366 else 365) 0) =
      Int64.ofInt (beforeYear y - epoch) := by
  have hInt := toInt_ofNat hYear
  have hLater : 1970 ≤ Int64.ofNat y ↔ 1970 ≤ y := by
    rw [Int64.le_iff_toInt_le, hInt]
    show (1970 : Int) ≤ y ↔ _
    omega
  rw [hInt, ← beforeYear_epoch, foldl_cast, foldl_cast]
  split_ifs with h
  · rw [hLater] at h
    have hCount : ((y : Int) - 1970).toNat = y - 1970 := by omega
    have hEnd : 1970 + (y - 1970) = y := by omega
    have hStep : ∀ (a : Int) (i : Nat), Int64.ofInt a + (if isLeap (1970 + i) then 366 else 365) =
        Int64.ofInt (a + (beforeYear (1970 + (i + 1)) - beforeYear (1970 + i))) := by
      intro a i
      have hNext := beforeYear_succ (1970 + i)
      have hDays : (if isLeap (1970 + (i : Int)) then 366 else 365 : Int64) = _ :=
        yearDays_ofInt (1970 + i)
      rw [hDays, ← Int64.ofInt_add, ← Nat.add_assoc]
      exact congrArg Int64.ofInt (by omega)
    have hSum := @foldl_ofInt (fun days i => days + if isLeap (1970 + i) then 366 else 365)
      (fun i => beforeYear (1970 + i)) hStep (y - 1970) 0
    rw [hCount]
    refine hSum.trans (congrArg Int64.ofInt ?_)
    rw [hEnd, Nat.add_zero, Int.zero_add]
  · rw [hLater] at h
    have hCount : (1970 - (y : Int)).toNat = 1970 - y := by omega
    have hEnd : y + (1970 - y) = 1970 := by omega
    have hStep : ∀ (a : Int) (i : Nat),
        Int64.ofInt a - (if isLeap ((y : Int) + i) then 366 else 365) =
          Int64.ofInt (a + (-beforeYear (y + (i + 1)) - -beforeYear (y + i))) := by
      intro a i
      have hNext := beforeYear_succ (y + i)
      have hDays : (if isLeap ((y : Int) + (i : Int)) then 366 else 365 : Int64) = _ :=
        yearDays_ofInt (y + i)
      rw [hDays, ← Int64.ofInt_sub, ← Nat.add_assoc]
      exact congrArg Int64.ofInt (by omega)
    have hSum := @foldl_ofInt (fun days i => days - if isLeap ((y : Int) + i) then 366 else 365)
      (fun i => -beforeYear (y + i)) hStep (1970 - y) 0
    rw [hCount]
    refine hSum.trans (congrArg Int64.ofInt ?_)
    rw [hEnd, Nat.add_zero]
    omega

/-- The month loop adds up whole months of the year. -/
theorem months_ofInt {y n : Nat} (hMonths : n ≤ 12) (a : Int) :
    (List.range n).foldl
      (fun days i => days + Int64.ofNat ((monthDays (isLeap (y : Int))).getD i 30)) (Int64.ofInt a) =
      Int64.ofInt (a + ((monthLengths y).take n).sum) := by
  induction n with
  | zero => simp
  | succ n ih =>
    have hLt : n < (monthLengths y).length := hMonths
    have hEntry : (monthLengths y).getD n 30 = (monthLengths y).getD n 0 := by
      simp [List.getD, List.getElem?_eq_getElem hLt]
    have hSum := sum_take_succ (monthLengths y) n
    rw [List.range_succ, List.foldl_append, ih (by omega)]
    show Int64.ofInt _ + Int64.ofNat _ = _
    rw [monthDays_eq, hEntry, ← Int64.ofInt_eq_ofNat, ← Int64.ofInt_add]
    exact congrArg Int64.ofInt (by omega)

/-- The number of days of a date whose year is a machine integer. -/
theorem ymdToDays_eq (d : Date) (hYear : d.year < 2 ^ 63) :
    ymdToDays (Int64.ofNat d.year) (Int64.ofNat d.month) (Int64.ofNat d.day) =
      Int64.ofInt (d.ordinal - epoch) := by
  obtain ⟨hMonthLow, hMonthHigh⟩ := d.month_valid
  have hCount : (Int64.ofNat d.month - 1).toUInt64.toNat = d.month - 1 := by
    generalize d.month = m at hMonthLow hMonthHigh
    interval_cases m <;> rfl
  have hYears := years_ofInt hYear
  unfold ymdToDays
  dsimp only
  rw [hYears, hCount, toInt_ofNat hYear, months_ofInt (by omega), ← Int64.ofInt_eq_ofNat,
    ← Int64.ofInt_add]
  show Int64.ofInt _ - Int64.ofInt 1 = _
  rw [← Int64.ofInt_sub]
  have hDay := d.day_valid.1
  refine congrArg Int64.ofInt ?_
  unfold Date.ordinal beforeMonth
  omega

-- ---------------------------------------------------------------------------
-- Date texts
-- ---------------------------------------------------------------------------

/-- A date as `YYYY-MM-DD`. -/
def ymdText (d : Date) : Str := formatDateYmd d.year d.month d.day

theorem ymdText_eq (d : Date) :
    ymdText d = padZero 4 d.year ++ '-' :: (padZero 2 d.month ++ '-' :: padZero 2 d.day) := by
  unfold ymdText formatDateYmd
  rw [padZeroInt_nat, padZeroInt_nat, padZeroInt_nat, List.append_assoc, List.append_assoc,
    List.append_assoc]
  rfl

theorem hyphen_notMem_padZero (width n : Nat) : '-' ∉ padZero width n := by
  intro hIn
  exact absurd (isDigit_padZero hIn) (by decide)

theorem ymdText_ne_nil (d : Date) : ymdText d ≠ [] := by
  rw [ymdText_eq]
  exact List.append_ne_nil_of_left_ne_nil (padZero_ne_nil _ _) _

theorem ymdText_noSpace {d : Date} {c : Char} (h : c ∈ ymdText d) : isWhitespace c = false := by
  rw [ymdText_eq, List.mem_append, List.mem_cons, List.mem_append, List.mem_cons] at h
  rcases h with hDigit | rfl | hDigit | rfl | hDigit
  · exact digit_noSpace (isDigit_padZero hDigit)
  · rfl
  · exact digit_noSpace (isDigit_padZero hDigit)
  · rfl
  · exact digit_noSpace (isDigit_padZero hDigit)

theorem splitn_three {a b c : Str} (ha : '-' ∉ a) (hb : '-' ∉ b) :
    splitn 3 '-' (a ++ '-' :: (b ++ '-' :: c)) = [a, b, c] := by
  have hFirst : ∀ (n : Nat) {x : Str}, '-' ∉ x → ∀ y,
      splitn (n + 2) '-' (x ++ '-' :: y) = x :: splitn (n + 1) '-' y := by
    intro n x hx y
    rw [splitn, splitOnce_append hx]
  rw [hFirst 1 ha, hFirst 0 hb, splitn]

/-- A date text reads as its date. -/
theorem parseYmd_text {d : Date} (hYear : d.year < 2 ^ 63) :
    parseYmd (ymdText d) =
      some (Int64.ofNat d.year, Int64.ofNat d.month, Int64.ofNat d.day) := by
  have hMonth := d.month_valid.2
  have hDay : d.day ≤ 31 := d.day_valid.2.trans (monthLength_le _ _)
  unfold parseYmd
  rw [trim_of_noSpace fun c => ymdText_noSpace,
    splitWhitespace_word (ymdText_ne_nil d) fun c => ymdText_noSpace, ymdText_eq]
  dsimp only
  rw [splitn_three (hyphen_notMem_padZero _ _) (hyphen_notMem_padZero _ _)]
  dsimp only
  rw [parseI64_padZero 4 hYear, parseI64_padZero 2 (by omega), parseI64_padZero 2 (by omega)]
  rfl

/-- What is read as a date has the number of days of that date. -/
theorem parseDateStr_of_parseYmd {s : Str} {d : Date} (hYear : d.year < 2 ^ 63)
    (h : parseYmd s = some (Int64.ofNat d.year, Int64.ofNat d.month, Int64.ofNat d.day)) :
    parseDateStr s = some (Int64.ofInt (d.ordinal - epoch)) := by
  unfold parseDateStr
  rw [h]
  exact congrArg some (ymdToDays_eq d hYear)

theorem parseDateStr_text {d : Date} (hYear : d.year < 2 ^ 63) :
    parseDateStr (ymdText d) = some (Int64.ofInt (d.ordinal - epoch)) :=
  parseDateStr_of_parseYmd hYear (parseYmd_text hYear)

end RunAlexDb
