import RunAlexDb.Query.DayNumbers

/-!
# DateShifts — dates moved by days

Moving a date by a number of days adds the number to its day number and prints
the date of the sum. From the epoch on that is the day so many days later; before
the epoch the date is mirrored at the epoch, which is no date of that day.

Main result: `dateAddDays_iff`.
-/

namespace RunAlexDb

open Text Calendar

-- ---------------------------------------------------------------------------
-- Day numbers as machine integers
-- ---------------------------------------------------------------------------

theorem ordinal_lt {d : Date} (hYear : d.year ≤ 9999) : d.ordinal < 3652425 := by
  have hEnd := beforeYear_eq (9999 + 1)
  have hLt := Date.ordinal_lt_iff.2 (show d.year < 9999 + 1 by omega)
  omega

/-- The day number of a date up to the year 9999. -/
theorem toInt_dayNumber {d : Date} (hYear : d.year ≤ 9999) :
    (Int64.ofInt (d.ordinal - epoch)).toInt = d.ordinal - epoch := by
  have hLt := ordinal_lt hYear
  unfold epoch
  exact Int64.toInt_ofInt_of_le (by omega) (by omega)

theorem dayNumber_inj {d e : Date} (hd : d.year ≤ 9999) (he : e.year ≤ 9999)
    (h : Int64.ofInt (d.ordinal - epoch) = Int64.ofInt (e.ordinal - epoch)) : d = e := by
  have hInt := congrArg Int64.toInt h
  rw [toInt_dayNumber hd, toInt_dayNumber he] at hInt
  exact Date.ordinal_inj (by omega)

/-- The moved day number is that of the moved date. -/
theorem dayNumber_add {d e : Date} {k : Int64} (h : Date.DaysAfter k.toInt d e) :
    Int64.ofInt (d.ordinal - epoch) + k = Int64.ofInt (e.ordinal - epoch) := by
  have hOrdinal := Date.daysAfter_iff.1 h
  have hk : k = Int64.ofInt k.toInt := (Int64.ofInt_toInt k).symm
  rw [hk, ← Int64.ofInt_add]
  exact congrArg Int64.ofInt (by omega)

-- ---------------------------------------------------------------------------
-- Both sides of the epoch
-- ---------------------------------------------------------------------------

theorem year_dayNumber {d : Date} (hYear : d.year ≤ 9999) :
    0 ≤ Int64.ofInt (d.ordinal - epoch) ↔ 1970 ≤ d.year := by
  have hBefore := @Date.ordinal_lt_iff d 1970
  rw [beforeYear_epoch] at hBefore
  rw [Int64.le_iff_toInt_le, toInt_dayNumber hYear]
  show (0 : Int) ≤ _ ↔ _
  omega

/-- From the epoch on the moved date is printed. -/
theorem dateAddDays_after {s : Str} {b k : Int64} {e : Date} (hBase : parseDateStr s = some b)
    (hSum : b + k = Int64.ofInt (e.ordinal - epoch)) (hYear : e.year ≤ 9999) (h : 1970 ≤ e.year) :
    dateAddDays s k = some (ymdText e) := by
  have hLt := ordinal_lt hYear
  have hPos := (year_dayNumber hYear).2 h
  have hNat : (Int64.ofInt (e.ordinal - epoch)).toNatClampNeg = e.ordinal - epoch := by
    unfold Int64.toNatClampNeg
    rw [toInt_dayNumber hYear]
    omega
  obtain ⟨d, hOrdinal, -, hYmd⟩ := daysToYmd_eq (e.ordinal - epoch)
  have hEpoch : epoch ≤ e.ordinal := by
    rw [← beforeYear_epoch]
    exact (Date.beforeYear_le h).trans e.ordinal_range.1
  obtain rfl : d = e := Date.ordinal_inj (by omega)
  unfold dateAddDays
  rw [hBase, Option.bind_eq_bind, Option.bind_some]
  dsimp only
  rw [hSum, if_pos hPos, hNat, hYmd]
  rfl

/-- Before the epoch a date that many days behind it is mirrored. -/
theorem dateAddDays_before {s : Str} {b k : Int64} {e : Date} (hBase : parseDateStr s = some b)
    (hSum : b + k = Int64.ofInt (e.ordinal - epoch)) (h : e.year < 1970) :
    ∃ d : Date, d.ordinal + e.ordinal + 1 = 2 * epoch ∧ 1970 ≤ d.year ∧
      dateAddDays s k = some (formatDateYmd (1970 - d.year) (13 - d.month) d.day) := by
  have hYear : e.year ≤ 9999 := by omega
  have hNeg : ¬0 ≤ Int64.ofInt (e.ordinal - epoch) := by
    rw [year_dayNumber hYear]
    omega
  have hLt := Date.ordinal_lt_iff.2 h
  rw [beforeYear_epoch] at hLt
  have hNat : (-Int64.ofInt (e.ordinal - epoch) - 1).toUInt64.toNat = epoch - e.ordinal - 1 := by
    have hMirror : -Int64.ofInt (e.ordinal - epoch) - 1 =
        Int64.ofNat (epoch - e.ordinal - 1) := by
      rw [Int64.neg_ofInt, ← Int64.ofInt_eq_ofNat]
      show Int64.ofInt _ - Int64.ofInt 1 = _
      rw [← Int64.ofInt_sub]
      exact congrArg Int64.ofInt (by omega)
    have hSmall : epoch - e.ordinal - 1 < 2 ^ 63 := by
      unfold epoch
      omega
    have hPos : 0 ≤ Int64.ofNat (epoch - e.ordinal - 1) := by
      rw [Int64.le_iff_toInt_le, toInt_ofNat hSmall]
      exact Int.natCast_nonneg _
    rw [hMirror, Int64.toNat_toUInt64_of_le hPos, Int64.toNatClampNeg_ofNat_of_lt hSmall]
  obtain ⟨d, hOrdinal, hLater, hYmd⟩ := daysToYmd_eq (epoch - e.ordinal - 1)
  refine ⟨d, by omega, hLater, ?_⟩
  unfold dateAddDays
  rw [hBase, Option.bind_eq_bind, Option.bind_some]
  dsimp only
  rw [hSum, if_neg hNeg, hNat, hYmd]
  rfl

/-- A mirrored date is no text of the day it stands for. -/
theorem mirrored_ne {d e : Date} (hSum : d.ordinal + e.ordinal + 1 = 2 * epoch) (h : 1970 ≤ d.year)
    (m n : Int) : formatDateYmd (1970 - d.year) m n ≠ ymdText e := by
  intro hText
  rw [ymdText_eq] at hText
  unfold formatDateYmd at hText
  rcases Nat.lt_or_ge 1970 d.year with hLater | hEpoch
  · -- the year is negative
    have hSign : padZeroInt 4 (1970 - d.year) = '-' :: padZero 3 (1970 - (d.year : Int)).natAbs :=
      if_pos (by omega)
    rw [hSign] at hText
    obtain ⟨c, t, hDigits⟩ := List.exists_cons_of_ne_nil (padZero_ne_nil 4 e.year)
    rw [hDigits] at hText
    have hFirst : '-' = c := (List.cons.inj hText).1
    have hDigit : c.isDigit = true := by
      refine @isDigit_padZero 4 e.year c ?_
      rw [hDigits]
      exact List.mem_cons_self ..
    rw [← hFirst] at hDigit
    exact absurd hDigit (by decide)
  · -- the year is 0, but the day is in the year before the epoch
    have hYear : d.year = 1970 := Nat.le_antisymm hEpoch h
    have hZero : padZeroInt 4 (1970 - d.year) = padZero 4 0 := by
      rw [hYear]
      rfl
    have hCuts := congrArg (splitOnce '-') hText
    rw [hZero, splitOnce_append (hyphen_notMem_padZero _ _), List.append_assoc, List.append_assoc,
      List.append_assoc] at hCuts
    have hFront : splitOnce '-' (padZero 4 0 ++ ('-' :: (padZeroInt 2 m ++ ("-" ++ padZeroInt 2 n)))) =
      _ := splitOnce_append (hyphen_notMem_padZero _ _) _
    have hSame := Option.some.inj (hFront.symm.trans hCuts)
    have hFirst : e.year = 0 := (padZero_inj (congrArg Prod.fst hSame)).symm
    have hd := d.ordinal_range.2
    have he := e.ordinal_range.2
    have hNext := beforeYear_eq (1970 + 1)
    have hOne := beforeYear_eq (0 + 1)
    rw [hYear] at hd
    rw [hFirst] at he
    unfold epoch at hSum
    omega

-- ---------------------------------------------------------------------------
-- Results
-- ---------------------------------------------------------------------------

/-- Moving the date `s` by `k` days gives a date text whose day number is `k` more. -/
def Shifts (s : Str) (k : Int64) : Prop :=
  ∃ e : Date, e.year ≤ 9999 ∧ dateAddDays s k = some (ymdText e) ∧
    parseDateStr (ymdText e) = (parseDateStr s).map (· + k)

/-- A date is moved by days exactly when it arrives at the epoch or later. -/
theorem dateAddDays_iff (d e : Date) (k : Int64) (hd : d.year ≤ 9999) (he : e.year ≤ 9999)
    (h : Date.DaysAfter k.toInt d e) : Shifts (ymdText d) k ↔ 1970 ≤ e.year := by
  have hBase := @parseDateStr_text d (by omega)
  have hSum := dayNumber_add h
  constructor
  · rintro ⟨r, hr, hText, hNumber⟩
    by_contra hBefore
    obtain ⟨f, hMirror, hLater, hPrinted⟩ := dateAddDays_before hBase hSum (Nat.lt_of_not_le hBefore)
    rw [hBase, @parseDateStr_text r (by omega), Option.map_some, hSum] at hNumber
    obtain rfl := dayNumber_inj hr he (Option.some.inj hNumber)
    exact mirrored_ne hMirror hLater _ _ (Option.some.inj (hPrinted.symm.trans hText))
  · intro hLater
    refine ⟨e, he, dateAddDays_after hBase hSum he hLater, ?_⟩
    rw [hBase, @parseDateStr_text e (by omega), Option.map_some, hSum]

theorem epochDate_month : (1 : Nat) ≤ 1 ∧ (1 : Nat) ≤ 12 := by decide

theorem epochDate_day : 1 ≤ 1 ∧ 1 ≤ monthLength 1970 1 := by decide

/-- The first day of 1970. -/
def epochDate : Date := ⟨1970, 1, 1, epochDate_month, epochDate_day⟩

theorem epochEve_month : (1 : Nat) ≤ 12 ∧ (12 : Nat) ≤ 12 := by decide

theorem epochEve_day : 1 ≤ 31 ∧ 31 ≤ monthLength 1969 12 := by decide

/-- The last day of 1969. -/
def epochEve : Date := ⟨1969, 12, 31, epochEve_month, epochEve_day⟩

theorem daysAfter_eve : Date.DaysAfter (1 : Int64).toInt epochEve epochDate :=
  Date.daysAfter_iff.2 (by decide +kernel)

theorem dateAddDays_iff_at : Shifts (ymdText epochEve) 1 ↔ 1970 ≤ epochDate.year :=
  dateAddDays_iff epochEve epochDate 1 (by decide) (by decide) daysAfter_eve

/-- The day before 1970-01-01 prints as 0000-12-01. -/
theorem not_dateAddDays :
    ¬∀ d e : Date, ∀ k : Int64, d.year ≤ 9999 → e.year ≤ 9999 → Date.DaysAfter k.toInt d e →
      Shifts (ymdText d) k := by
  intro hAll
  have hEve : Date.DaysAfter (-1 : Int64).toInt epochDate epochEve :=
    Date.daysAfter_iff.2 (by decide +kernel)
  obtain ⟨r, hr, hText, hNumber⟩ := hAll epochDate epochEve (-1) (by decide) (by decide) hEve
  have hPrinted : dateAddDays (ymdText epochDate) (-1) = some "0000-12-01" := by decide +kernel
  rw [hPrinted] at hText
  rw [← Option.some.inj hText] at hNumber
  exact absurd hNumber (by decide +kernel)

end RunAlexDb
