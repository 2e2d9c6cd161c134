import RunAlexDb.Query.DateShifts
import RunAlexDb.Query.DayInverses

/-!
# MonthShifts — dates moved by months

Moving a date by a number of months counts the months from year 0 on, adds the
number and takes the quotient and the remainder by 12 for the year and the month.
The day stays, or is cut to the length of the month.

Main result: `addMonths_date`.
-/

namespace RunAlexDb

open Text Calendar

/-- Moved by `k` months the month of the date stands from year 0 on, and its count is a
machine integer. -/
structure CountsMonths (d : Date) (k : Int64) : Prop where
  low : 0 ≤ (d.monthIndex : Int) + k.toInt
  high : (d.monthIndex : Int) + k.toInt < 2 ^ 63

/-- The count of months in machine integers. -/
theorem monthIndex_ofInt (d : Date) {n : Nat} {k : Int64} (h : (n : Int) = d.monthIndex + k.toInt) :
    Int64.ofNat d.year * 12 + (Int64.ofNat d.month - 1) + k = Int64.ofNat n := by
  have hk : k = Int64.ofInt k.toInt := (Int64.ofInt_toInt k).symm
  have hMonth := d.month_valid.1
  rw [hk, ← Int64.ofInt_eq_ofNat, ← Int64.ofInt_eq_ofNat, ← Int64.ofInt_eq_ofNat]
  show Int64.ofInt _ * Int64.ofInt 12 + (Int64.ofInt _ - Int64.ofInt 1) + _ = _
  rw [← Int64.ofInt_mul, ← Int64.ofInt_sub, ← Int64.ofInt_add, ← Int64.ofInt_add]
  refine congrArg Int64.ofInt ?_
  unfold Date.monthIndex at h
  omega

theorem toInt_min_ofNat {a b : Nat} (ha : a < 2 ^ 63) (hb : b < 2 ^ 63) :
    (min (Int64.ofNat a) (Int64.ofNat b)).toInt = (min a b : Nat) := by
  have hLe : Int64.ofNat a ≤ Int64.ofNat b ↔ a ≤ b := by
    rw [Int64.le_iff_toInt_le, toInt_ofNat ha, toInt_ofNat hb]
    exact Int.ofNat_le
  show (if Int64.ofNat a ≤ Int64.ofNat b then Int64.ofNat a else Int64.ofNat b).toInt = _
  by_cases h : a ≤ b
  · rw [if_pos (hLe.2 h), Nat.min_eq_left h, toInt_ofNat ha]
  · rw [if_neg fun hNot => h (hLe.1 hNot), Nat.min_eq_right (Nat.le_of_not_le h), toInt_ofNat hb]

/-- The month with the given count, and the day cut to its length. -/
theorem addMonths_onMonth {s : Str} {d : Date} {k : Int64} {n : Nat} (hs : FirstWordIs s d)
    (hn : (n : Int) = d.monthIndex + k.toInt) (hHigh : n < 2 ^ 63) :
    addMonths s k = some (ymdText (Date.onMonth n d.day d.day_valid.1)) := by
  obtain ⟨y, m, c, hReads, hYear, hMonth, hDay⟩ := hs
  have hMonths := d.month_valid
  have hDays : d.day ≤ 31 := d.day_valid.2.trans (monthLength_le _ _)
  have hLength := monthLength_le (n / 12) (n % 12 + 1)
  have hYearLt : d.year < 2 ^ 63 := by
    have hLt := y.toInt_lt
    omega
  have hYmd := parseYmd_eq_some.2 hReads
  rw [eq_ofNat hYear hYearLt, eq_ofNat hMonth (by omega), eq_ofNat hDay (by omega)] at hYmd
  have hQuotient : Int64.ofNat n / 12 = Int64.ofNat (n / 12) :=
    (Int64.ofNat_div hHigh (by decide)).symm
  have hRest : Int64.ofNat n % 12 = Int64.ofNat (n % 12) := (Int64.ofNat_mod hHigh (by decide)).symm
  have hNext : Int64.ofNat (n % 12) + 1 = Int64.ofNat (n % 12 + 1) := (Int64.ofNat_add ..).symm
  have hPlace : (Int64.ofNat (n % 12 + 1) - 1).toUInt64.toNat = n % 12 := by
    have hLt : n % 12 < 12 := Nat.mod_lt _ (by omega)
    rw [← hNext]
    generalize n % 12 = i at hLt
    interval_cases i <;> rfl
  have hTable : (monthDays (isLeap (n / 12 : Nat))).getD (n % 12) 30 =
      monthLength (n / 12) (n % 12 + 1) := by
    have hLt : n % 12 < (monthLengths (n / 12)).length := Nat.mod_lt _ (by omega)
    rw [monthDays_eq]
    unfold monthLength
    rw [Nat.add_sub_cancel, List.getD_eq_getElem?_getD, List.getD_eq_getElem?_getD,
      List.getElem?_eq_getElem hLt, Option.getD_some, Option.getD_some]
  unfold addMonths
  rw [hYmd, Option.bind_eq_bind, Option.bind_some]
  dsimp only
  rw [monthIndex_ofInt d hn, hQuotient, hRest, hNext, hPlace, toInt_ofNat (by omega),
    toInt_ofNat (by omega), hTable, toInt_min_ofNat (by omega) (by omega)]
  rfl

/-- **Months.** Within the range of the count the date is moved by the months, and a later
date is moved to no earlier one. -/
theorem addMonths_date (k : Int64) (s : Str) (d : Date) (hs : FirstWordIs s d)
    (hk : CountsMonths d k) :
    ∃ e, addMonths s k = some (ymdText e) ∧ Date.MonthsAfter k.toInt d e ∧
      ∀ t d', FirstWordIs t d' → CountsMonths d' k → d ≤ d' →
        ∃ e', addMonths t k = some (ymdText e') ∧ Date.MonthsAfter k.toInt d' e' ∧ e ≤ e' := by
  have hMoved : ∀ {s d}, FirstWordIs s d → CountsMonths d k →
      ∃ e, addMonths s k = some (ymdText e) ∧ Date.MonthsAfter k.toInt d e := by
    intro s d hs hk
    have hLow := hk.low
    have hHigh := hk.high
    obtain ⟨n, hn⟩ : ∃ n : Nat, (n : Int) = d.monthIndex + k.toInt := ⟨_, Int.toNat_of_nonneg hLow⟩
    refine ⟨_, addMonths_onMonth hs hn (by omega), ?_, rfl⟩
    rw [Date.monthIndex_onMonth, hn]
  obtain ⟨e, hText, hAfter⟩ := hMoved hs hk
  refine ⟨e, hText, hAfter, fun t d' ht hk' hLe => ?_⟩
  obtain ⟨e', hText', hAfter'⟩ := hMoved ht hk'
  exact ⟨e', hText', hAfter', hAfter.mono hAfter' hLe⟩

theorem firstWordIs_text {d : Date} (hYear : d.year < 2 ^ 63) : FirstWordIs (ymdText d) d := by
  have hMonth := d.month_valid.2
  have hDay : d.day ≤ 31 := d.day_valid.2.trans (monthLength_le _ _)
  exact ⟨_, _, _, parseYmd_eq_some.1 (parseYmd_text hYear), toInt_ofNat hYear,
    toInt_ofNat (by omega), toInt_ofNat (by omega)⟩

theorem addMonths_date_eve :
    ∃ e, addMonths (ymdText epochEve) 2 = some (ymdText e) ∧
      Date.MonthsAfter (2 : Int64).toInt epochEve e ∧
        ∀ t d', FirstWordIs t d' → CountsMonths d' 2 → epochEve ≤ d' →
          ∃ e', addMonths t 2 = some (ymdText e') ∧
            Date.MonthsAfter (2 : Int64).toInt d' e' ∧ e ≤ e' :=
  addMonths_date 2 (ymdText epochEve) epochEve (firstWordIs_text (by decide)) ⟨by decide, by decide⟩

example : addMonths "1969-12-31" 2 = some ("1970-02-28" : Str) := by decide +kernel

end RunAlexDb
