import Mathlib.Order.Hom.Basic
import RunAlexDb.Lib.CharBoundaries
import RunAlexDb.Model.Concrete
import RunAlexDb.Query.DayNumbers

/-!
# DayInverses — days to dates and back

The loops of `days_to_ymd` and `ymd_to_days` count the same days: as far as a machine
integer goes they are inverse to each other and keep the order. What is read from a
text is counted whether it is a date or not.

Main results: `days_orderIso` and `parseDateStr_iff`.
-/

namespace RunAlexDb

open Text Calendar

-- ---------------------------------------------------------------------------
-- Inverse loops
-- ---------------------------------------------------------------------------

/-- A number of days from the epoch on. -/
abbrev DayNumber : Type := { n : Int64 // 0 ≤ n }

/-- A date from the epoch on with a number of days that is a machine integer. -/
abbrev CountedDate : Type := { d : Date // 1970 ≤ d.year ∧ d.ordinal < epoch + 2 ^ 63 }

theorem epoch_le {d : Date} (h : 1970 ≤ d.year) : epoch ≤ d.ordinal := by
  rw [← beforeYear_epoch]
  exact (Date.beforeYear_le h).trans d.ordinal_range.1

/-- The year of a counted date is a machine integer. -/
theorem year_lt_of_ordinal {d : Date} (h : d.ordinal < epoch + 2 ^ 63) : d.year < 2 ^ 63 := by
  have hDays := beforeYear_eq d.year
  have hYear := d.ordinal_range.1
  have hEpoch : epoch = 719528 := rfl
  omega

namespace CountedDate

variable (d : CountedDate)

/-- The number of days of a date. -/
def number : Int64 :=
  ymdToDays (Int64.ofNat d.1.year) (Int64.ofNat d.1.month) (Int64.ofNat d.1.day)

theorem toInt_number : d.number.toInt = d.1.ordinal - epoch := by
  have hLow := epoch_le d.2.1
  have hHigh := d.2.2
  rw [number, ymdToDays_eq d.1 (year_lt_of_ordinal d.2.2)]
  exact Int64.toInt_ofInt_of_le (by omega) (by omega)

theorem number_nonneg : 0 ≤ d.number := by
  have hLow := epoch_le d.2.1
  rw [Int64.le_iff_toInt_le, d.toInt_number]
  show (0 : Int) ≤ _
  omega

def dayNumber : DayNumber := ⟨d.number, d.number_nonneg⟩

end CountedDate

/-- A day number as the unsigned integer that `days_to_ymd` takes. -/
def DayNumber.unsigned (n : DayNumber) : Nat := n.1.toUInt64.toNat

theorem DayNumber.toInt_eq (n : DayNumber) : n.1.toInt = n.unsigned ∧ n.unsigned < 2 ^ 63 := by
  have hNonneg : 0 ≤ n.1.toInt := Int64.le_iff_toInt_le.1 n.2
  have hHigh := n.1.toInt_lt
  have hNat : n.unsigned = n.1.toInt.toNat := Int64.toNat_toUInt64_of_le n.2
  omega

theorem dayNumber_le_iff (d e : CountedDate) : d.dayNumber ≤ e.dayNumber ↔ d ≤ e := by
  show d.number ≤ e.number ↔ d.1 ≤ e.1
  rw [Int64.le_iff_toInt_le, d.toInt_number, e.toInt_number, ← Date.ordinal_strictMono.le_iff_le]
  omega

theorem dayNumber_bijective : Function.Bijective CountedDate.dayNumber := by
  constructor
  · intro d e h
    exact le_antisymm ((dayNumber_le_iff d e).1 (h ▸ Int64.le_refl _))
      ((dayNumber_le_iff e d).1 (h ▸ Int64.le_refl _))
  · intro n
    obtain ⟨hInt, hHigh⟩ := n.toInt_eq
    obtain ⟨d, hOrdinal, hYear, -⟩ := daysToYmd_eq n.unsigned
    refine ⟨⟨d, hYear, by omega⟩, Subtype.ext (Int64.toInt_inj.1 ?_)⟩
    show (CountedDate.number _).toInt = n.1.toInt
    rw [CountedDate.toInt_number, hInt]
    show (d.ordinal : Int) - epoch = _
    omega

/-- **Days and dates.** As far as the number of days is a machine integer, the loops are
inverse to each other, and a later day is a later date. -/
theorem days_orderIso : ∃ f : DayNumber ≃o CountedDate,
    (∀ n, daysToYmd n.unsigned = ((f n).1.year, (f n).1.month, (f n).1.day)) ∧
      ∀ d, ymdToDays (Int64.ofNat d.1.year) (Int64.ofNat d.1.month) (Int64.ofNat d.1.day) =
        (f.symm d).1 := by
  let g : CountedDate ≃ DayNumber := Equiv.ofBijective _ dayNumber_bijective
  let e : CountedDate ≃o DayNumber := ⟨g, fun {d d'} => dayNumber_le_iff d d'⟩
  refine ⟨e.symm, fun n => ?_, fun d => rfl⟩
  obtain ⟨d, hOrdinal, -, hRun⟩ := daysToYmd_eq n.unsigned
  have hSame : (e.symm n).1 = d := by
    have hNumber : (e.symm n).dayNumber = n := e.apply_symm_apply n
    have hInt := (e.symm n).toInt_number
    rw [show (e.symm n).number = n.1 from congrArg Subtype.val hNumber, n.toInt_eq.1] at hInt
    have hLow := epoch_le (e.symm n).2.1
    exact Date.ordinal_inj (by omega)
  rw [hRun, hSame]

theorem farDate_month : (1 : Nat) ≤ 1 ∧ (1 : Nat) ≤ 12 := by decide

theorem farDate_day : 1 ≤ 1 ∧ 1 ≤ monthLength (10 ^ 17) 1 := by decide

/-- 1 January of a year whose days are no machine integer. -/
def farDate : Date := ⟨10 ^ 17, 1, 1, farDate_month, farDate_day⟩

theorem not_days_inverse : ¬∀ d : Date, 1970 ≤ d.year → d.year < 2 ^ 63 →
    daysToYmd (ymdToDays (Int64.ofNat d.year) (Int64.ofNat d.month)
      (Int64.ofNat d.day)).toUInt64.toNat = (d.year, d.month, d.day) := by
  intro hAll
  have hLaw := hAll farDate (by decide) (by decide)
  obtain ⟨d, hOrdinal, -, hRun⟩ := daysToYmd_eq (ymdToDays (Int64.ofNat farDate.year)
    (Int64.ofNat farDate.month) (Int64.ofNat farDate.day)).toUInt64.toNat
  rw [hRun] at hLaw
  have hYear : d.year = 10 ^ 17 := congrArg Prod.fst hLaw
  have hDays := beforeYear_eq d.year
  have hLow := d.ordinal_range.1
  have hHigh := UInt64.toNat_lt (ymdToDays (Int64.ofNat farDate.year) (Int64.ofNat farDate.month)
    (Int64.ofNat farDate.day)).toUInt64
  have hEpoch : epoch = 719528 := rfl
  omega

-- ---------------------------------------------------------------------------
-- Dates read from texts
-- ---------------------------------------------------------------------------

/-- The first word of a text is three numbers with hyphens between them. -/
def FirstWordReads (s : Str) (y m k : Int64) : Prop :=
  ∃ a b c : Str, (splitWhitespace s).head? = some (a ++ '-' :: (b ++ '-' :: c)) ∧
    '-' ∉ a ∧ '-' ∉ b ∧ parseI64 a = some y ∧ parseI64 b = some m ∧ parseI64 c = some k

/-- The first word of a text is the date: its year, month and day between hyphens. -/
def FirstWordIs (s : Str) (d : Date) : Prop :=
  ∃ y m k : Int64, FirstWordReads s y m k ∧
    y.toInt = d.year ∧ m.toInt = d.month ∧ k.toInt = d.day

/-- What is read as a number of days is that of a date, and the loop over its months
runs 11 times at most. -/
def ReadsDates (s : Str) : Prop :=
  ∀ n, parseDateStr s = some n → (∃ d, FirstWordIs s d ∧ n.toInt = (d.ordinal : Int) - epoch) ∧
    ∀ y m k, parseYmd s = some (y, m, k) → (m - 1).toUInt64.toNat ≤ 11

/-- Three numbers between the hyphens of the first word are a date, and its number of
days is a machine integer. -/
def NamesDates (s : Str) : Prop :=
  ∀ y m k, FirstWordReads s y m k →
    ∃ d : Date, y.toInt = d.year ∧ m.toInt = d.month ∧ k.toInt = d.day ∧ d.ordinal < epoch + 2 ^ 63

theorem splitn_eq_three {a b c s : Str} (h : splitn 3 '-' s = [a, b, c]) :
    s = a ++ '-' :: (b ++ '-' :: c) ∧ '-' ∉ a ∧ '-' ∉ b := by
  unfold splitn at h
  cases hFirst : splitOnce '-' s with
  | none =>
    rw [hFirst] at h
    cases h
  | some p =>
    rw [hFirst] at h
    obtain ⟨rfl, hRest⟩ := List.cons.inj h
    unfold splitn at hRest
    cases hSecond : splitOnce '-' p.2 with
    | none =>
      rw [hSecond] at hRest
      cases hRest
    | some q =>
      rw [hSecond] at hRest
      obtain ⟨rfl, hLast⟩ := List.cons.inj hRest
      obtain ⟨rfl, -⟩ := List.cons.inj hLast
      obtain ⟨rfl, ha⟩ := splitOnce_eq_some.1 hFirst
      obtain ⟨hb, hb'⟩ := splitOnce_eq_some.1 hSecond
      exact ⟨by rw [hb], ha, hb'⟩

/-- The first word and its parts. -/
theorem parseYmd_eq_some {s : Str} {y m k : Int64} :
    parseYmd s = some (y, m, k) ↔ FirstWordReads s y m k := by
  unfold parseYmd FirstWordReads
  rw [splitWhitespace_trim]
  constructor
  · intro h
    split at h
    · cases h
    · rename_i word rest hWords
      split at h
      · rename_i a b c hSplit
        obtain ⟨rfl, ha, hb⟩ := splitn_eq_three hSplit
        obtain ⟨y', hy, h⟩ := Option.bind_eq_some_iff.1 h
        obtain ⟨m', hm, h⟩ := Option.bind_eq_some_iff.1 h
        obtain ⟨k', hk, h⟩ := Option.bind_eq_some_iff.1 h
        cases h
        exact ⟨a, b, c, by rw [hWords]; rfl, ha, hb, hy, hm, hk⟩
      · cases h
  · rintro ⟨a, b, c, hHead, ha, hb, hy, hm, hk⟩
    obtain ⟨rest, hWords⟩ : ∃ rest, splitWhitespace s = (a ++ '-' :: (b ++ '-' :: c)) :: rest := by
      cases hs : splitWhitespace s with
      | nil =>
        rw [hs] at hHead
        cases hHead
      | cons w rest =>
        rw [hs] at hHead
        rw [Option.some.inj hHead]
        exact ⟨rest, rfl⟩
    rw [hWords]
    dsimp only
    rw [splitn_three ha hb]
    dsimp only
    rw [hy, hm, hk]
    rfl

theorem namesDates_of_reads {s : Str} (h : ReadsDates s) : NamesDates s := by
  intro y m k hReads
  have hYmd := parseYmd_eq_some.2 hReads
  have hDays : parseDateStr s = some (ymdToDays y m k) := by
    unfold parseDateStr
    rw [hYmd]
    rfl
  obtain ⟨⟨d, ⟨y', m', k', hWord, hYear, hMonth, hDay⟩, hNumber⟩, -⟩ := h _ hDays
  have hSame := parseYmd_eq_some.2 hWord
  rw [hYmd] at hSame
  cases hSame
  have hHigh := (ymdToDays y m k).toInt_lt
  exact ⟨d, hYear, hMonth, hDay, by omega⟩

theorem reads_of_namesDates {s : Str} (h : NamesDates s) : ReadsDates s := by
  intro n hDays
  obtain ⟨⟨y, m, k⟩, hYmd, hNumber⟩ := Option.bind_eq_some_iff.1 hDays
  obtain rfl : ymdToDays y m k = n := Option.some.inj hNumber
  have hReads := parseYmd_eq_some.1 hYmd
  obtain ⟨d, hYear, hMonth, hDay, hHigh⟩ := h y m k hReads
  have hYearLt := year_lt_of_ordinal hHigh
  have hMonthLt := d.month_valid
  have hDayLt : d.day ≤ 31 := d.day_valid.2.trans (monthLength_le _ _)
  have hEpoch : epoch = 719528 := rfl
  refine ⟨⟨d, ⟨y, m, k, hReads, hYear, hMonth, hDay⟩, ?_⟩, ?_⟩
  · rw [eq_ofNat hYear hYearLt, eq_ofNat hMonth (by omega), eq_ofNat hDay (by omega), ymdToDays_eq d hYearLt]
    exact Int64.toInt_ofInt_of_le (by omega) (by omega)
  · intro y' m' k' hYmd'
    rw [hYmd] at hYmd'
    cases hYmd'
    rw [eq_ofNat hMonth (by omega)]
    generalize d.month = i at hMonthLt
    obtain ⟨hMonthLow, hMonthHigh⟩ := hMonthLt
    interval_cases i <;> decide

/-- **Dates read.** Only dates are read as days exactly when the first word, if it is three
numbers between hyphens, is a date. -/
theorem parseDateStr_iff (s : Str) : ReadsDates s ↔ NamesDates s :=
  ⟨namesDates_of_reads, reads_of_namesDates⟩

/-- The fourteenth month is read. -/
theorem not_readsDates : ¬∀ s, ReadsDates s := by
  intro hAll
  have hYmd : parseYmd "2024-14-01" = some (2024, 14, 1) := by decide +kernel
  obtain ⟨d, -, hMonth, -⟩ := namesDates_of_reads (hAll "2024-14-01") 2024 14 1 (parseYmd_eq_some.1 hYmd)
  have hTwelve := d.month_valid.2
  have hFourteen : (14 : Int64).toInt = 14 := rfl
  omega

end RunAlexDb
