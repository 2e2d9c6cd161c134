import Mathlib.Algebra.BigOperators.Group.List.Basic
import Mathlib.Data.Nat.Basic
import Mathlib.Data.Prod.Lex
import Mathlib.Order.Monotone.Basic
import Mathlib.Tactic.IntervalCases

/-!
# Calendar — the Gregorian calendar, day by day

A date is a year, a month and a day of that month. Dates follow one another
through `Date.next`, and `Date.ordinal` counts the days before a date since the
first day of year 0: the next date has the next ordinal, each ordinal belongs to
one date, and each number is an ordinal. Months after a date keep its day, or end
at the last day of a shorter month.

Main results: `ordinal_next`, `ordinal_inj`, `exists_ordinal`, `beforeYear_eq`,
`daysAfter_iff` and `MonthsAfter.mono`.
-/

namespace Calendar

-- ---------------------------------------------------------------------------
-- Years and months
-- ---------------------------------------------------------------------------

/-- The leap years. -/
def IsLeap (y : Nat) : Prop := (y % 4 = 0 ∧ y % 100 ≠ 0) ∨ y % 400 = 0

instance (y : Nat) : Decidable (IsLeap y) := inferInstanceAs (Decidable (_ ∨ _))

def yearLength (y : Nat) : Nat := if IsLeap y then 366 else 365

/-- Days before a year, from year 0 on. -/
def beforeYear : Nat → Nat
  | 0 => 0
  | y + 1 => beforeYear y + yearLength y

def monthLengths (y : Nat) : List Nat :=
  [31, if IsLeap y then 29 else 28, 31, 30, 31, 30, 31, 31, 30, 31, 30, 31]

/-- The length of month `m`, counted from 1. -/
def monthLength (y m : Nat) : Nat := (monthLengths y).getD (m - 1) 0

/-- Days before a month in its year. -/
def beforeMonth (y m : Nat) : Nat := ((monthLengths y).take (m - 1)).sum

theorem yearLength_cases (y : Nat) :
    (IsLeap y ∧ yearLength y = 366) ∨ (¬IsLeap y ∧ yearLength y = 365) := by
  by_cases hLeap : IsLeap y
  · exact .inl ⟨hLeap, if_pos hLeap⟩
  · exact .inr ⟨hLeap, if_neg hLeap⟩

theorem le_yearLength (y : Nat) : 365 ≤ yearLength y := by
  rcases yearLength_cases y with ⟨-, h⟩ | ⟨-, h⟩ <;> omega

theorem beforeYear_succ (y : Nat) : beforeYear (y + 1) = beforeYear y + yearLength y := rfl

/-- The days of the leap rule. -/
theorem beforeYear_eq (y : Nat) :
    beforeYear y + (y + 99) / 100 = 365 * y + (y + 3) / 4 + (y + 399) / 400 := by
  induction y with
  | zero => rfl
  | succ y ih =>
    have hLength := yearLength_cases y
    unfold IsLeap at hLength
    rw [beforeYear_succ]
    omega

theorem sum_monthLengths (y : Nat) : (monthLengths y).sum = yearLength y := by
  unfold monthLengths yearLength
  split_ifs <;> rfl

theorem sum_take_succ (l : List Nat) (i : Nat) :
    (l.take (i + 1)).sum = (l.take i).sum + l.getD i 0 := by
  induction l generalizing i with
  | nil => simp
  | cons a l ih =>
    cases i with
    | zero => simp
    | succ i =>
      rw [List.take_succ_cons, List.take_succ_cons, List.sum_cons, List.sum_cons, ih]
      exact (Nat.add_assoc ..).symm

theorem beforeMonth_succ {y m : Nat} (h : 1 ≤ m) :
    beforeMonth y (m + 1) = beforeMonth y m + monthLength y m := by
  obtain ⟨i, rfl⟩ : ∃ i, m = i + 1 := ⟨m - 1, by omega⟩
  exact sum_take_succ (monthLengths y) i

theorem beforeMonth_thirteen (y : Nat) : beforeMonth y 13 = yearLength y := by
  rw [← sum_monthLengths]
  rfl

theorem monthLength_pos (y : Nat) {m : Nat} (h : 1 ≤ m ∧ m ≤ 12) : 1 ≤ monthLength y m := by
  obtain ⟨hLow, hHigh⟩ := h
  unfold monthLength monthLengths
  by_cases hLeap : IsLeap y
  · rw [if_pos hLeap]
    interval_cases m <;> decide
  · rw [if_neg hLeap]
    interval_cases m <;> decide

theorem monthLength_le (y m : Nat) : monthLength y m ≤ 31 := by
  have hAll : ∀ n ∈ monthLengths y, n ≤ 31 := by
    unfold monthLengths
    split_ifs <;> simp
  unfold monthLength
  rcases Nat.lt_or_ge (m - 1) (monthLengths y).length with hLt | hGe
  · rw [List.getD_eq_getElem?_getD, List.getElem?_eq_getElem hLt]
    exact hAll _ (List.getElem_mem hLt)
  · rw [List.getD_eq_getElem?_getD, List.getElem?_eq_none hGe]
    exact Nat.zero_le 31

-- ---------------------------------------------------------------------------
-- Blocks
-- ---------------------------------------------------------------------------

section Blocks

variable {b l : Nat → Nat} (hStep : ∀ i, b (i + 1) = b i + l i)

include hStep

theorem before_le {i j : Nat} (h : i ≤ j) : b i ≤ b j := by
  induction j, h using Nat.le_induction with
  | base => exact Nat.le_refl _
  | succ j _ ih =>
    rw [hStep]
    omega

/-- A place stands in one block only. -/
theorem block_unique {i j r s : Nat} (hr : r < l i) (hs : s < l j)
    (h : b i + r = b j + s) : i = j ∧ r = s := by
  have hOrder : ∀ {i j r s : Nat}, r < l i → b i + r = b j + s → ¬i < j := by
    intro i j r s hr h hLt
    have hNext := before_le hStep (Nat.succ_le_of_lt hLt)
    rw [Nat.succ_eq_add_one, hStep] at hNext
    omega
  have hSame : i = j := Nat.le_antisymm (Nat.not_lt.1 (hOrder hs h.symm)) (Nat.not_lt.1 (hOrder hr h))
  subst hSame
  exact ⟨rfl, by omega⟩

end Blocks

-- ---------------------------------------------------------------------------
-- Dates
-- ---------------------------------------------------------------------------

@[ext] structure Date where
  year : Nat
  month : Nat
  day : Nat
  month_valid : 1 ≤ month ∧ month ≤ 12
  day_valid : 1 ≤ day ∧ day ≤ monthLength year month

namespace Date

/-- Days before a date, from the first day of year 0 on. -/
def ordinal (d : Date) : Nat := beforeYear d.year + (beforeMonth d.year d.month + (d.day - 1))

/-- The day after. -/
def next (d : Date) : Date :=
  if hDay : d.day < monthLength d.year d.month then
    ⟨d.year, d.month, d.day + 1, d.month_valid, by omega⟩
  else if hMonth : d.month < 12 then
    ⟨d.year, d.month + 1, 1, by omega, Nat.le_refl 1, monthLength_pos _ (by omega)⟩
  else ⟨d.year + 1, 1, 1, by omega, Nat.le_refl 1, monthLength_pos _ (by omega)⟩

theorem ordinal_next (d : Date) : d.next.ordinal = d.ordinal + 1 := by
  obtain ⟨hLow, hHigh⟩ := d.day_valid
  have hAfter := @beforeMonth_succ d.year d.month d.month_valid.1
  unfold next
  split_ifs with hDay hMonth
  · unfold ordinal
    dsimp only
    omega
  · unfold ordinal
    dsimp only
    omega
  · have hLast : d.month = 12 := by
      have hRange := d.month_valid.2
      omega
    have hYear := beforeMonth_thirteen d.year
    have hEnd : beforeMonth d.year 13 = beforeMonth d.year 12 + monthLength d.year 12 :=
      beforeMonth_succ (by omega)
    unfold ordinal
    dsimp only
    rw [hLast] at hDay hHigh ⊢
    rw [beforeYear_succ]
    show beforeYear d.year + yearLength d.year + 0 = _
    omega

/-- A day stands inside its year. -/
theorem lt_yearLength (d : Date) : beforeMonth d.year d.month + (d.day - 1) < yearLength d.year := by
  have hAfter := @beforeMonth_succ d.year d.month d.month_valid.1
  have hSteps : ∀ i, ((monthLengths d.year).take (i + 1)).sum =
      ((monthLengths d.year).take i).sum + (monthLengths d.year).getD i 0 := sum_take_succ _
  have hYear : beforeMonth d.year (d.month + 1) ≤ beforeMonth d.year 13 :=
    before_le (b := fun i => ((monthLengths d.year).take i).sum) hSteps
      (show d.month + 1 - 1 ≤ 13 - 1 from Nat.sub_le_sub_right (Nat.succ_le_succ d.month_valid.2) 1)
  rw [beforeMonth_thirteen] at hYear
  have hRange := d.day_valid
  omega

/-- The ordinals of a year. -/
theorem ordinal_range (d : Date) : beforeYear d.year ≤ d.ordinal ∧ d.ordinal < beforeYear (d.year + 1) :=
  ⟨Nat.le_add_right .., Nat.add_lt_add_left d.lt_yearLength _⟩

theorem beforeYear_le {y z : Nat} (h : y ≤ z) : beforeYear y ≤ beforeYear z :=
  before_le (fun _ => rfl) h

/-- An earlier year ends before. -/
theorem ordinal_lt_iff {d : Date} {y : Nat} : d.ordinal < beforeYear y ↔ d.year < y := by
  obtain ⟨hLow, hHigh⟩ := d.ordinal_range
  constructor
  · intro h
    by_contra hGe
    have hLe := beforeYear_le (Nat.not_lt.1 hGe)
    omega
  · intro h
    exact Nat.lt_of_lt_of_le hHigh (beforeYear_le h)

/-- Each ordinal belongs to one date. -/
theorem ordinal_inj {d e : Date} (h : d.ordinal = e.ordinal) : d = e := by
  obtain ⟨hYear, hRest⟩ := block_unique (fun _ => rfl) d.lt_yearLength e.lt_yearLength h
  have hd := d.day_valid
  have he := e.day_valid
  rw [← hYear] at hRest he
  obtain ⟨hMonth, hDay⟩ := block_unique (b := fun i => ((monthLengths d.year).take i).sum)
    (l := fun i => (monthLengths d.year).getD i 0) (sum_take_succ _)
    (show d.day - 1 < monthLength d.year d.month by omega)
    (show e.day - 1 < monthLength d.year e.month by omega) hRest
  have hdMonth := d.month_valid
  have heMonth := e.month_valid
  exact Date.ext hYear (by omega) (by omega)

/-- Dates in the order of years, months and days. -/
instance : LinearOrder Date :=
  LinearOrder.lift' (fun d => toLex (d.year, toLex (d.month, d.day))) fun d e h => by
    obtain ⟨hYear, hRest⟩ := Prod.mk.inj (toLex.injective h)
    obtain ⟨hMonth, hDay⟩ := Prod.mk.inj (toLex.injective hRest)
    exact Date.ext hYear hMonth hDay

theorem lt_iff {d e : Date} : d < e ↔
    d.year < e.year ∨ d.year = e.year ∧ (d.month < e.month ∨ d.month = e.month ∧ d.day < e.day) := by
  show toLex (d.year, toLex (d.month, d.day)) < toLex (e.year, toLex (e.month, e.day)) ↔ _
  rw [Prod.Lex.toLex_lt_toLex, Prod.Lex.toLex_lt_toLex]

/-- A later date has a greater ordinal. -/
theorem ordinal_strictMono : StrictMono ordinal := by
  intro d e h
  have hdDay := d.day_valid
  have heDay := e.day_valid
  rcases lt_iff.1 h with hYear | ⟨hYear, hMonth | ⟨hMonth, hDay⟩⟩
  · exact Nat.lt_of_lt_of_le (ordinal_lt_iff.2 hYear) e.ordinal_range.1
  · have hAfter := @beforeMonth_succ d.year d.month d.month_valid.1
    have hSteps : ∀ i, ((monthLengths d.year).take (i + 1)).sum =
        ((monthLengths d.year).take i).sum + (monthLengths d.year).getD i 0 := sum_take_succ _
    have hMonths : beforeMonth d.year (d.month + 1) ≤ beforeMonth d.year e.month :=
      before_le (b := fun i => ((monthLengths d.year).take i).sum) hSteps
        (show d.month + 1 - 1 ≤ e.month - 1 by omega)
    unfold ordinal
    rw [← hYear]
    omega
  · unfold ordinal
    rw [hYear, hMonth]
    omega

/-- The first day. -/
def first : Date := ⟨0, 1, 1, by omega, by decide⟩

/-- Each number is an ordinal. -/
theorem exists_ordinal (n : Nat) : ∃ d : Date, d.ordinal = n := by
  induction n with
  | zero => exact ⟨first, rfl⟩
  | succ n ih =>
    obtain ⟨d, rfl⟩ := ih
    exact ⟨d.next, d.ordinal_next⟩

-- ---------------------------------------------------------------------------
-- Days after a date
-- ---------------------------------------------------------------------------

/-- `e` is `k` days after `d`. -/
def DaysAfter (k : Int) (d e : Date) : Prop :=
  if 0 ≤ k then next^[k.toNat] d = e else next^[(-k).toNat] e = d

theorem ordinal_iterate (n : Nat) (d : Date) : (next^[n] d).ordinal = d.ordinal + n := by
  induction n with
  | zero => rfl
  | succ n ih =>
    rw [Function.iterate_succ_apply', ordinal_next, ih]
    rfl

theorem daysAfter_iff {k : Int} {d e : Date} :
    DaysAfter k d e ↔ (e.ordinal : Int) = d.ordinal + k := by
  have hForward : ∀ {n : Nat} {d e : Date}, next^[n] d = e ↔ e.ordinal = d.ordinal + n := by
    intro n d e
    constructor
    · rintro rfl
      exact ordinal_iterate n d
    · intro h
      exact ordinal_inj ((ordinal_iterate n d).trans h.symm)
  unfold DaysAfter
  split_ifs with hk
  · rw [hForward]
    omega
  · rw [hForward]
    omega

-- ---------------------------------------------------------------------------
-- Months after a date
-- ---------------------------------------------------------------------------

/-- The month of a date, counted from the first one of year 0. -/
def monthIndex (d : Date) : Nat := 12 * d.year + (d.month - 1)

/-- `e` is `k` months after `d`: the same day, or the last day of a month that is too
short for it. -/
structure MonthsAfter (k : Int) (d e : Date) : Prop where
  month : (e.monthIndex : Int) = d.monthIndex + k
  day : e.day = min d.day (monthLength e.year e.month)

theorem monthIndex_inj {d e : Date} (h : d.monthIndex = e.monthIndex) :
    d.year = e.year ∧ d.month = e.month := by
  have hd := d.month_valid
  have he := e.month_valid
  unfold monthIndex at h
  omega

/-- The order of dates by months and days. -/
theorem le_iff_monthIndex {d e : Date} :
    d ≤ e ↔ d.monthIndex < e.monthIndex ∨ d.monthIndex = e.monthIndex ∧ d.day ≤ e.day := by
  have hd := d.month_valid
  have he := e.month_valid
  rw [← not_lt, lt_iff]
  unfold monthIndex
  omega

/-- The date with a given month, on the given day or the last one of the month. -/
def onMonth (index day : Nat) (h : 1 ≤ day) : Date where
  year := index / 12
  month := index % 12 + 1
  day := min day (monthLength (index / 12) (index % 12 + 1))
  month_valid := by omega
  day_valid := ⟨Nat.le_min.2 ⟨h, monthLength_pos _ (by omega)⟩, Nat.min_le_right ..⟩

theorem monthIndex_onMonth (index day : Nat) (h : 1 ≤ day) :
    (onMonth index day h).monthIndex = index := by
  unfold monthIndex onMonth
  dsimp only
  omega

/-- Months after a later date lead to a later date: where both arrive in one month, the
day of the later one is cut no shorter. -/
theorem MonthsAfter.mono {k : Int} {d d' e e' : Date} (h : MonthsAfter k d e)
    (h' : MonthsAfter k d' e') (hLe : d ≤ d') : e ≤ e' := by
  have hMonth := h.month
  have hMonth' := h'.month
  rcases le_iff_monthIndex.1 hLe with hBefore | ⟨hSame, hDay⟩
  · exact le_iff_monthIndex.2 (.inl (by omega))
  · have hIndex : e.monthIndex = e'.monthIndex := by omega
    obtain ⟨hYear, hMonths⟩ := monthIndex_inj hIndex
    refine le_iff_monthIndex.2 (.inr ⟨hIndex, ?_⟩)
    rw [h.day, h'.day, hYear, hMonths]
    exact min_le_min_right _ hDay

-- ---------------------------------------------------------------------------
-- Days of the year and of the week
-- ---------------------------------------------------------------------------

/-- The place of a date in its year, from 1 on. -/
def dayOfYear (d : Date) : Nat := beforeMonth d.year d.month + d.day

/-- The first day of the year of a date. -/
def newYear (d : Date) : Date := ⟨d.year, 1, 1, by omega, Nat.le_refl 1, monthLength_pos _ (by omega)⟩

theorem ordinal_newYear (d : Date) : d.ordinal + 1 = d.newYear.ordinal + d.dayOfYear := by
  have hDay := d.day_valid.1
  have hFirst : d.newYear.ordinal = beforeYear d.year := rfl
  rw [hFirst]
  unfold ordinal dayOfYear
  omega

/-- Numbers below 7 for the days of the week, one more from each day to the next. -/
structure IsWeekday (w : Date → Nat) : Prop where
  lt (d : Date) : w d < 7
  next (d : Date) : w d.next = (w d + 1) % 7

/-- The number of a day goes with its ordinal. -/
theorem IsWeekday.eq {w : Date → Nat} (h : IsWeekday w) {d e : Date} {n : Nat}
    (hOrdinal : e.ordinal = d.ordinal + n) : w e = (w d + n) % 7 := by
  induction n generalizing e with
  | zero =>
    have hLt := h.lt d
    rw [ordinal_inj hOrdinal]
    omega
  | succ n ih =>
    obtain ⟨f, hf⟩ := exists_ordinal (d.ordinal + n)
    obtain rfl : f.next = e := ordinal_inj (by rw [ordinal_next]; omega)
    rw [h.next, ih hf]
    omega

theorem isWeekday_ordinal (n : Nat) : IsWeekday fun d => (d.ordinal + n) % 7 where
  lt d := Nat.mod_lt _ (by omega)
  next d := by
    rw [ordinal_next]
    omega

end Date

end Calendar
