import RunAlexDb.Query.DateFormats
import RunAlexDb.Query.DayInverses

/-!
# DayNames — the day of the year and the day of the week

`%j` adds the day to the lengths of the months before, which it takes from the table
of a common year; `%W` and `%a` take the name of the day number modulo 7. The names
are those of the days of the week, and the day of the year is right outside of
March to December of a leap year.

Main result: `printsDay_iff`.
-/

namespace RunAlexDb

open Text Calendar

-- ---------------------------------------------------------------------------
-- Texts that start with a date
-- ---------------------------------------------------------------------------

/-- The text up to its first blank is the date: its year, month and day between hyphens. -/
def StartsWithDate (s : Str) (d : Date) : Prop :=
  ∃ a b c : Str, ∃ y m k : Int64,
    (splitn 2 ' ' (trim s)).head? = some (a ++ '-' :: (b ++ '-' :: c)) ∧ '-' ∉ a ∧ '-' ∉ b ∧
      (parseI64 a = some y ∧ parseI64 b = some m ∧ parseI64 c = some k) ∧
        y.toInt = d.year ∧ m.toInt = d.month ∧ k.toInt = d.day

theorem noSpace_of_parseNat {s : Str} {n : Nat} (h : parseNat s = some n) {c : Char} (hc : c ∈ s) :
    isWhitespace c = false := by
  unfold parseNat at h
  split_ifs at h with hDigits
  exact digit_noSpace (List.all_eq_true.1 hDigits.2 c hc)

/-- A number has no blanks in it. -/
theorem noSpace_of_parseI64 {s : Str} {n : Int64} (h : parseI64 s = some n) {c : Char} (hc : c ∈ s) :
    isWhitespace c = false := by
  unfold parseI64 at h
  obtain ⟨i, hi, -⟩ := Option.bind_eq_some_iff.1 h
  have hDigits : ∀ {r : Str}, parseNat r ≠ none → c ∈ r → isWhitespace c = false := by
    intro r hr hcr
    obtain ⟨n, hn⟩ := Option.ne_none_iff_exists'.1 hr
    exact noSpace_of_parseNat hn hcr
  split at hi
  · rcases List.mem_cons.1 hc with rfl | hr
    · rfl
    · exact hDigits (fun hNone => by rw [hNone] at hi; cases hi) hr
  · rcases List.mem_cons.1 hc with rfl | hr
    · rfl
    · exact hDigits (fun hNone => by rw [hNone] at hi; cases hi) hr
  · exact hDigits (fun hNone => by rw [hNone] at hi; cases hi) hc

/-- The parts of the date, and its day number. -/
theorem StartsWithDate.parts {s : Str} {d : Date} (h : StartsWithDate s d) (hYear : d.year ≤ 9999) :
    (splitn 3 '-' ((splitn 2 ' ' (trim s)).getD 0 [])).filterMap parseI64 =
        [Int64.ofNat d.year, Int64.ofNat d.month, Int64.ofNat d.day] ∧
      parseDateStr ((splitn 2 ' ' (trim s)).getD 0 []) = some (Int64.ofInt (d.ordinal - epoch)) := by
  obtain ⟨a, b, c, y, m, k, hHead, ha, hb, ⟨hy, hm, hk⟩, hYears, hMonths, hDays⟩ := h
  have hMonth := d.month_valid.2
  have hDay : d.day ≤ 31 := d.day_valid.2.trans (monthLength_le _ _)
  obtain rfl := eq_ofNat hYears (by omega)
  obtain rfl := eq_ofNat hMonths (by omega)
  obtain rfl := eq_ofNat hDays (by omega)
  have hDate : (splitn 2 ' ' (trim s)).getD 0 [] = a ++ '-' :: (b ++ '-' :: c) := by
    rw [List.getD_eq_getElem?_getD, ← List.head?_eq_getElem?, hHead, Option.getD_some]
  rw [hDate]
  constructor
  · rw [splitn_three ha hb]
    simp only [List.filterMap_cons, List.filterMap_nil, hy, hm, hk]
  · have hNoSpace : ∀ x ∈ a ++ '-' :: (b ++ '-' :: c), isWhitespace x = false := by
      intro x hx
      rw [List.mem_append, List.mem_cons, List.mem_append, List.mem_cons] at hx
      rcases hx with hx | rfl | hx | rfl | hx
      · exact noSpace_of_parseI64 hy hx
      · rfl
      · exact noSpace_of_parseI64 hm hx
      · rfl
      · exact noSpace_of_parseI64 hk hx
    have hWords := splitWhitespace_word
      (List.append_ne_nil_of_right_ne_nil a (List.cons_ne_nil '-' (b ++ '-' :: c))) hNoSpace
    refine parseDateStr_of_parseYmd (by omega) (parseYmd_eq_some.2 ⟨a, b, c, ?_, ha, hb, hy, hm, hk⟩)
    rw [hWords]
    rfl

theorem startsWithDate_text {d : Date} (hYear : d.year < 2 ^ 63) : StartsWithDate (ymdText d) d := by
  have hMonth := d.month_valid.2
  have hDay : d.day ≤ 31 := d.day_valid.2.trans (monthLength_le _ _)
  have hBlank : ' ' ∉ ymdText d := fun hIn => absurd (ymdText_noSpace hIn) (by decide)
  refine ⟨padZero 4 d.year, padZero 2 d.month, padZero 2 d.day, _, _, _, ?_,
    hyphen_notMem_padZero _ _, hyphen_notMem_padZero _ _,
    ⟨parseI64_padZero 4 hYear, parseI64_padZero 2 (by omega), parseI64_padZero 2 (by omega)⟩,
    toInt_ofNat hYear, toInt_ofNat (by omega), toInt_ofNat (by omega)⟩
  rw [trim_of_noSpace fun c => ymdText_noSpace, splitn, splitOnce_eq_none hBlank, ymdText_eq]
  rfl

-- ---------------------------------------------------------------------------
-- The day of the year
-- ---------------------------------------------------------------------------

/-- Days before a month in a common year. -/
def commonBefore (m : Nat) : Nat := ((monthDays false).take (m - 1)).sum

/-- The months before a month are a day longer from March of a leap year on. -/
theorem beforeMonth_common (y : Nat) {m : Nat} (h : 1 ≤ m ∧ m ≤ 12) :
    beforeMonth y m = commonBefore m + if IsLeap y ∧ 3 ≤ m then 1 else 0 := by
  obtain ⟨hLow, hHigh⟩ := h
  unfold beforeMonth commonBefore monthLengths
  by_cases hLeap : IsLeap y
  · simp only [hLeap, if_true, true_and]
    interval_cases m <;> decide
  · simp only [hLeap, if_false, false_and]
    interval_cases m <;> decide

/-- A loop of additions to a sum in machine integers. -/
theorem foldl_ofNat (l : List Nat) (a : Nat) :
    l.foldl (fun s n => s + Int64.ofNat n) (Int64.ofNat a) = Int64.ofNat (a + l.sum) := by
  induction l generalizing a with
  | nil => rfl
  | cons n l ih => rw [List.foldl_cons, ← Int64.ofNat_add, ih, List.sum_cons, Nat.add_assoc]

/-- What `%j` prints is the day in the table of a common year. -/
theorem printed_dayOfYear (d : Date) :
    (((monthDays false).take ((Int64.ofNat d.month).toInt - 1).toNat).foldl
      (fun s n => s + Int64.ofNat n) 0 + Int64.ofNat d.day).toInt =
        (commonBefore d.month + d.day : Nat) := by
  have hMonth := d.month_valid
  have hDay : d.day ≤ 31 := d.day_valid.2.trans (monthLength_le _ _)
  have hSum := beforeMonth_common d.year hMonth
  have hLt := d.lt_yearLength
  have hYear := yearLength_cases d.year
  have hPlace : ((Int64.ofNat d.month).toInt - 1).toNat = d.month - 1 := by
    rw [toInt_ofNat (by omega)]
    omega
  have hFold : ((monthDays false).take (d.month - 1)).foldl (fun s n => s + Int64.ofNat n) 0 =
      Int64.ofNat (commonBefore d.month) := by
    rw [show (0 : Int64) = Int64.ofNat 0 from rfl, foldl_ofNat, Nat.zero_add]
    rfl
  rw [hPlace, hFold, ← Int64.ofNat_add, toInt_ofNat (by omega)]

/-- The day count of the day numbers is the day of the year. -/
theorem dayNumber_newYear (d : Date) (hYear : d.year ≤ 9999) :
    (ymdToDays (Int64.ofNat d.year) (Int64.ofNat d.month) (Int64.ofNat d.day) -
      ymdToDays (Int64.ofNat d.year) 1 1 + 1).toInt = (d.dayOfYear : Nat) := by
  have hFirst : ymdToDays (Int64.ofNat d.year) 1 1 = Int64.ofInt (d.newYear.ordinal - epoch) :=
    ymdToDays_eq d.newYear (show d.year < 2 ^ 63 by omega)
  have hOrdinal := d.ordinal_newYear
  have hRange := d.lt_yearLength
  have hDay := d.day_valid.1
  have hLength := yearLength_cases d.year
  have hSum : Int64.ofInt (d.ordinal - epoch) - Int64.ofInt (d.newYear.ordinal - epoch) + 1 =
      Int64.ofNat d.dayOfYear := by
    rw [← Int64.ofInt_sub, ← Int64.ofInt_eq_ofNat]
    show Int64.ofInt _ + Int64.ofInt 1 = _
    rw [← Int64.ofInt_add]
    exact congrArg Int64.ofInt (by omega)
  have hSmall : d.dayOfYear < 2 ^ 63 := by
    unfold Date.dayOfYear
    omega
  rw [ymdToDays_eq d (by omega), hFirst, hSum, toInt_ofNat hSmall]

-- ---------------------------------------------------------------------------
-- The day of the week
-- ---------------------------------------------------------------------------

theorem tmod_seven (a : Int) : (a.tmod 7 - a) % 7 = 0 ∧ -7 < a.tmod 7 ∧ a.tmod 7 < 7 := by
  rw [Int.tmod_eq_emod]
  split_ifs <;> omega

/-- The remainder that names the day, from the day number. -/
theorem dayOfWeek_eq {d : Date} (hYear : d.year ≤ 9999) :
    ((Int64.ofInt (d.ordinal - epoch) % 7 + 4) % 7 + 7).toNatClampNeg % 7 = (d.ordinal + 6) % 7 := by
  have hNumber := toInt_dayNumber hYear
  have hRest : (Int64.ofInt (d.ordinal - epoch) % 7).toInt =
      ((d.ordinal : Int) - epoch).tmod 7 := by
    rw [Int64.toInt_mod, hNumber]
    rfl
  have hEpoch : epoch = 719528 := rfl
  have hInner := tmod_seven ((d.ordinal : Int) - epoch)
  have hOuter := tmod_seven (((d.ordinal : Int) - epoch).tmod 7 + 4)
  have hFour : (Int64.ofInt (d.ordinal - epoch) % 7 + 4).toInt =
      ((d.ordinal : Int) - epoch).tmod 7 + 4 := by
    rw [Int64.toInt_add, hRest]
    show Int.bmod (_ + 4) (2 ^ 64) = _
    exact Int.bmod_eq_of_le (by omega) (by omega)
  have hSeven : ((Int64.ofInt (d.ordinal - epoch) % 7 + 4) % 7 + 7).toInt =
      (((d.ordinal : Int) - epoch).tmod 7 + 4).tmod 7 + 7 := by
    rw [Int64.toInt_add, Int64.toInt_mod, hFour]
    show Int.bmod (Int.tmod _ 7 + 7) (2 ^ 64) = _
    exact Int.bmod_eq_of_le (by omega) (by omega)
  unfold Int64.toNatClampNeg
  rw [hSeven]
  omega

/-- With Thursday for the epoch the number of a day of the week is its remainder. -/
theorem weekday_eq {w : Date → Nat} (hw : Date.IsWeekday w)
    (hThursday : weekdayNames.getD (w epochDate) [] = "Thursday") (d : Date) :
    w d = (d.ordinal + 6) % 7 := by
  have hFour : w epochDate = 4 := by
    have hLt := hw.lt epochDate
    generalize w epochDate = n at hLt hThursday
    interval_cases n
    all_goals first
      | rfl
      | exact absurd hThursday (by decide)
  have hEpoch : epochDate.ordinal = epoch := by
    unfold Date.ordinal epochDate
    dsimp only
    rw [beforeYear_epoch]
    rfl
  have hNumber : epoch = 719528 := rfl
  have hZero : Date.first.ordinal = 0 := rfl
  have hFirst := hw.eq (d := Date.first) (e := epochDate) (n := epoch) (by omega)
  have hDay := hw.eq (d := Date.first) (e := d) (n := d.ordinal) (by omega)
  have hLt := hw.lt Date.first
  omega

-- ---------------------------------------------------------------------------
-- Results
-- ---------------------------------------------------------------------------

/-- Wherever they stand in a format, `%j` prints the day count from the first day of the
year, and `%W` and `%a` the name of the day of the week. -/
structure PrintsDay (w : Date → Nat) (s : Str) (d : Date) : Prop where
  dayOfYear (fmt : Str) : mysqlDateFormat s ('%' :: 'j' :: fmt) = (mysqlDateFormat s fmt).map
    (padZeroInt 3 (ymdToDays (Int64.ofNat d.year) (Int64.ofNat d.month) (Int64.ofNat d.day) -
      ymdToDays (Int64.ofNat d.year) 1 1 + 1).toInt ++ ·)
  weekday (fmt : Str) : mysqlDateFormat s ('%' :: 'W' :: fmt) =
    (mysqlDateFormat s fmt).map (weekdayNames.getD (w d) [] ++ ·)
  shortWeekday (fmt : Str) : mysqlDateFormat s ('%' :: 'a' :: fmt) =
    (mysqlDateFormat s fmt).map ((weekdayNames.getD (w d) []).take 3 ++ ·)

/-- What the codes of a date print. -/
theorem format_days {s : Str} {d : Date} (hs : StartsWithDate s d) (hYear : d.year ≤ 9999) :
    ∃ code : Char → Rust Str, (∀ fmt, mysqlDateFormat s fmt = mysqlDateFormat.go code fmt) ∧
      code 'j' = .ok (padZero 3 (commonBefore d.month + d.day)) ∧
        code 'W' = .ok (weekdayNames.getD ((d.ordinal + 6) % 7) []) ∧
          code 'a' = .ok ((weekdayNames.getD ((d.ordinal + 6) % 7) []).take 3) := by
  obtain ⟨hParts, hNumber⟩ := hs.parts hYear
  have hMonth := d.month_valid
  have hInside : ¬(13 : Int64) < Int64.ofNat d.month := by
    rw [Int64.lt_iff_toInt_lt, toInt_ofNat (by omega)]
    show ¬(13 : Int) < d.month
    omega
  have hDay := printed_dayOfYear d
  have hName := dayOfWeek_eq hYear
  unfold mysqlDateFormat
  dsimp only
  rw [hParts, hNumber]
  refine ⟨_, fun fmt => rfl, ?_, ?_, ?_⟩
  · show (if 13 < Int64.ofNat d.month then _ else _) = _
    rw [if_neg hInside]
    refine congrArg Except.ok ?_
    rw [← padZeroInt_nat, ← hDay]
    rfl
  · refine congrArg Except.ok ?_
    rw [← hName]
    rfl
  · refine congrArg Except.ok ?_
    rw [← hName]
    rfl

/-- The day and the names are right exactly outside of March to December of a leap year. -/
theorem printsDay_iff (w : Date → Nat) (hw : Date.IsWeekday w)
    (hThursday : weekdayNames.getD (w epochDate) [] = "Thursday") (s : Str) (d : Date)
    (hs : StartsWithDate s d) (hYear : d.year ≤ 9999) :
    PrintsDay w s d ↔ ¬IsLeap d.year ∨ d.month ≤ 2 := by
  obtain ⟨code, hFormat, hDay, hName, hShort⟩ := format_days hs hYear
  have hMonth := beforeMonth_common d.year d.month_valid
  have hCount := dayNumber_newYear d hYear
  have hWeekday := weekday_eq hw hThursday d
  constructor
  · intro h
    have hPrinted := h.dayOfYear []
    rw [hFormat, hFormat, format_code hDay, hCount, padZeroInt_nat] at hPrinted
    have hText := List.append_cancel_right (Except.ok.inj hPrinted)
    have hSame := padZero_inj hText
    by_contra hNot
    obtain ⟨hLeap, hLate⟩ := not_or.1 hNot
    rw [if_pos ⟨not_not.1 hLeap, Nat.lt_of_not_le hLate⟩] at hMonth
    unfold Date.dayOfYear at hSame
    omega
  · intro h
    have hCommon : ¬(IsLeap d.year ∧ 3 ≤ d.month) := by
      rintro ⟨hLeap, hLate⟩
      rcases h with hNot | hEarly
      · exact hNot hLeap
      · omega
    have hSame : commonBefore d.month + d.day = d.dayOfYear := by
      unfold Date.dayOfYear
      rw [hMonth, if_neg hCommon, Nat.add_zero]
    refine ⟨fun fmt => ?_, fun fmt => ?_, fun fmt => ?_⟩
    · rw [hFormat, hFormat, format_code hDay, hCount, padZeroInt_nat, hSame]
    · rw [hFormat, hFormat, format_code hName, hWeekday]
    · rw [hFormat, hFormat, format_code hShort, hWeekday]

/-- The numbers of the days of the week, 0 for Sunday. -/
def weekdayOf (d : Date) : Nat := (d.ordinal + 6) % 7

theorem isWeekday_weekdayOf : Date.IsWeekday weekdayOf := Date.isWeekday_ordinal 6

theorem weekdayOf_epoch : weekdayNames.getD (weekdayOf epochDate) [] = "Thursday" := by decide +kernel

theorem printsDay_iff_eve :
    PrintsDay weekdayOf (ymdText epochEve) epochEve ↔ ¬IsLeap 1969 ∨ 12 ≤ 2 :=
  printsDay_iff weekdayOf isWeekday_weekdayOf weekdayOf_epoch (ymdText epochEve) epochEve
    (startsWithDate_text (by decide)) (by decide)

theorem leapMarch_month : (1 : Nat) ≤ 3 ∧ (3 : Nat) ≤ 12 := by decide

theorem leapMarch_day : 1 ≤ 1 ∧ 1 ≤ monthLength 2024 3 := by decide

/-- The first of March of a leap year. -/
def leapMarch : Date := ⟨2024, 3, 1, leapMarch_month, leapMarch_day⟩

/-- The 61st day of 2024 prints as the 60th. -/
theorem not_printsDay :
    ¬∀ (w : Date → Nat), Date.IsWeekday w → weekdayNames.getD (w epochDate) [] = "Thursday" →
      ∀ (s : Str) (d : Date), StartsWithDate s d → d.year ≤ 9999 → PrintsDay w s d := by
  intro hAll
  have hDay := hAll weekdayOf isWeekday_weekdayOf weekdayOf_epoch (ymdText leapMarch) leapMarch
    (startsWithDate_text (by decide)) (by decide)
  have hPrinted : mysqlDateFormat (ymdText leapMarch) "%j" = .ok "060" := by decide +kernel
  have hRight : (mysqlDateFormat (ymdText leapMarch) []).map
      (padZeroInt 3 (ymdToDays (Int64.ofNat leapMarch.year) (Int64.ofNat leapMarch.month)
        (Int64.ofNat leapMarch.day) - ymdToDays (Int64.ofNat leapMarch.year) 1 1 + 1).toInt ++ ·) =
      .ok "061" := by decide +kernel
  have hSame := hDay.dayOfYear []
  rw [hRight] at hSame
  exact absurd (hPrinted.symm.trans hSame) (by decide)

end RunAlexDb
