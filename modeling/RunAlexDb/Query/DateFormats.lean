import Mathlib.Logic.Function.Basic
import RunAlexDb.Model.Concrete
import RunAlexDb.Model.Eval
import RunAlexDb.Query.DateShifts

/-!
# DateFormats — a date printed by a format and read back by it

`STR_TO_DATE` reads the digits of a field together with the character after them,
and then one more character for the separator of the format. Each field behind
the first one is read without its first digit, so a date comes back exactly when
that digit is a zero; behind a separator `%` a field is not read at all.

Main result: `dateFormat_iff`.
-/

namespace RunAlexDb

open Text Calendar Platform

-- ---------------------------------------------------------------------------
-- Formats
-- ---------------------------------------------------------------------------

/-- The fields of a date. -/
inductive DateField
  | year
  | month
  | day
deriving DecidableEq

namespace DateField

/-- The letter behind the `%`. -/
def code : DateField → Char
  | year => 'Y'
  | month => 'm'
  | day => 'd'

/-- The digits of the printed field. -/
def width : DateField → Nat
  | year => 4
  | month => 2
  | day => 2

def value (d : Date) : DateField → Nat
  | year => d.year
  | month => d.month
  | day => d.day

def print (d : Date) (f : DateField) : Str := padZero f.width (f.value d)

theorem value_lt {d : Date} (hYear : d.year ≤ 9999) (f : DateField) : f.value d < 10 ^ f.width := by
  have hMonth := d.month_valid.2
  have hDay : d.day ≤ 31 := d.day_valid.2.trans (monthLength_le _ _)
  cases f with
  | year =>
    show d.year < 10 ^ 4
    omega
  | month =>
    show d.month < 10 ^ 2
    omega
  | day =>
    show d.day < 10 ^ 2
    omega

theorem one_lt_width (f : DateField) : 1 < f.width := by cases f <;> decide

theorem length_print {d : Date} (hYear : d.year ≤ 9999) (f : DateField) :
    (f.print d).length = f.width :=
  length_padZero (Nat.lt_of_succ_lt f.one_lt_width) (f.value_lt hYear)

end DateField

/-- `%a`, `%b` and `%c` with a separator between each two. -/
def fieldsFormat (a b c : DateField) (s t : Char) : Str :=
  ['%', a.code, s, '%', b.code, t, '%', c.code]

-- ---------------------------------------------------------------------------
-- Printing
-- ---------------------------------------------------------------------------

theorem parse_ymdText {d : Date} (hYear : d.year ≤ 9999) :
    (splitn 3 '-' ((splitn 2 ' ' (trim (ymdText d))).getD 0 [])).filterMap parseI64 =
      [Int64.ofNat d.year, Int64.ofNat d.month, Int64.ofNat d.day] := by
  have hBlank : ' ' ∉ ymdText d := fun hIn => absurd (ymdText_noSpace hIn) (by decide)
  have hMonth := d.month_valid.2
  have hDay : d.day ≤ 31 := d.day_valid.2.trans (monthLength_le _ _)
  have hDate : splitn 2 ' ' (ymdText d) = [ymdText d] := by
    rw [splitn, splitOnce_eq_none hBlank]
  rw [trim_of_noSpace fun c => ymdText_noSpace, hDate]
  show (splitn 3 '-' (ymdText d)).filterMap parseI64 = _
  rw [ymdText_eq, splitn_three (hyphen_notMem_padZero _ _) (hyphen_notMem_padZero _ _)]
  simp only [List.filterMap_cons, List.filterMap_nil, parseI64_padZero 4 (n := d.year) (by omega),
    parseI64_padZero 2 (n := d.month) (by omega), parseI64_padZero 2 (n := d.day) (by omega)]

/-- The codes of a date give its printed fields. -/
theorem format_codes {d : Date} (hYear : d.year ≤ 9999) :
    ∃ code : Char → Rust Str, (∀ fmt, mysqlDateFormat (ymdText d) fmt = mysqlDateFormat.go code fmt) ∧
      (∀ f : DateField, code f.code = .ok (f.print d)) ∧ code '%' = .ok "%" := by
  have hMonth := d.month_valid.2
  have hDay : d.day ≤ 31 := d.day_valid.2.trans (monthLength_le _ _)
  have hPrint : ∀ width n, n < 2 ^ 63 →
      padZeroInt width (Int64.ofNat n).toInt = padZero width n := by
    intro width n hn
    rw [toInt_ofNat hn, padZeroInt_nat]
  unfold mysqlDateFormat
  dsimp only
  rw [parse_ymdText hYear]
  refine ⟨_, fun fmt => rfl, fun f => ?_, rfl⟩
  cases f with
  | year => exact congrArg Except.ok (hPrint 4 d.year (by omega))
  | month => exact congrArg Except.ok (hPrint 2 d.month (by omega))
  | day => exact congrArg Except.ok (hPrint 2 d.day (by omega))

/-- A character of the format that is no `%` stands for itself. -/
theorem format_char (code : Char → Rust Str) {c : Char} (h : c ≠ '%') (fmt : Str) :
    mysqlDateFormat.go code (c :: fmt) = (mysqlDateFormat.go code fmt).map (c :: ·) := by
  rw [mysqlDateFormat.go.eq_4 _ _ _ (fun hEq _ => h hEq) (fun _ _ hEq _ => h hEq)]
  rfl

theorem format_code {code : Char → Rust Str} {c : Char} {x : Str} (h : code c = .ok x) (fmt : Str) :
    mysqlDateFormat.go code ('%' :: c :: fmt) = (mysqlDateFormat.go code fmt).map (x ++ ·) := by
  rw [mysqlDateFormat.go.eq_3, h]
  rfl

/-- The fields of the date with the separators between them. -/
theorem format_fields {d : Date} (hYear : d.year ≤ 9999) (a b c : DateField) {s t : Char}
    (hs : s ≠ '%') (ht : t ≠ '%') :
    mysqlDateFormat (ymdText d) (fieldsFormat a b c s t) =
      .ok (a.print d ++ s :: (b.print d ++ t :: c.print d)) := by
  obtain ⟨code, hFormat, hCodes, -⟩ := format_codes hYear
  unfold fieldsFormat
  rw [hFormat, format_code (hCodes a), format_char code hs, format_code (hCodes b),
    format_char code ht, format_code (hCodes c)]
  show Except.ok (a.print d ++ s :: (b.print d ++ t :: (c.print d ++ []))) = _
  rw [List.append_nil]

-- ---------------------------------------------------------------------------
-- Reading
-- ---------------------------------------------------------------------------

/-- The reading of a format with the fields kept as a map. -/
def readFields (fmt text : Str) (v : DateField → Int64) : Int64 × Int64 × Int64 :=
  strToDate.go fmt text (v .year) (v .month) (v .day)

/-- The number a field is read as. -/
def readNumber (text : Str) : Int64 := (parseI64 (text.takeWhile Char.isDigit)).getD 0

/-- What is left behind the digits and the character after them. -/
def afterNumber (text : Str) : Str := (text.dropWhile Char.isDigit).drop 1

theorem readFields_field (f : DateField) (fmt text : Str) (v : DateField → Int64) :
    readFields ('%' :: f.code :: fmt) text v =
      readFields fmt (afterNumber text) (Function.update v f (readNumber text)) := by
  cases f <;> rfl

theorem readFields_percent (fmt text : Str) (v : DateField → Int64) :
    readFields ('%' :: '%' :: fmt) text v = readFields fmt (afterNumber text) v := rfl

theorem readFields_char {c : Char} (h : c ≠ '%') (fmt text : Str) (v : DateField → Int64) :
    readFields (c :: fmt) text v = readFields fmt (text.drop 1) v := by
  unfold readFields
  rw [strToDate.go.eq_9]
  exact fun _ _ hEq _ => h hEq

/-- Digits up to a character that is none. -/
theorem read_digits {x y : Str} (hx : ∀ c ∈ x, c.isDigit = true)
    (hy : ∀ c, y.head? = some c → c.isDigit = false) :
    readNumber (x ++ y) = (parseI64 x).getD 0 ∧ afterNumber (x ++ y) = y.drop 1 := by
  have hTake : y.takeWhile Char.isDigit = [] := by
    cases y with
    | nil => rfl
    | cons c y => rw [List.takeWhile_cons, hy c rfl]; rfl
  have hDrop : y.dropWhile Char.isDigit = y := dropWhile_head hy
  unfold readNumber afterNumber
  rw [List.takeWhile_append_of_pos hx, List.dropWhile_append_of_pos hx, hTake, hDrop, List.append_nil]
  exact ⟨rfl, rfl⟩

/-- The number that is left of a field without its first digit. -/
def cutValue (d : Date) (f : DateField) : Nat := digitsValue ((f.print d).drop 1)

theorem cutValue_eq_iff {d : Date} (hYear : d.year ≤ 9999) (f : DateField) :
    cutValue d f = f.value d ↔ f.value d < 10 ^ (f.width - 1) := by
  have hValue : digitsValue (f.print d) = f.value d := digitsValue_padZero _ _
  have hLength := f.length_print hYear
  have hDigits : ∀ c ∈ f.print d, c.isDigit = true := fun c hc => isDigit_padZero hc
  unfold cutValue
  generalize f.print d = x at hValue hLength hDigits
  cases x with
  | nil =>
    have hWidth := f.one_lt_width
    rw [← hLength] at hWidth
    exact absurd hWidth (by decide)
  | cons c x =>
    rw [← hLength, List.length_cons, Nat.add_sub_cancel, ← hValue]
    exact digitsValue_tail hDigits

/-- Without its first digit a field is still a number. -/
theorem parse_cut {d : Date} (hYear : d.year ≤ 9999) (f : DateField) :
    (parseI64 ((f.print d).drop 1)).getD 0 = Int64.ofNat (cutValue d f) ∧ cutValue d f < 2 ^ 63 := by
  have hLength := f.length_print hYear
  have hWidth := f.one_lt_width
  have hDigits : ∀ c ∈ (f.print d).drop 1, c.isDigit = true := fun c hc =>
    isDigit_padZero (List.mem_of_mem_drop hc)
  have hSome : (f.print d).drop 1 ≠ [] := by
    rw [ne_eq, List.drop_eq_nil_iff]
    omega
  have hSmall : digitsValue ((f.print d).drop 1) < 2 ^ 63 := by
    have hLt := digitsValue_lt hDigits
    have hLe : ((f.print d).drop 1).length ≤ 3 := by
      rw [List.length_drop, hLength]
      cases f <;> decide
    calc digitsValue ((f.print d).drop 1) < 10 ^ ((f.print d).drop 1).length := hLt
      _ ≤ 10 ^ 3 := Nat.pow_le_pow_right (by decide) hLe
      _ ≤ 2 ^ 63 := by decide
  rw [parseI64_digits hSome hDigits hSmall]
  exact ⟨rfl, hSmall⟩

/-- The first field is read in full, the others without their first digit. -/
theorem read_printed {d : Date} (hYear : d.year ≤ 9999) (a b c : DateField) {s t : Char}
    (hs : s.isDigit = false) (ht : t.isDigit = false) (hs' : s ≠ '%') (ht' : t ≠ '%')
    (v : DateField → Int64) :
    readFields (fieldsFormat a b c s t) (a.print d ++ s :: (b.print d ++ t :: c.print d)) v =
      readFields [] [] (Function.update (Function.update (Function.update v
        a (Int64.ofNat (a.value d))) b (Int64.ofNat (cutValue d b))) c (Int64.ofNat (cutValue d c))) := by
  have hDigits : ∀ f : DateField, ∀ x ∈ f.print d, x.isDigit = true := fun f x hx => isDigit_padZero hx
  have hCut : ∀ f : DateField, ∀ x ∈ (f.print d).drop 1, x.isDigit = true := fun f x hx =>
    hDigits f x (List.mem_of_mem_drop hx)
  have hSep : ∀ {u : Char} (y : Str), u.isDigit = false →
      ∀ x, (u :: y).head? = some x → x.isDigit = false := by
    intro u y hu x hx
    exact Option.some.inj hx ▸ hu
  have hDrop : ∀ (f : DateField) (y : Str), (f.print d ++ y).drop 1 = (f.print d).drop 1 ++ y := by
    intro f y
    have hWidth := f.one_lt_width
    have hLength := f.length_print hYear
    exact List.drop_append_of_le_length (by omega)
  have hFirst : (parseI64 (a.print d)).getD 0 = Int64.ofNat (a.value d) := by
    have hLt := a.value_lt hYear
    have hSmall : a.value d < 2 ^ 63 := hLt.trans_le (by cases a <;> decide)
    unfold DateField.print
    rw [parseI64_padZero _ hSmall]
    rfl
  obtain ⟨hNumA, hAfterA⟩ := read_digits (hDigits a) (hSep (b.print d ++ t :: c.print d) hs)
  obtain ⟨hNumB, hAfterB⟩ := read_digits (hCut b) (hSep (c.print d) ht)
  obtain ⟨hNumC, hAfterC⟩ := read_digits (hCut c) (y := []) (fun _ h => nomatch h)
  rw [List.append_nil] at hNumC hAfterC
  unfold fieldsFormat
  rw [readFields_field, hNumA, hAfterA, readFields_char hs', List.drop_succ_cons, List.drop_zero, hDrop,
    readFields_field, hNumB, hAfterB, readFields_char ht', List.drop_succ_cons, List.drop_zero,
    readFields_field, hNumC, hFirst, (parse_cut hYear b).1, (parse_cut hYear c).1]
  rfl

theorem code_ne_percent (f : DateField) : f.code ≠ '%' := by cases f <;> decide

/-- Behind a first separator `%` the second field is not read. -/
theorem read_second {a b c : DateField} (hA : b ≠ a) (hC : b ≠ c) (t : Char) (text : Str)
    (v : DateField → Int64) :
    ∃ text' w, readFields (fieldsFormat a b c '%' t) text v = readFields [] text' w ∧ w b = v b := by
  unfold fieldsFormat
  rw [readFields_field, readFields_percent, readFields_char (code_ne_percent b)]
  by_cases ht : t = '%'
  · subst ht
    rw [readFields_percent, readFields_char (code_ne_percent c)]
    exact ⟨_, _, rfl, Function.update_of_ne hA _ _⟩
  · rw [readFields_char ht, readFields_field]
    exact ⟨_, _, rfl, by rw [Function.update_of_ne hC, Function.update_of_ne hA]⟩

/-- Behind a second separator `%` the third field is not read. -/
theorem read_third {a b c : DateField} (hA : c ≠ a) (hB : c ≠ b) {s : Char} (hs : s ≠ '%') (text : Str)
    (v : DateField → Int64) :
    ∃ text' w, readFields (fieldsFormat a b c s '%') text v = readFields [] text' w ∧ w c = v c := by
  unfold fieldsFormat
  rw [readFields_field, readFields_char hs, readFields_field, readFields_percent,
    readFields_char (code_ne_percent c)]
  exact ⟨_, _, rfl, by rw [Function.update_of_ne hB, Function.update_of_ne hA]⟩

-- ---------------------------------------------------------------------------
-- STR_TO_DATE
-- ---------------------------------------------------------------------------

theorem contains_append (x pat y : Str) (h : pat ≠ []) : contains (x ++ (pat ++ y)) pat = true := by
  induction x with
  | nil =>
    obtain ⟨c, rest, rfl⟩ := List.exists_cons_of_ne_nil h
    show (List.isPrefixOf (c :: rest) (c :: rest ++ y) || _) = true
    rw [List.isPrefixOf_iff_prefix.2 (List.prefix_append (c :: rest) y), Bool.true_or]
  | cons c x ih =>
    show (List.isPrefixOf _ _ || contains (x ++ (pat ++ y)) pat) = true
    rw [ih, Bool.or_true]

theorem contains_code {a b c : DateField} (s t : Char) {f : DateField} (h : f ∈ [a, b, c]) :
    contains (fieldsFormat a b c s t) ['%', f.code] = true := by
  simp only [List.mem_cons, List.not_mem_nil, or_false] at h
  rcases h with rfl | rfl | rfl
  · exact contains_append [] ['%', f.code] _ (List.cons_ne_nil _ _)
  · exact contains_append ['%', a.code, s] ['%', f.code] _ (List.cons_ne_nil _ _)
  · exact contains_append ['%', a.code, s, '%', b.code, t] ['%', f.code] [] (List.cons_ne_nil _ _)

/-- A format with the three fields gives the date of what is read. -/
theorem strToDate_fields {a b c : DateField} (h : ∀ f, f ∈ [a, b, c]) (s t : Char) {text text' : Str}
    {w : DateField → Int64} (hSome : text ≠ [])
    (hRead : readFields (fieldsFormat a b c s t) text (fun _ => 0) = readFields [] text' w) :
    strToDate text (fieldsFormat a b c s t) =
      if 0 < w .year ∧ 0 < w .month ∧ 0 < w .day then
        .text (formatDateYmd (w .year).toInt (w .month).toInt (w .day).toInt) else .null := by
  have hEmpty : text.isEmpty = false := by simpa using hSome
  have hYear : contains (fieldsFormat a b c s t) "%Y" = true := contains_code s t (h .year)
  have hMonth : contains (fieldsFormat a b c s t) "%m" = true := contains_code s t (h .month)
  have hDay : contains (fieldsFormat a b c s t) "%d" = true := contains_code s t (h .day)
  have hGo : strToDate.go (fieldsFormat a b c s t) text 0 0 0 = (w .year, w .month, w .day) := hRead
  unfold strToDate
  rw [hEmpty, hYear, hMonth, hDay, hGo]
  simp only [Bool.false_eq_true, if_false, Bool.and_self, if_true, Bool.and_eq_true, decide_eq_true_eq,
    and_assoc]

theorem ymd_inj {y m d y' m' d' : Nat}
    (h : formatDateYmd (y : Int) (m : Int) (d : Int) = formatDateYmd (y' : Int) (m' : Int) (d' : Int)) :
    y = y' ∧ m = m' ∧ d = d' := by
  have hText : ∀ y m d : Nat, formatDateYmd (y : Int) (m : Int) (d : Int) =
      padZero 4 y ++ '-' :: (padZero 2 m ++ '-' :: padZero 2 d) := by
    intro y m d
    unfold formatDateYmd
    rw [padZeroInt_nat, padZeroInt_nat, padZeroInt_nat, List.append_assoc, List.append_assoc,
      List.append_assoc]
    rfl
  have hPieces := congrArg (splitn 3 '-') h
  rw [hText, hText, splitn_three (hyphen_notMem_padZero _ _) (hyphen_notMem_padZero _ _),
    splitn_three (hyphen_notMem_padZero _ _) (hyphen_notMem_padZero _ _)] at hPieces
  obtain ⟨hYear, hPieces⟩ := List.cons.inj hPieces
  obtain ⟨hMonth, hPieces⟩ := List.cons.inj hPieces
  exact ⟨padZero_inj hYear, padZero_inj hMonth, padZero_inj (List.cons.inj hPieces).1⟩

/-- The date of what is read is the date itself when every field is its own. -/
theorem date_of_fields {d : Date} {n : DateField → Nat} {w : DateField → Int64}
    (hw : ∀ f, w f = Int64.ofNat (n f)) (hn : ∀ f, n f < 2 ^ 63) :
    (if 0 < w .year ∧ 0 < w .month ∧ 0 < w .day then
        .text (formatDateYmd (w .year).toInt (w .month).toInt (w .day).toInt) else .null) =
      Value.text (ymdText d) ↔ 1 ≤ d.year ∧ ∀ f, n f = f.value d := by
  have hInt : ∀ f, (w f).toInt = n f := by
    intro f
    rw [hw, toInt_ofNat (hn f)]
  have hPos : ∀ f, 0 < w f ↔ 1 ≤ n f := by
    intro f
    rw [Int64.lt_iff_toInt_lt, hInt]
    show (0 : Int) < n f ↔ _
    omega
  simp only [hInt, hPos]
  constructor
  · intro h
    split_ifs at h with hAll
    obtain ⟨hYear, hMonth, hDay⟩ := ymd_inj (Value.text.inj h)
    refine ⟨hYear ▸ hAll.1, fun f => ?_⟩
    cases f with
    | year => exact hYear
    | month => exact hMonth
    | day => exact hDay
  · rintro ⟨hYear, hSame⟩
    have hAll : 1 ≤ n .year ∧ 1 ≤ n .month ∧ 1 ≤ n .day := by
      rw [hSame, hSame, hSame]
      exact ⟨hYear, d.month_valid.1, d.day_valid.1⟩
    rw [if_pos hAll, hSame, hSame, hSame]
    rfl

/-- A format with the fields of a date in some order, a single character that is no
digit between each two. -/
structure IsDateFormat (a b c : DateField) (s t : Char) : Prop where
  fields : [a, b, c].Perm [.year, .month, .day]
  first : s.isDigit = false
  second : t.isDigit = false

/-- The condition on the date and the format: no separator is `%`, and the fields
behind the first one begin with a zero. -/
structure KeepsDate (d : Date) (b c : DateField) (s t : Char) : Prop where
  year : 1 ≤ d.year
  first : s ≠ '%'
  second : t ≠ '%'
  zeroSecond : b.value d < 10 ^ (b.width - 1)
  zeroThird : c.value d < 10 ^ (c.width - 1)

theorem IsDateFormat.distinct {a b c : DateField} {s t : Char} (h : IsDateFormat a b c s t) :
    b ≠ a ∧ c ≠ a ∧ c ≠ b ∧ ∀ f, f ∈ [a, b, c] := by
  have hNodup : [a, b, c].Nodup := h.fields.nodup_iff.2 (by decide)
  simp only [List.nodup_cons, List.mem_cons, List.not_mem_nil, or_false, not_or] at hNodup
  refine ⟨Ne.symm hNodup.1.1, Ne.symm hNodup.1.2, Ne.symm hNodup.2.1, fun f => ?_⟩
  rw [h.fields.mem_iff]
  cases f <;> decide

/-- What is printed is read back exactly under the condition. -/
theorem read_format_iff {d : Date} (hYear : d.year ≤ 9999) {a b c : DateField} {s t : Char}
    (h : IsDateFormat a b c s t) :
    (∃ text, mysqlDateFormat (ymdText d) (fieldsFormat a b c s t) = .ok text ∧
      strToDate text (fieldsFormat a b c s t) = .text (ymdText d)) ↔ KeepsDate d b c s t := by
  obtain ⟨hBA, hCA, hCB, hMem⟩ := h.distinct
  -- a field that is not read is 0, and there is no date
  have hUnread : ∀ {text text' : Str} {w : DateField → Int64} {f : DateField},
      readFields (fieldsFormat a b c s t) text (fun _ => 0) = readFields [] text' w → w f = 0 →
      strToDate text (fieldsFormat a b c s t) ≠ .text (ymdText d) := by
    intro text text' w f hRead hZero hText
    by_cases hSome : text = []
    · subst hSome
      exact nomatch hText
    · rw [strToDate_fields hMem s t hSome hRead] at hText
      split_ifs at hText with hAll
      obtain ⟨hY, hM, hD⟩ := hAll
      cases f with
      | year => exact absurd hY (by rw [hZero]; decide)
      | month => exact absurd hM (by rw [hZero]; decide)
      | day => exact absurd hD (by rw [hZero]; decide)
  by_cases hs : s = '%'
  · subst hs
    refine iff_of_false ?_ fun hKeep => hKeep.first rfl
    rintro ⟨text, -, hText⟩
    obtain ⟨text', w, hRead, hZero⟩ := read_second hBA (Ne.symm hCB) t text fun _ => 0
    exact hUnread hRead hZero hText
  by_cases ht : t = '%'
  · subst ht
    refine iff_of_false ?_ fun hKeep => hKeep.second rfl
    rintro ⟨text, -, hText⟩
    obtain ⟨text', w, hRead, hZero⟩ := read_third hCA hCB hs text fun _ => 0
    exact hUnread hRead hZero hText
  -- every field is read, the second and third without their first digit
  let n : DateField → Nat := fun f =>
    if f = c then cutValue d c else if f = b then cutValue d b else a.value d
  have hRead := read_printed hYear a b c h.first h.second hs ht fun _ => 0
  have hNumbers : ∀ f, Function.update (Function.update (Function.update (fun _ => (0 : Int64))
      a (Int64.ofNat (a.value d))) b (Int64.ofNat (cutValue d b))) c (Int64.ofNat (cutValue d c)) f =
        Int64.ofNat (n f) := by
    intro f
    have hIn := hMem f
    simp only [List.mem_cons, List.not_mem_nil, or_false] at hIn
    simp only [Function.update_apply, n]
    split_ifs with hC hB hA
    · rfl
    · rfl
    · rfl
    · rcases hIn with hEq | hEq | hEq <;> contradiction
  have hSmall : ∀ f, n f < 2 ^ 63 := by
    intro f
    simp only [n]
    split_ifs
    · exact (parse_cut hYear c).2
    · exact (parse_cut hYear b).2
    · exact (a.value_lt hYear).trans_le (by cases a <;> decide)
  have hSame : (∀ f, n f = f.value d) ↔ cutValue d b = b.value d ∧ cutValue d c = c.value d := by
    constructor
    · intro hAll
      have hB := hAll b
      have hC := hAll c
      simp only [n, if_neg (Ne.symm hCB), if_true] at hB hC
      exact ⟨hB, hC⟩
    · rintro ⟨hB, hC⟩ f
      have hIn := hMem f
      simp only [List.mem_cons, List.not_mem_nil, or_false] at hIn
      simp only [n]
      split_ifs with hFC hFB
      · rw [hFC, hC]
      · rw [hFB, hB]
      · rcases hIn with hEq | hEq | hEq
        · rw [hEq]
        · exact absurd hEq hFB
        · exact absurd hEq hFC
  have hSome : a.print d ++ s :: (b.print d ++ t :: c.print d) ≠ [] :=
    List.append_ne_nil_of_right_ne_nil _ (List.cons_ne_nil _ _)
  have hDate := strToDate_fields hMem s t hSome hRead
  have hPrinted := format_fields hYear a b c hs ht
  rw [hPrinted]
  constructor
  · rintro ⟨text, hOk, hText⟩
    rw [← Except.ok.inj hOk, hDate, date_of_fields hNumbers hSmall, hSame, cutValue_eq_iff hYear,
      cutValue_eq_iff hYear] at hText
    exact ⟨hText.1, hs, ht, hText.2.1, hText.2.2⟩
  · intro hKeep
    refine ⟨_, rfl, ?_⟩
    rw [hDate, date_of_fields hNumbers hSmall, hSame, cutValue_eq_iff hYear, cutValue_eq_iff hYear]
    exact ⟨hKeep.year, hKeep.zeroSecond, hKeep.zeroThird⟩

-- ---------------------------------------------------------------------------
-- Expressions
-- ---------------------------------------------------------------------------

section Expressions

variable [Platform]

/-- `name(e, f)`. -/
def formatCall (name : Str) (e f : Expr) : Expr :=
  .function (.mk [⟨name, none⟩] (.list (.mk none [.unnamed (.expr e), .unnamed (.expr f)] [])) none)

/-- The date printed by the format and read back by it is the date. -/
def KeptByFormat (now : Nat) (row : Row) (cols : List Column) (e f : Expr) : Prop :=
  evalRowExpr now row cols (formatCall "STR_TO_DATE" (formatCall "DATE_FORMAT" e f) f) =
    evalRowExpr now row cols e

theorem eval_dateFormat (hUpper : toUppercase "DATE_FORMAT" = "DATE_FORMAT") {now : Nat} {row : Row}
    {cols : List Column} {e f : Expr} {text fmt : Str} (hSome : text ≠ [])
    (he : evalRowExpr now row cols e = .ok (.text text))
    (hf : evalRowExpr now row cols f = .ok (.text fmt)) :
    evalRowExpr now row cols (formatCall "DATE_FORMAT" e f) =
      (mysqlDateFormat text fmt).map Value.text := by
  have hName : toUppercase (ObjectName.toString [⟨"DATE_FORMAT", none⟩]) = "DATE_FORMAT" := hUpper
  have hEmpty : text.isEmpty = false := by simpa using hSome
  unfold formatCall
  rw [evalRowExpr, evalFunction, hName]
  show (evalArgs now row cols [.unnamed (.expr e), .unnamed (.expr f)]) >>= _ = _
  rw [evalArgs, evalArgs, evalArgs, evalArg, evalArg, he, hf]
  show callFunction now "DATE_FORMAT" [.text text, .text fmt] = _
  show (if text.isEmpty = true then _ else (mysqlDateFormat text fmt).map Value.text) = _
  rw [hEmpty]
  rfl

theorem eval_strToDate (hUpper : toUppercase "STR_TO_DATE" = "STR_TO_DATE") {now : Nat} {row : Row}
    {cols : List Column} {e f : Expr} {fmt : Str} {r : Rust Str}
    (he : evalRowExpr now row cols e = r.map Value.text)
    (hf : evalRowExpr now row cols f = .ok (.text fmt)) :
    evalRowExpr now row cols (formatCall "STR_TO_DATE" e f) = r.map fun text => strToDate text fmt := by
  have hName : toUppercase (ObjectName.toString [⟨"STR_TO_DATE", none⟩]) = "STR_TO_DATE" := hUpper
  unfold formatCall
  rw [evalRowExpr, evalFunction, hName]
  show (evalArgs now row cols [.unnamed (.expr e), .unnamed (.expr f)]) >>= _ = _
  rw [evalArgs, evalArgs, evalArgs, evalArg, evalArg, he, hf]
  cases r with
  | error p => rfl
  | ok text => rfl

/-- A date printed and read back by a format is the date exactly under the condition. -/
theorem dateFormat_iff (hFormat : toUppercase "DATE_FORMAT" = "DATE_FORMAT")
    (hParse : toUppercase "STR_TO_DATE" = "STR_TO_DATE") (now : Nat) (row : Row) (cols : List Column)
    (e f : Expr) (d : Date) (a b c : DateField) (s t : Char) (hYear : d.year ≤ 9999)
    (h : IsDateFormat a b c s t) (he : evalRowExpr now row cols e = .ok (.text (ymdText d)))
    (hf : evalRowExpr now row cols f = .ok (.text (fieldsFormat a b c s t))) :
    KeptByFormat now row cols e f ↔ KeepsDate d b c s t := by
  rw [← read_format_iff hYear h]
  unfold KeptByFormat
  rw [eval_strToDate hParse (eval_dateFormat hFormat (ymdText_ne_nil d) he hf) hf, he]
  cases mysqlDateFormat (ymdText d) (fieldsFormat a b c s t) with
  | error p =>
    refine iff_of_false (fun hEq => nomatch hEq) ?_
    rintro ⟨text, hOk, -⟩
    exact nomatch hOk
  | ok text =>
    constructor
    · intro hEq
      exact ⟨text, rfl, Except.ok.inj hEq⟩
    · rintro ⟨text', hOk, hText⟩
      exact congrArg Except.ok (Except.ok.inj hOk ▸ hText)

end Expressions

local instance formatPlatform : Platform := tablePlatform []

def literal (s : Str) : Expr := .value (.singleQuotedString s)

theorem dateFormat_iff_at :
    KeptByFormat 0 [] [] (literal (ymdText epochDate)) (literal (fieldsFormat .year .month .day '-' '-')) ↔
      KeepsDate epochDate .month .day '-' '-' :=
  dateFormat_iff rfl rfl 0 [] [] (literal (ymdText epochDate))
    (literal (fieldsFormat .year .month .day '-' '-')) epochDate .year .month .day '-' '-' (by decide)
    ⟨List.Perm.refl _, by decide, by decide⟩ rfl rfl

/-- The last day of the sixties comes back as the first of February. -/
theorem not_dateFormat :
    ¬∀ (e f : Expr) (d : Date) (a b c : DateField) (s t : Char), d.year ≤ 9999 →
      IsDateFormat a b c s t → evalRowExpr 0 [] [] e = .ok (.text (ymdText d)) →
      evalRowExpr 0 [] [] f = .ok (.text (fieldsFormat a b c s t)) → KeptByFormat 0 [] [] e f := by
  intro hAll
  have hKept := hAll (literal (ymdText epochEve)) (literal (fieldsFormat .year .month .day '-' '-'))
    epochEve .year .month .day '-' '-' (by decide) ⟨List.Perm.refl _, by decide, by decide⟩ rfl rfl
  have hRead : evalRowExpr 0 [] [] (formatCall "STR_TO_DATE" (formatCall "DATE_FORMAT"
      (literal (ymdText epochEve)) (literal (fieldsFormat .year .month .day '-' '-')))
      (literal (fieldsFormat .year .month .day '-' '-'))) = .ok (.text "1969-02-01") := by decide +kernel
  unfold KeptByFormat at hKept
  rw [hRead] at hKept
  exact absurd hKept (by decide +kernel)

end RunAlexDb
