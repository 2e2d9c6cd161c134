import Mathlib.Data.Char
import Mathlib.Data.List.Lex
import RunAlexDb.Model.Concrete
import RunAlexDb.Model.Eval
import RunAlexDb.Query.DateShifts

/-!
# DateIntervals — an interval added to a time and taken away again

`DATE_ADD` counts an interval in days and prints the moved date, without a time
of day. No result of it is the text of a time, so taking the interval away again
never gives the time back, not even for an interval of length 0.

Main results: `dateAdd_days` and `dateAdd_never`.
-/

namespace RunAlexDb

open Text Calendar Platform

-- ---------------------------------------------------------------------------
-- Texts of times
-- ---------------------------------------------------------------------------

/-- `HH:MM:SS`. -/
def clockText (h m s : Nat) : Str := padZero 2 h ++ ":" ++ padZero 2 m ++ ":" ++ padZero 2 s

/-- `YYYY-MM-DD HH:MM:SS`. -/
def timeText (d : Date) (clock : Str) : Str := ymdText d ++ ' ' :: clock

theorem trimmed_timeText {d : Date} {h m s : Nat} : Trimmed (timeText d (clockText h m s)) := by
  constructor
  · intro c hc
    unfold timeText at hc
    rw [List.head?_append_of_ne_nil _ (ymdText_ne_nil d)] at hc
    exact ymdText_noSpace (List.mem_of_mem_head? hc)
  · intro c hc
    have hLast : timeText d (clockText h m s) =
        (ymdText d ++ ' ' :: (padZero 2 h ++ ":" ++ padZero 2 m ++ ":")) ++ padZero 2 s := by
      unfold timeText clockText
      simp only [List.append_assoc, List.cons_append]
    rw [hLast, List.getLast?_append_of_ne_nil _ (padZero_ne_nil 2 s)] at hc
    exact digit_noSpace (isDigit_padZero (List.mem_of_getLast? hc))

/-- A time reads as its date. -/
theorem parseYmd_time {d : Date} {h m s : Nat} (hYear : d.year < 2 ^ 63) :
    parseYmd (timeText d (clockText h m s)) =
      some (Int64.ofNat d.year, Int64.ofNat d.month, Int64.ofNat d.day) := by
  have hWord : ∃ rest, splitWhitespace (trim (timeText d (clockText h m s))) = ymdText d :: rest := by
    rw [trim_of_trimmed trimmed_timeText]
    unfold splitWhitespace timeText
    rw [List.splitOnP_append_cons_of_forall_mem (fun c => ymdText_noSpace) ' ' rfl,
      List.filter_cons_of_pos (by simpa using ymdText_ne_nil d)]
    exact ⟨_, rfl⟩
  have hDate : splitWhitespace (trim (ymdText d)) = [ymdText d] := by
    rw [trim_of_noSpace fun c => ymdText_noSpace]
    exact splitWhitespace_word (ymdText_ne_nil d) fun c => ymdText_noSpace
  obtain ⟨rest, hRest⟩ := hWord
  have hText := parseYmd_text hYear
  unfold parseYmd at hText ⊢
  rw [hDate] at hText
  rw [hRest]
  exact hText

-- ---------------------------------------------------------------------------
-- Results of DATE_ADD
-- ---------------------------------------------------------------------------

theorem blank_notMem_padZeroInt (width : Nat) (i : Int) : ' ' ∉ padZeroInt width i := by
  have hDigits : ∀ width n, ' ' ∉ padZero width n := fun width n hIn =>
    absurd (isDigit_padZero hIn) (by decide)
  unfold padZeroInt
  split_ifs
  · exact fun hIn => (List.mem_cons.1 hIn).elim (by decide) (hDigits _ _)
  · exact hDigits _ _

theorem blank_notMem_ymd (y m d : Int) : ' ' ∉ formatDateYmd y m d := by
  have hHyphen : ' ' ∉ ("-" : Str) := by decide
  unfold formatDateYmd
  simp only [List.mem_append, not_or]
  exact ⟨⟨⟨⟨blank_notMem_padZeroInt _ _, hHyphen⟩, blank_notMem_padZeroInt _ _⟩, hHyphen⟩,
    blank_notMem_padZeroInt _ _⟩

theorem blank_notMem_addDays {s t : Str} {k : Int64} (h : dateAddDays s k = some t) : ' ' ∉ t := by
  unfold dateAddDays at h
  obtain ⟨b, -, h⟩ := Option.bind_eq_some_iff.1 h
  dsimp only at h
  split_ifs at h
  · exact Option.some.inj h ▸ blank_notMem_ymd _ _ _
  · exact Option.some.inj h ▸ blank_notMem_ymd _ _ _

theorem blank_notMem_addMonths {s t : Str} {k : Int64} (h : addMonths s k = some t) : ' ' ∉ t := by
  unfold addMonths at h
  obtain ⟨⟨y, m, d⟩, -, h⟩ := Option.bind_eq_some_iff.1 h
  exact Option.some.inj h ▸ blank_notMem_ymd _ _ _

/-- No result is the text of a time. -/
theorem blank_notMem_dateAdd {isSub : Bool} {date : Option Str} {interval : Option (Int64 × Str)}
    {t : Str} (h : dateAdd isSub date interval = .text t) : ' ' ∉ t := by
  have hElim : ∀ r : Option Str, r.elim Value.null .text = .text t → r = some t := by
    intro r hr
    cases r with
    | none => exact nomatch hr
    | some x => exact congrArg some (Value.text.inj hr)
  unfold dateAdd at h
  split at h
  · replace h := hElim _ h
    split at h
    any_goals exact blank_notMem_addDays h
    all_goals exact blank_notMem_addMonths h
  · exact nomatch h

/-- The days an interval counts for. -/
def intervalDays (n : Int64) (unit : Str) : Int64 :=
  if unit = "WEEK" then n * 7 else if unit = "HOUR" then n / 24 else n

/-- From the epoch on, `DATE_ADD` of a time gives the date of the day its interval
counts to: minutes and seconds count as days. -/
theorem dateAdd_days {d e : Date} {h m s : Nat} {n : Int64} {unit : Str}
    (hUnit : unit ∈ (["SECOND", "MINUTE", "HOUR", "DAY", "WEEK"] : List Str)) (hd : d.year ≤ 9999)
    (he : e.year ≤ 9999) (hEpoch : 1970 ≤ e.year)
    (hDays : Date.DaysAfter (intervalDays n unit).toInt d e) :
    dateAdd false (some (timeText d (clockText h m s))) (some (n, unit)) = .text (ymdText e) := by
  have hBase := parseDateStr_of_parseYmd (by omega) (@parseYmd_time d h m s (by omega))
  have hMoved := dateAddDays_after hBase (dayNumber_add hDays) he hEpoch
  have hSame : 1 * n = n := Int64.one_mul n
  simp only [List.mem_cons, List.not_mem_nil, or_false] at hUnit
  unfold dateAdd
  rcases hUnit with rfl | rfl | rfl | rfl | rfl
  all_goals
    dsimp only
    rw [if_neg Bool.false_ne_true, hSame]
    exact congrArg (Option.elim · Value.null Value.text) hMoved

-- ---------------------------------------------------------------------------
-- Expressions
-- ---------------------------------------------------------------------------

section Expressions

variable [Platform]

/-- `name(e, INTERVAL v unit)`. -/
def intervalCall (name : Str) (e v : Expr) (unit : Str) : Expr :=
  .function (.mk [⟨name, none⟩]
    (.list (.mk none [.unnamed (.expr e), .unnamed (.expr (.interval v (some unit)))] [])) none)

/-- The interval `v` of the unit added to the time `e`: taken away again it gives the
time back, and a longer interval gives no earlier result. -/
structure AddsInterval (now : Nat) (row : Row) (cols : List Column) (e v : Expr) (unit : Str) :
    Prop where
  undone : evalRowExpr now row cols (intervalCall "DATE_SUB" (intervalCall "DATE_ADD" e v unit) v unit) =
    evalRowExpr now row cols e
  monotone : ∀ (w : Expr) (k n : Int64), evalRowExpr now row cols v = .ok (.int n) →
    evalRowExpr now row cols w = .ok (.int k) → 0 ≤ k → k ≤ n → ∃ a b : Str,
      evalRowExpr now row cols (intervalCall "DATE_ADD" e w unit) = .ok (.text a) ∧
        evalRowExpr now row cols (intervalCall "DATE_ADD" e v unit) = .ok (.text b) ∧ a ≤ b

theorem bind_ok {α β : Type} {x : Rust α} {f : α → Rust β} {r : β} (h : (x >>= f) = .ok r) :
    ∃ a, f a = .ok r := by
  cases x with
  | error p => exact nomatch h
  | ok a => exact ⟨a, h⟩

/-- A `DATE_SUB` is evaluated by `dateAdd`. -/
theorem eval_dateSub (hUpper : toUppercase "DATE_SUB" = "DATE_SUB") {now : Nat} {row : Row}
    {cols : List Column} {e v : Expr} {unit : Str} {r : Value}
    (h : evalRowExpr now row cols (intervalCall "DATE_SUB" e v unit) = .ok r) :
    ∃ date interval, r = dateAdd true date interval := by
  have hName : toUppercase (ObjectName.toString [⟨"DATE_SUB", none⟩]) = "DATE_SUB" := hUpper
  unfold intervalCall at h
  rw [evalRowExpr, evalFunction, hName] at h
  replace h : evalDateAdd now row cols true
      [.unnamed (.expr e), .unnamed (.expr (.interval v (some unit)))] = .ok r := h
  rw [evalDateAdd] at h
  obtain ⟨date, h⟩ := bind_ok h
  obtain ⟨interval, h⟩ := bind_ok h
  exact ⟨date, interval, (Except.ok.inj h).symm⟩

/-- No interval taken away gives a time back. -/
theorem dateAdd_never (hUpper : toUppercase "DATE_SUB" = "DATE_SUB") (now : Nat) (row : Row)
    (cols : List Column) (e v : Expr) (unit : Str) (d : Date) (h m s : Nat)
    (hTime : evalRowExpr now row cols e = .ok (.text (timeText d (clockText h m s)))) :
    ¬AddsInterval now row cols e v unit := by
  intro hLaw
  obtain ⟨date, interval, hSub⟩ := eval_dateSub hUpper (hLaw.undone.trans hTime)
  exact blank_notMem_dateAdd hSub.symm (List.mem_append_right _ (List.mem_cons_self ..))

end Expressions

local instance timePlatform : Platform := tablePlatform []

/-- Ten in the morning of the first day of 1970. -/
def morning : Expr := .value (.singleQuotedString (timeText epochDate (clockText 10 0 0)))

theorem dateAdd_never_at :
    ¬AddsInterval 0 [] [] morning (.value (.number "1" false)) "HOUR" :=
  dateAdd_never rfl 0 [] [] morning (.value (.number "1" false)) "HOUR" epochDate 10 0 0 rfl

/-- An hour added and taken away again leaves the date alone. -/
theorem not_dateAdd :
    ¬∀ (d : Date) (h m s : Nat) (n : Int64) (unit : Str) (e v : Expr), 1970 ≤ d.year → d.year ≤ 9999 →
      h < 24 → m < 60 → s < 60 → 0 ≤ n →
      unit ∈ (["SECOND", "MINUTE", "HOUR", "DAY", "WEEK"] : List Str) →
      evalRowExpr 0 [] [] e = .ok (.text (timeText d (clockText h m s))) →
      evalRowExpr 0 [] [] v = .ok (.int n) → AddsInterval 0 [] [] e v unit := by
  intro hAll
  have hOne : evalRowExpr 0 [] [] (.value (.number "1" false)) = .ok (.int 1) := by decide +kernel
  have hLaw := (hAll epochDate 10 0 0 1 "HOUR" morning (.value (.number "1" false)) (by decide)
    (by decide) (by decide) (by decide) (by decide) (by decide) (by decide) rfl hOne).undone
  have hDate : evalRowExpr 0 [] [] (intervalCall "DATE_SUB"
      (intervalCall "DATE_ADD" morning (.value (.number "1" false)) "HOUR")
      (.value (.number "1" false)) "HOUR") = .ok (.text "1970-01-01") := by decide +kernel
  rw [hDate] at hLaw
  exact absurd hLaw (by decide +kernel)

end RunAlexDb
