import RunAlexDb.Model.Types

/-!
# Dates — the calendar arithmetic of the evaluator

Days since 1970-01-01 and back, dates read from text, dates moved by days and
months, `DATE_FORMAT` and `STR_TO_DATE`. Machine integers wrap, as in the
release profile.
-/

namespace RunAlexDb

open Text

def isLeap (y : Int) : Bool := (y.tmod 4 == 0 && y.tmod 100 != 0) || y.tmod 400 == 0

def monthDays (leap : Bool) : List Nat :=
  [31, if leap then 29 else 28, 31, 30, 31, 30, 31, 31, 30, 31, 30, 31]

/-- Days since the epoch to (year, month, day). -/
def daysToYmd (days : Nat) : Nat × Nat × Nat :=
  let (y, rem) := years (days / 365 + 1) 1970 days
  let (mo, rem) := months (monthDays (isLeap y)) 1 rem
  (y, mo, rem + 1)
where
  years : Nat → Nat → Nat → Nat × Nat
    | 0, y, rem => (y, rem)
    | fuel + 1, y, rem =>
      let yd := if isLeap y then 366 else 365
      if rem < yd then (y, rem) else years fuel (y + 1) (rem - yd)
  months : List Nat → Nat → Nat → Nat × Nat
    | [], mo, rem => (mo, rem)
    | md :: mds, mo, rem => if rem < md then (mo, rem) else months mds (mo + 1) (rem - md)

/-- (year, month, day) to days since the epoch. -/
def ymdToDays (y m d : Int64) : Int64 :=
  let yearDays (yr : Int) : Int64 := if isLeap yr then 366 else 365
  let years : Int64 :=
    if 1970 ≤ y then
      (List.range (y.toInt - 1970).toNat).foldl (fun days i => days + yearDays (1970 + i)) 0
    else
      (List.range (1970 - y.toInt).toNat).foldl (fun days i => days - yearDays (y.toInt + i)) 0
  let months := (List.range (m - 1).toUInt64.toNat).foldl
    (fun days i => days + Int64.ofNat ((monthDays (isLeap y.toInt)).getD i 30)) years
  months + d - 1

/-- The first word of a date text, cut at hyphens into year, month and day. -/
def parseYmd (s : Str) : Option (Int64 × Int64 × Int64) :=
  match splitWhitespace (trim s) with
  | [] => none
  | datePart :: _ =>
    match splitn 3 '-' datePart with
    | [y, m, d] => do
      let y ← parseI64 y
      let m ← parseI64 m
      let d ← parseI64 d
      return (y, m, d)
    | _ => none

def parseDateStr (s : Str) : Option Int64 := do
  let (y, m, d) ← parseYmd s
  return ymdToDays y m d

def formatDateYmd (y m d : Int) : Str :=
  padZeroInt 4 y ++ "-" ++ padZeroInt 2 m ++ "-" ++ padZeroInt 2 d

def dateAddDays (date : Str) (delta : Int64) : Option Str := do
  let base ← parseDateStr date
  let newDays := base + delta
  if 0 ≤ newDays then
    let (y, mo, d) := daysToYmd newDays.toNatClampNeg
    return formatDateYmd y mo d
  else
    let (y, mo, d) := daysToYmd (-newDays - 1).toUInt64.toNat
    return formatDateYmd (1970 - y) (13 - mo) d

def addMonths (date : Str) (months : Int64) : Option Str := do
  let (y, m, d) ← parseYmd date
  let total := y * 12 + (m - 1) + months
  let ny := total / 12
  let nm := total % 12 + 1
  let maxD : Int64 := Int64.ofNat ((monthDays (isLeap ny.toInt)).getD (nm - 1).toUInt64.toNat 30)
  return formatDateYmd ny.toInt nm.toInt (min d maxD).toInt

def weekdayNames : List Str :=
  ["Sunday", "Monday", "Tuesday", "Wednesday", "Thursday", "Friday", "Saturday"]

def monthNames : List Str :=
  ["January", "February", "March", "April", "May", "June", "July", "August", "September",
    "October", "November", "December"]

/-- `DATE_FORMAT`: the `%` codes of `fmt` filled from the fields of `date`. -/
def mysqlDateFormat (dateStr fmt : Str) : Rust Str :=
  let parts := splitn 2 ' ' (trim dateStr)
  let date := parts.getD 0 []
  let time := parts.getD 1 "00:00:00"
  let dp := (splitn 3 '-' date).filterMap parseI64
  let tp := (splitn 3 ':' time).filterMap fun p => parseI64 ((split '.' p).headD [])
  let y := dp.getD 0 0
  let m := dp.getD 1 0
  let d := dp.getD 2 0
  let h := tp.getD 0 0
  let mi := tp.getD 1 0
  let sec := tp.getD 2 0
  let dow : Nat := (((parseDateStr date).getD 0 % 7 + 4) % 7 + 7).toNatClampNeg % 7
  let inYear : Bool := 0 < m && m ≤ 12
  let code : Char → Rust Str
    | 'Y' => pure (padZeroInt 4 y.toInt)
    | 'y' => pure (padZeroInt 2 (y % 100).toInt)
    | 'm' => pure (padZeroInt 2 m.toInt)
    | 'c' => pure (i64ToString m)
    | 'd' => pure (padZeroInt 2 d.toInt)
    | 'e' => pure (i64ToString d)
    | 'H' => pure (padZeroInt 2 h.toInt)
    | 'h' | 'I' => pure (padZeroInt 2 (if h % 12 == 0 then 12 else h % 12).toInt)
    | 'i' => pure (padZeroInt 2 mi.toInt)
    | 's' | 'S' => pure (padZeroInt 2 sec.toInt)
    | 'p' => pure (if h < 12 then "AM" else "PM")
    | 'M' => pure (if inYear then monthNames.getD (m - 1).toNatClampNeg [] else [])
    | 'b' => pure (if inYear then (monthNames.getD (m - 1).toNatClampNeg []).take 3 else [])
    -- the table of month lengths is indexed by every month before `m`
    | 'j' =>
      if 13 < m then .error .panic
      else pure (padZeroInt 3
        (((monthDays false).take (m.toInt - 1).toNat).foldl (fun s n => s + Int64.ofNat n) 0 + d).toInt)
    | 'W' => pure (weekdayNames.getD dow [])
    | 'a' => pure ((weekdayNames.getD dow []).take 3)
    | '%' => pure "%"
    | other => pure ['%', other]
  let rec go : Str → Rust Str
    | [] => pure []
    | ['%'] => pure "%"
    | '%' :: c :: rest => do
      let s ← code c
      return s ++ (← go rest)
    | c :: rest => do return c :: (← go rest)
  go fmt

/-- `STR_TO_DATE` with a format that has year, month and day. A `%` code takes
the digits and the character after them; any other format character takes one
character. -/
def strToDate (s fmt : Str) : Value :=
  if s.isEmpty then .null
  else if contains fmt "%Y" && contains fmt "%m" && contains fmt "%d" then
    let (y, m, d) := go fmt s 0 0 0
    if 0 < y && 0 < m && 0 < d then .text (formatDateYmd y.toInt m.toInt d.toInt) else .null
  else .text s
where
  go : Str → Str → Int64 → Int64 → Int64 → Int64 × Int64 × Int64
    | [], _, y, m, d => (y, m, d)
    | '%' :: code :: fi, si, y, m, d =>
      let num := (parseI64 (si.takeWhile Char.isDigit)).getD 0
      let si := (si.dropWhile Char.isDigit).drop 1
      match code with
      | 'Y' => go fi si num m d
      | 'y' => go fi si (num + 2000) m d
      | 'm' | 'c' => go fi si y num d
      | 'd' | 'e' => go fi si y m num
      | _ => go fi si y m d
    | _ :: fi, si, y, m, d => go fi (si.drop 1) y m d

/-- A time stamp as `YYYY-MM-DD`. -/
def formatDate (ts : Nat) : Str :=
  let (y, mo, d) := daysToYmd (ts / 86400)
  formatDateYmd y mo d

/-- A time stamp as `HH:MM:SS`. -/
def formatTime (ts : Nat) : Str :=
  padZero 2 (ts / 3600 % 24) ++ ":" ++ padZero 2 (ts / 60 % 60) ++ ":" ++ padZero 2 (ts % 60)

example : dateAddDays "2024-02-28" 2 = some ("2024-03-01" : Str) := by decide +kernel

end RunAlexDb
