import RunAlexDb.Model.Dates

/-!
# Functions — the scalar functions of the evaluator

The functions that work on evaluated arguments, by upper-cased name. `now` is
the clock, in seconds since the epoch.
-/

namespace RunAlexDb

open Text Platform

variable [Platform]

/-- `a / b`: division by zero and `MIN / -1` panic. -/
def checkedDiv (a b : Int64) : Rust Int64 :=
  if b = 0 ∨ (a = Int64.minValue ∧ b = -1) then .error .panic else .ok (a / b)

/-- `a % b`, with the panics of `a / b`. -/
def checkedRem (a b : Int64) : Rust Int64 :=
  if b = 0 ∨ (a = Int64.minValue ∧ b = -1) then .error .panic else .ok (a % b)

/-- Rust's `max_by`: the last of the greatest. -/
def maxBy {α : Type} (cmp : α → α → Ordering) : List α → Option α
  | [] => none
  | x :: xs => some (xs.foldl (fun best y => if cmp best y = .gt then best else y) x)

/-- Rust's `min_by`: the first of the least. -/
def minBy {α : Type} (cmp : α → α → Ordering) : List α → Option α
  | [] => none
  | x :: xs => some (xs.foldl (fun best y => if cmp best y = .gt then y else best) x)

/-- Argument `i`, absent arguments null. -/
def argAt (args : List Value) (i : Nat) : Value := args.getD i .null

/-- `it.next().and_then(|v| v.into_text())`. -/
def textArg (args : List Value) (i : Nat) : Option Str := (args[i]?).bind Value.intoText

/-- `it.next().and_then(|v| v.into_int())`. -/
def intArg (args : List Value) (i : Nat) : Option Int64 := (args[i]?).bind Value.intoInt

/-- `n.max(0) as usize`. -/
def toUsize (n : Int64) : Nat := n.toNatClampNeg

/-- `n.abs()`, which wraps. -/
def wrappingAbs (n : Int64) : Int64 := if n < 0 then -n else n

/-- A function of the text of its first argument. -/
def onText (args : List Value) (f : Str → Value) : Value := ((textArg args 0).map f).getD .null

/-- `LPAD` and `RPAD`: pad with copies of `pad` up to `len` characters. -/
def padText (onLeft : Bool) (args : List Value) : Rust Value :=
  let s := (textArg args 0).getD []
  let len := toUsize ((intArg args 1).getD 0)
  let pad := (textArg args 2).getD " "
  if len ≤ s.length ∨ pad = [] then pure (.text s)
  else
    let needed := len - s.length
    -- `collect` reserves one byte a character first
    if 2 ^ 63 ≤ needed then .error .panic
    else
      let filler := (List.replicate (needed / pad.length + 1) pad).flatten.take needed
      pure (.text (if onLeft then filler ++ s else s ++ filler))

def upperHex (n : Nat) : Str := (Nat.toDigits 16 n).map Char.toUpper

def textFunction (fname : Str) (args : List Value) : Option (Rust Value) :=
  match String.ofList fname with
  | "UPPER" => some (pure (onText args fun s => .text (toUppercase s)))
  | "LOWER" => some (pure (onText args fun s => .text (toLowercase s)))
  | "LENGTH" | "CHAR_LENGTH" | "CHARACTER_LENGTH" =>
    some (pure (onText args fun s => .int (Int64.ofNat s.length)))
  | "TRIM" => some (pure (onText args fun s => .text (trim s)))
  | "LTRIM" => some (pure (onText args fun s => .text (trimStart s)))
  | "RTRIM" => some (pure (onText args fun s => .text (trimEnd s)))
  | "REVERSE" => some (pure (onText args fun s => .text s.reverse))
  | "HEX" => some (pure (match argAt args 0 with
    | .int i => .text (upperHex i.toUInt64.toNat)
    | .text s => .text ((bytes s).flatMap fun b => (hexEncode [b]).map Char.toUpper)
    | _ => .null))
  | "CONCAT" => some (pure (.text (args.filterMap Value.intoText).flatten))
  | "CONCAT_WS" =>
    some (pure (.text (join ((textArg args 0).getD []) ((args.drop 1).filterMap Value.intoText))))
  | "LEFT" => some (pure (.text (((textArg args 0).getD []).take (toUsize ((intArg args 1).getD 0)))))
  | "RIGHT" =>
    let s := (textArg args 0).getD []
    some (pure (.text (s.drop (s.length - toUsize ((intArg args 1).getD 0)))))
  | "SUBSTRING" | "SUBSTR" | "MID" =>
    let s := (textArg args 0).getD []
    let start := toUsize (max 1 ((intArg args 1).getD 1)) - 1
    let slice := s.drop start
    some (pure (.text (match intArg args 2 with
      | some n => slice.take (toUsize n)
      | none => slice)))
  | "REPLACE" =>
    some (pure (.text (replace ((textArg args 0).getD []) ((textArg args 1).getD [])
      ((textArg args 2).getD []))))
  | "REPEAT" =>
    let s := (textArg args 0).getD []
    let n := toUsize ((intArg args 1).getD 0)
    -- `str::repeat` panics when the length overflows a capacity
    some (if 2 ^ 63 ≤ byteLen s * n then .error .panic
      else pure (.text (List.replicate n s).flatten))
  | "LPAD" => some (padText true args)
  | "RPAD" => some (padText false args)
  | "FIND_IN_SET" =>
    let needle := (textArg args 0).getD []
    let haystack := (textArg args 1).getD []
    let pos := ((split ',' haystack).findIdx? (· == needle)).map (· + 1)
    some (pure (.int (Int64.ofNat (pos.getD 0))))
  | _ => none

/-- `FORMAT(x, d)`: digits in groups of three. -/
def formatNumber (num : Value) (decimals : Int64) : Rust Value := do
  let f? : Option F64 := match num with
    | .int n => some (f64OfI64 n)
    | .float f => some f
    | .text s => some ((f64Parse s).getD f64Zero)
    | _ => none
  match f? with
  | none => return .null
  | some f =>
    let width := decimals.toUInt64.toNat
    let factor := f64Powi (f64OfI64 10) decimals.toInt32
    let rounded := f64Div (f64Round (f64Mul f factor)) factor
    let intPart := i64ToString (f64ToI64 (f64Abs rounded))
    let frac ← checkedRem (f64ToI64 (f64Round (f64Mul (f64Abs rounded) factor))) (f64ToI64 factor)
    let formatted := groups intPart
    let sign : Str := if f64Lt f f64Zero then "-" else ""
    if width = 0 then return .text (sign ++ formatted)
    -- a format width is a `u16`
    else if 2 ^ 16 ≤ width then .error .panic
    else
      let digits := i64ToString frac
      return .text (sign ++ formatted ++ "." ++ List.replicate (width - digits.length) '0' ++ digits)
where
  groups (s : Str) : Str :=
    let start := s.length % 3
    let rec chunks : Nat → Str → List Str
      | 0, _ => []
      | n + 1, s => s.take 3 :: chunks n (s.drop 3)
    join "," ((if 0 < start then [s.take start] else []) ++ chunks (s.length / 3) (s.drop start))

/-- `TRUNCATE(x, d)`. -/
def truncateNumber (num : Value) (decimals : Int64) : Value :=
  let onFloat (f : F64) : Value :=
    if 0 ≤ decimals then
      let factor := f64Powi (f64OfI64 10) decimals.toInt32
      let truncated := f64Div (f64Trunc (f64Mul f factor)) factor
      if decimals = 0 then .int (f64ToI64 truncated) else .float truncated
    else
      let factor := f64Powi (f64OfI64 10) (-decimals).toInt32
      .int (f64ToI64 (f64Mul (f64Trunc (f64Div f factor)) factor))
  match num with
  | .int n => if 0 ≤ decimals then .int n else onFloat (f64OfI64 n)
  | .float f => onFloat f
  | .text s => onFloat ((f64Parse s).getD f64Zero)
  | _ => .null

/-- An optional argument that counts only when it is an integer. -/
def plainIntArg (args : List Value) (i : Nat) : Int64 :=
  match argAt args i with
  | .int n => n
  | _ => 0

def numericFunction (fname : Str) (args : List Value) : Option (Rust Value) :=
  match String.ofList fname with
  | "ABS" => some (pure (match argAt args 0 with
    | .int i => .int (wrappingAbs i)
    | .float f => .float (f64Abs f)
    | _ => .null))
  | "CEIL" | "CEILING" => some (pure (match argAt args 0 with
    | .float f => .int (f64ToI64 (f64Ceil f))
    | .int i => .int i
    | _ => .null))
  | "FLOOR" => some (pure (match argAt args 0 with
    | .float f => .int (f64ToI64 (f64Floor f))
    | .int i => .int i
    | _ => .null))
  | "ROUND" =>
    let dec := (intArg args 1).getD 0
    some (pure (match argAt args 0 with
      | .float f =>
        let m := f64Powi (f64OfI64 10) dec.toInt32
        .float (f64Div (f64Round (f64Mul f m)) m)
      | .int i => .int i
      | _ => .null))
  | "MOD" => some (match argAt args 0, argAt args 1 with
    | .int a, .int b => if b ≠ 0 then (checkedRem a b).map .int else pure .null
    | .float a, .float b => pure (if f64Eq b f64Zero then .null else .float (f64Rem a b))
    | _, _ => pure .null)
  | "POW" | "POWER" => some (pure (match argAt args 0, argAt args 1 with
    | .int b, .int e => if 0 ≤ e then .int (b ^ (e.toUInt64.toNat % 2 ^ 32)) else .null
    | .float b, .float e => .float (f64Powf b e)
    | .int b, .float e => .float (f64Powf (f64OfI64 b) e)
    | .float b, .int e => .float (f64Powi b e.toInt32)
    | _, _ => .null))
  | "SQRT" => some (pure (match argAt args 0 with
    | .float f => .float (f64Sqrt f)
    | .int i => .float (f64Sqrt (f64OfI64 i))
    | _ => .null))
  | "SIGN" => some (pure (match argAt args 0 with
    | .int n => .int (if 0 < n then 1 else if n < 0 then -1 else 0)
    | .float f => .int (if f64Lt f64Zero f then 1 else if f64Lt f f64Zero then -1 else 0)
    | _ => .null))
  | "FORMAT" => some (formatNumber (argAt args 0) (plainIntArg args 1))
  | "TRUNCATE" => some (pure (truncateNumber (argAt args 0) (plainIntArg args 1)))
  | _ => none

def dateFunction (now : Nat) (fname : Str) (args : List Value) : Option (Rust Value) :=
  match String.ofList fname with
  | "NOW" | "CURRENT_TIMESTAMP" | "SYSDATE" =>
    some (pure (.text (formatDate now ++ " " ++ formatTime now)))
  | "CURDATE" | "CURRENT_DATE" => some (pure (.text (formatDate now)))
  | "CURTIME" | "CURRENT_TIME" => some (pure (.text (formatTime now)))
  | "UNIX_TIMESTAMP" => some (pure (.int (Int64.ofNat now)))
  | "YEAR" => some (pure (datePart args fun s => (split '-' s).head?))
  | "MONTH" => some (pure (datePart args fun s => (splitn 3 '-' s)[1]?))
  | "DAY" | "DAYOFMONTH" =>
    some (pure (datePart args fun s => (splitn 4 '-' s)[2]?.bind fun d => (split ' ' d).head?))
  | "DATEDIFF" => some (pure (match (textArg args 0).bind parseDateStr, (textArg args 1).bind parseDateStr with
    | some a, some b => .int (a - b)
    | _, _ => .null))
  | "DATE_FORMAT" =>
    let d := (textArg args 0).getD []
    some (if d.isEmpty then pure .null
      else (mysqlDateFormat d ((textArg args 1).getD [])).map .text)
  | "DATE" => some (pure (onText args fun s => .text ((splitWhitespace s).headD [])))
  | "TIME" => some (pure (onText args fun s => .text ((splitWhitespace s).getD 1 "00:00:00")))
  | "STR_TO_DATE" => some (pure (strToDate ((textArg args 0).getD []) ((textArg args 1).getD [])))
  | _ => none
where
  datePart (args : List Value) (field : Str → Option Str) : Value :=
    (((textArg args 0).bind field).bind parseI64).elim .null .int

def conditionalFunction (fname : Str) (args : List Value) : Option (Rust Value) :=
  match String.ofList fname with
  | "IF" => some (pure (match argAt args 0 with
    | .int 0 | .null => argAt args 2
    | _ => argAt args 1))
  | "IFNULL" | "NVL" => some (pure (if (argAt args 0).isNull then argAt args 1 else argAt args 0))
  | "NULLIF" => some (pure (if valuesEq (argAt args 0) (argAt args 1) then .null else argAt args 0))
  | "COALESCE" => some (pure ((args.find? fun v => !v.isNull).getD .null))
  | "ISNULL" => some (pure (.ofBool (argAt args 0).isNull))
  | "GREATEST" => some (pure ((maxBy valuesCmp (args.filter fun v => !v.isNull)).getD .null))
  | "LEAST" => some (pure ((minBy valuesCmp (args.filter fun v => !v.isNull)).getD .null))
  | "FIELD" =>
    let pos := ((args.drop 1).findIdx? fun v => valuesEq (argAt args 0) v).map (· + 1)
    some (pure (.int (Int64.ofNat (pos.getD 0))))
  | _ => none

/-- The scalar function `fname` on evaluated arguments; an unknown name gives
null. -/
def callFunction (now : Nat) (fname : Str) (args : List Value) : Rust Value :=
  ((textFunction fname args).or <| (numericFunction fname args).or <|
    (dateFunction now fname args).or <| conditionalFunction fname args).getD (pure .null)

end RunAlexDb
