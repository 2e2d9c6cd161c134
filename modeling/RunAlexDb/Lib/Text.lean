import Mathlib.Algebra.Ring.Int.Defs
import Mathlib.Algebra.Ring.Nat
import Mathlib.Data.List.Infix

/-!
# Text — Rust strings as lists of characters

A Rust `str` is modelled by the list of its characters. Positions are byte
offsets of the UTF-8 encoding, as in Rust: `find` returns one, and slicing at
an offset that is past the end or inside a character fails (`none`), which is
where the Rust program panics.

The functions keep the names of the `str` methods they stand for. Case mapping
tables are not here: they are a parameter of whoever needs them.
-/

namespace Text

/-- A Rust string: its characters, in order. -/
abbrev Str := List Char

instance : Coe String Str := ⟨String.toList⟩

-- ---------------------------------------------------------------------------
-- Bytes and slices
-- ---------------------------------------------------------------------------

/-- `str::len`: the number of bytes. -/
def byteLen (s : Str) : Nat := (s.map Char.utf8Size).sum

/-- `&s[n..]`; `none` where Rust panics. -/
def sliceFrom : Str → Nat → Option Str
  | s, 0 => some s
  | [], _ + 1 => none
  | c :: s, n => if c.utf8Size ≤ n then sliceFrom s (n - c.utf8Size) else none

/-- `&s[..n]`; `none` where Rust panics. -/
def sliceTo : Str → Nat → Option Str
  | _, 0 => some []
  | [], _ + 1 => none
  | c :: s, n => if c.utf8Size ≤ n then (sliceTo s (n - c.utf8Size)).map (c :: ·) else none

/-- `&s[a..b]`; `none` where Rust panics. -/
def slice (s : Str) (a b : Nat) : Option Str :=
  if a ≤ b then (sliceFrom s a).bind (sliceTo · (b - a)) else none

/-- `str::as_bytes`. -/
def bytes (s : Str) : List UInt8 := s.flatMap String.utf8EncodeChar

-- ---------------------------------------------------------------------------
-- Searching
-- ---------------------------------------------------------------------------

def startsWith (s pat : Str) : Bool := pat.isPrefixOf s

def endsWith (s pat : Str) : Bool := pat.isSuffixOf s

/-- `str::contains` of a string pattern. -/
def contains : Str → Str → Bool
  | [], pat => pat.isEmpty
  | c :: s, pat => pat.isPrefixOf (c :: s) || contains s pat

/-- Byte offset of the first occurrence of `pat`, counted from `off`. -/
def findFrom (off : Nat) : Str → Str → Option Nat
  | [], pat => if pat.isEmpty then some off else none
  | c :: s, pat => if pat.isPrefixOf (c :: s) then some off else findFrom (off + c.utf8Size) s pat

/-- `str::find` of a string pattern. -/
def find (s pat : Str) : Option Nat := findFrom 0 s pat

/-- `s.find(p).unwrap_or(s.len())` used as a cut: the part before the first
character that satisfies `p`. -/
def before (p : Char → Bool) (s : Str) : Str := s.takeWhile fun c => !p c

/-- Text around the first `c`: `s[..i]` and `s[i + 1..]` for `i = s.find(c)`. -/
def splitOnce (c : Char) : Str → Option (Str × Str)
  | [] => none
  | x :: s => if x = c then some ([], s) else (splitOnce c s).map fun p => (x :: p.1, p.2)

/-- What follows the first occurrence of `pat`. -/
def after (pat : Str) : Str → Option Str
  | [] => if pat.isEmpty then some [] else none
  | c :: s => if pat.isPrefixOf (c :: s) then some ((c :: s).drop pat.length) else after pat s

-- ---------------------------------------------------------------------------
-- Trimming
-- ---------------------------------------------------------------------------

/-- `char::is_whitespace`: the Unicode `White_Space` property. -/
def isWhitespace (c : Char) : Bool :=
  let n := c.toNat
  (9 ≤ n && n ≤ 13) || n == 0x20 || n == 0x85 || n == 0xA0 || n == 0x1680 ||
    (0x2000 ≤ n && n ≤ 0x200A) || n == 0x2028 || n == 0x2029 || n == 0x202F ||
    n == 0x205F || n == 0x3000

def trimStartMatches (p : Char → Bool) (s : Str) : Str := s.dropWhile p

def trimEndMatches (p : Char → Bool) (s : Str) : Str := (s.reverse.dropWhile p).reverse

def trimStart (s : Str) : Str := trimStartMatches isWhitespace s

def trimEnd (s : Str) : Str := trimEndMatches isWhitespace s

def trim (s : Str) : Str := trimEnd (trimStart s)

/-- `str::trim_matches` of a character pattern. -/
def trimMatches (c : Char) (s : Str) : Str := trimEndMatches (· == c) (trimStartMatches (· == c) s)

/-- `str::trim_start_matches` of a string pattern: every leading copy goes. -/
def trimStartPat (pat : Str) (s : Str) : Str := go s.length s
where
  go : Nat → Str → Str
    | 0, s => s
    | n + 1, s => if pat ≠ [] ∧ pat.isPrefixOf s then go n (s.drop pat.length) else s

-- ---------------------------------------------------------------------------
-- Splitting and joining
-- ---------------------------------------------------------------------------

/-- `str::split` of a character. -/
def split (c : Char) (s : Str) : List Str := s.splitOnP (· == c)

/-- `str::splitn` of a character: at most `n` pieces. -/
def splitn : Nat → Char → Str → List Str
  | 0, _, _ => []
  | 1, _, s => [s]
  | n + 2, c, s =>
    match splitOnce c s with
    | none => [s]
    | some (a, b) => a :: splitn (n + 1) c b

def splitWhitespace (s : Str) : List Str := (s.splitOnP isWhitespace).filter (· ≠ [])

/-- `str::lines`: the text between line feeds, a carriage return before one
dropped, no line after a last line feed. -/
def lines (s : Str) : List Str :=
  let parts := s.splitOnP (· == '\n')
  let parts := if parts.getLast? = some [] then parts.dropLast else parts
  parts.map fun l => if l.getLast? = some '\r' then l.dropLast else l

/-- `[..].join(sep)`. -/
def join (sep : Str) : List Str → Str
  | [] => []
  | [s] => s
  | s :: rest => s ++ sep ++ join sep rest

/-- `str::replace` of one character. -/
def replaceChar (c : Char) (new : Str) (s : Str) : Str :=
  s.flatMap fun x => if x = c then new else [x]

/-- `str::replace` of a string pattern; an empty pattern matches between all
characters. -/
def replace (s pat new : Str) : Str :=
  if pat = [] then new ++ s.flatMap (fun c => c :: new) else go s.length s
where
  go : Nat → Str → Str
    | 0, s => s
    | _ + 1, [] => []
    | n + 1, c :: s =>
      if pat.isPrefixOf (c :: s) then new ++ go n ((c :: s).drop pat.length) else c :: go n s

-- ---------------------------------------------------------------------------
-- Order and case
-- ---------------------------------------------------------------------------

/-- `str::cmp`: byte order, which for UTF-8 is code point order. -/
def cmpStr : Str → Str → Ordering
  | [], [] => .eq
  | [], _ :: _ => .lt
  | _ :: _, [] => .gt
  | a :: s, b :: t => if a.toNat < b.toNat then .lt else if b.toNat < a.toNat then .gt else cmpStr s t

def toAsciiLowercase (s : Str) : Str := s.map Char.toLower

def eqIgnoreAsciiCase (s t : Str) : Bool := toAsciiLowercase s == toAsciiLowercase t

-- ---------------------------------------------------------------------------
-- Numbers
-- ---------------------------------------------------------------------------

/-- Value of a nonempty run of ASCII digits. -/
def parseNat (s : Str) : Option Nat :=
  if s ≠ [] ∧ s.all Char.isDigit then
    some (s.foldl (fun n c => 10 * n + (c.toNat - '0'.toNat)) 0)
  else none

/-- `str::parse::<i64>`: an optional sign and decimal digits, within range. -/
def parseI64 (s : Str) : Option Int64 :=
  let signed : Option Int :=
    match s with
    | '-' :: r => (parseNat r).map fun n => -(n : Int)
    | '+' :: r => (parseNat r).map fun n => (n : Int)
    | r => (parseNat r).map fun n => (n : Int)
  signed.bind fun i => if -2 ^ 63 ≤ i ∧ i < 2 ^ 63 then some (Int64.ofInt i) else none

/-- `str::parse::<usize>` on a 64-bit target. -/
def parseUsize (s : Str) : Option Nat :=
  let digits := match s with
    | '+' :: r => r
    | r => r
  (parseNat digits).bind fun n => if n < 2 ^ 64 then some n else none

/-- `usize::to_string`. -/
def natToString (n : Nat) : Str := Nat.toDigits 10 n

/-- `i64::to_string`. -/
def i64ToString (i : Int64) : Str :=
  if i.toInt < 0 then '-' :: natToString i.toInt.natAbs else natToString i.toInt.natAbs

theorem isDigit_natToString {n : Nat} {c : Char} (h : c ∈ natToString n) : c.isDigit = true :=
  Nat.isDigit_of_mem_toDigits (by decide) (by decide) h

theorem parseNat_natToString (n : Nat) : parseNat (natToString n) = some n := by
  have hDigits : natToString n ≠ [] ∧ (natToString n).all Char.isDigit := by
    exact ⟨Nat.toDigits_ne_nil, List.all_eq_true.2 fun c hc => isDigit_natToString hc⟩
  rw [parseNat, if_pos hDigits]
  exact congrArg some Nat.ofDigitChars_ten_toDigits

theorem natToString_inj {m n : Nat} : natToString m = natToString n ↔ m = n := by
  constructor
  · intro h
    have hParse := parseNat_natToString m
    rw [h, parseNat_natToString] at hParse
    exact (Option.some.inj hParse).symm
  · rintro rfl
    rfl

/-- Reading a sign off a text that starts with a digit. -/
theorem natToString_cons (n : Nat) : ∃ c r, natToString n = c :: r ∧ c ≠ '-' ∧ c ≠ '+' := by
  cases h : natToString n with
  | nil => exact absurd h Nat.toDigits_ne_nil
  | cons c r =>
    have hDigit : c.isDigit = true := isDigit_natToString (n := n) (by rw [h]; exact List.mem_cons_self ..)
    refine ⟨c, r, rfl, ?_, ?_⟩ <;> rintro rfl <;> revert hDigit <;> decide

/-- **Integers read back.** An integer that is printed and parsed is itself. -/
theorem parseI64_i64ToString (i : Int64) : parseI64 (i64ToString i) = some i := by
  have hRange : -2 ^ 63 ≤ i.toInt ∧ i.toInt < 2 ^ 63 := ⟨i.le_toInt, i.toInt_lt⟩
  rw [i64ToString]
  split
  · rename_i hNeg
    have hAbs : -(i.toInt.natAbs : Int) = i.toInt := by omega
    simp only [parseI64, parseNat_natToString, Option.bind_eq_bind, Option.bind_some,
      Option.pure_def, Option.map_some, hAbs]
    rw [if_pos hRange, Int64.ofInt_toInt]
  · rename_i hPos
    have hAbs : (i.toInt.natAbs : Int) = i.toInt := by omega
    obtain ⟨c, r, hText, hMinus, hPlus⟩ := natToString_cons i.toInt.natAbs
    have hParse := parseNat_natToString i.toInt.natAbs
    rw [hText] at hParse ⊢
    rw [parseI64, hParse]
    · simp only [Option.bind_eq_bind, Option.bind_some, Option.pure_def, Option.map_some, hAbs]
      rw [if_pos hRange, Int64.ofInt_toInt]
    · exact fun _ hEq => hMinus (List.cons.inj hEq).1
    · exact fun _ hEq => hPlus (List.cons.inj hEq).1

theorem i64ToString_inj {i j : Int64} : i64ToString i = i64ToString j ↔ i = j := by
  constructor
  · intro h
    have hParse := parseI64_i64ToString i
    rw [h, parseI64_i64ToString] at hParse
    exact (Option.some.inj hParse).symm
  · rintro rfl
    rfl

/-- `{:0width}` of a nonnegative number. -/
def padZero (width n : Nat) : Str :=
  List.replicate (width - (natToString n).length) '0' ++ natToString n

/-- `{:0width}` of an integer: the sign counts towards the width. -/
def padZeroInt (width : Nat) (i : Int) : Str :=
  if i < 0 then '-' :: padZero (width - 1) i.natAbs else padZero width i.natAbs

def hexDigit (n : Nat) : Char := "0123456789abcdef".toList.getD n '0'

/-- `hex::encode`. -/
def hexEncode (b : List UInt8) : Str :=
  b.flatMap fun x => [hexDigit (x.toNat / 16), hexDigit (x.toNat % 16)]

-- ---------------------------------------------------------------------------
-- Texts without a character
-- ---------------------------------------------------------------------------

theorem splitOnce_eq_none {c : Char} {s : Str} (h : c ∉ s) : splitOnce c s = none := by
  induction s with
  | nil => rfl
  | cons x s ih =>
    rw [List.mem_cons, not_or] at h
    rw [splitOnce, if_neg (Ne.symm h.1), ih h.2]
    rfl

theorem splitOnce_append {c : Char} {a : Str} (h : c ∉ a) (b : Str) :
    splitOnce c (a ++ c :: b) = some (a, b) := by
  induction a with
  | nil => exact if_pos rfl
  | cons x a ih =>
    rw [List.mem_cons, not_or] at h
    rw [List.cons_append, splitOnce, if_neg (Ne.symm h.1), ih h.2]
    rfl

theorem dropWhile_of_notMem {c : Char} {s : Str} (h : c ∉ s) : s.dropWhile (· == c) = s := by
  cases s with
  | nil => rfl
  | cons x s =>
    rw [List.mem_cons, not_or] at h
    exact List.dropWhile_cons_of_neg (by simpa using Ne.symm h.1)

theorem trimMatches_self {c : Char} {s : Str} (h : c ∉ s) : trimMatches c s = s := by
  rw [trimMatches, trimStartMatches, trimEndMatches, dropWhile_of_notMem h,
    dropWhile_of_notMem (by rwa [List.mem_reverse]), List.reverse_reverse]

theorem dropWhile_cons_self (c : Char) (s : Str) :
    (c :: s).dropWhile (· == c) = s.dropWhile (· == c) :=
  List.dropWhile_cons_of_pos (p := (· == c)) (beq_self_eq_true c)

/-- Quotes around a text that has none come off. -/
theorem trimMatches_quoted {c : Char} {s : Str} (h : c ∉ s) : trimMatches c (c :: s ++ [c]) = s := by
  have hEnd : trimEndMatches (· == c) (s ++ [c]) = s := by
    rw [trimEndMatches, List.reverse_append, List.reverse_singleton, List.singleton_append,
      dropWhile_cons_self,
      dropWhile_of_notMem (by rwa [List.mem_reverse]), List.reverse_reverse]
  rw [trimMatches, trimStartMatches, List.cons_append, dropWhile_cons_self]
  cases s with
  | nil =>
    rw [List.nil_append, dropWhile_cons_self]
    rfl
  | cons x s =>
    rw [List.mem_cons, not_or] at h
    rw [List.cons_append, List.dropWhile_cons_of_neg (by simpa using Ne.symm h.1)]
    exact hEnd
-- ---------------------------------------------------------------------------
-- Bytes that claim to be UTF-8
-- ---------------------------------------------------------------------------

/-- Length of the sequence a lead byte announces, with the range its second
byte must lie in; `none` for a byte that starts no sequence. -/
def utf8Lead (b : Nat) : Option (Nat × Nat × Nat) :=
  if b < 0x80 then some (1, 0, 0)
  else if 0xC2 ≤ b ∧ b ≤ 0xDF then some (2, 0x80, 0xBF)
  else if b = 0xE0 then some (3, 0xA0, 0xBF)
  else if b = 0xED then some (3, 0x80, 0x9F)
  else if 0xE1 ≤ b ∧ b ≤ 0xEF then some (3, 0x80, 0xBF)
  else if b = 0xF0 then some (4, 0x90, 0xBF)
  else if 0xF1 ≤ b ∧ b ≤ 0xF3 then some (4, 0x80, 0xBF)
  else if b = 0xF4 then some (4, 0x80, 0x8F)
  else none

/-- How many of the `n` bytes expected after a lead byte are there. -/
def continuation (lo hi : Nat) : Nat → List UInt8 → List Nat
  | n + 1, b :: rest =>
    if lo ≤ b.toNat ∧ b.toNat ≤ hi then b.toNat :: continuation 0x80 0xBF n rest else []
  | _, _ => []

/-- `String::from_utf8_lossy`: each maximal broken prefix of a sequence becomes
one replacement character. -/
def fromUtf8Lossy (b : List UInt8) : Str := go b.length b
where
  go : Nat → List UInt8 → Str
    | 0, _ => []
    | _ + 1, [] => []
    | n + 1, x :: rest =>
      match utf8Lead x.toNat with
      | none => '\uFFFD' :: go n rest
      | some (len, lo, hi) =>
        let tail := continuation lo hi (len - 1) rest
        if tail.length = len - 1 then
          let lead := if len = 1 then x.toNat else x.toNat % 2 ^ (7 - len)
          Char.ofNat (tail.foldl (fun a t => a * 64 + t % 64) lead) :: go n (rest.drop tail.length)
        else '\uFFFD' :: go n (rest.drop tail.length)

example : fromUtf8Lossy [0x61, 0xC3, 0xA9, 0xE2, 0x82, 0x62] = ("aé\uFFFDb" : Str) := by decide

end Text
