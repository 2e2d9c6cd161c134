import RunAlexDb.Model.Platform

/-!
# Concrete — a platform to run the model on

SHA-1 and the ASCII part of the case tables as they are; the parser is a table
of the texts a run uses. There is no floating point here: a run that needs it
does not fit on this platform.
-/

namespace RunAlexDb

open Text

-- ---------------------------------------------------------------------------
-- SHA-1
-- ---------------------------------------------------------------------------

namespace Sha1

def rotl (x : UInt32) (n : UInt32) : UInt32 := (x <<< n) ||| (x >>> (32 - n))

/-- The message with its 1 bit, zeros and 64-bit length. -/
def pad (msg : List UInt8) : List UInt8 :=
  let zeros := (119 - msg.length % 64) % 64
  let bits := 8 * msg.length
  msg ++ 0x80 :: List.replicate zeros 0 ++
    (List.range 8).map fun i => UInt8.ofNat (bits / 256 ^ (7 - i))

def word (b : List UInt8) : UInt32 := b.foldl (fun acc x => acc * 256 + x.toUInt32) 0

/-- The words of a block, newest first, extended to `16 + n`. -/
def schedule (ws : List UInt32) : Nat → List UInt32
  | 0 => ws
  | n + 1 =>
    let w := rotl (ws.getD 2 0 ^^^ ws.getD 7 0 ^^^ ws.getD 13 0 ^^^ ws.getD 15 0) 1
    schedule (w :: ws) n

structure State where
  a : UInt32
  b : UInt32
  c : UInt32
  d : UInt32
  e : UInt32

def round (s : State) (t : Nat) (w : UInt32) : State :=
  let f : UInt32 :=
    if t < 20 then (s.b &&& s.c) ||| (~~~s.b &&& s.d)
    else if t < 40 then s.b ^^^ s.c ^^^ s.d
    else if t < 60 then (s.b &&& s.c) ||| (s.b &&& s.d) ||| (s.c &&& s.d)
    else s.b ^^^ s.c ^^^ s.d
  let k : UInt32 :=
    if t < 20 then 0x5A827999 else if t < 40 then 0x6ED9EBA1
    else if t < 60 then 0x8F1BBCDC else 0xCA62C1D6
  ⟨rotl s.a 5 + f + s.e + k + w, s.a, rotl s.b 30, s.c, s.d⟩

def rounds (s : State) (t : Nat) : List UInt32 → State
  | [] => s
  | w :: ws => rounds (round s t w) (t + 1) ws

def block (s : State) (b : List UInt8) : State :=
  let ws := (List.range 16).map fun i => word ((b.drop (4 * i)).take 4)
  let s' := rounds s 0 (schedule ws.reverse 64).reverse
  ⟨s.a + s'.a, s.b + s'.b, s.c + s'.c, s.d + s'.d, s.e + s'.e⟩

def blocks (s : State) (msg : List UInt8) : Nat → State
  | 0 => s
  | n + 1 => blocks (block s (msg.take 64)) (msg.drop 64) n

def bytesOf (w : UInt32) : List UInt8 :=
  [(w >>> 24).toUInt8, (w >>> 16).toUInt8, (w >>> 8).toUInt8, w.toUInt8]

def digest (msg : List UInt8) : List UInt8 :=
  let m := pad msg
  let s := blocks ⟨0x67452301, 0xEFCDAB89, 0x98BADCFE, 0x10325476, 0xC3D2E1F0⟩ m (m.length / 64)
  [s.a, s.b, s.c, s.d, s.e].flatMap bytesOf

end Sha1

-- ---------------------------------------------------------------------------
-- The platform
-- ---------------------------------------------------------------------------

/-- Display of the plain expressions. -/
def plainExprToString (escape : Str → Char → Str) : Expr → Str
  | .identifier i => i.value
  | .value (.singleQuotedString s) => '\'' :: escape s '\'' ++ ['\'']
  | .value (.number n _) => n
  | .value .null => "NULL"
  | _ => []

/-- A quote in a quoted string is written twice. -/
def doubleQuote (s : Str) (q : Char) : Str := s.flatMap fun c => if c = q then [q, q] else [c]

theorem doubleQuote_of_notMem {s : Str} {q : Char} (h : q ∉ s) : doubleQuote s q = s := by
  unfold doubleQuote
  induction s with
  | nil => rfl
  | cons c s ih =>
    rw [List.mem_cons, not_or] at h
    rw [List.flatMap_cons, if_neg (Ne.symm h.1), ih h.2]
    rfl

/-- The statements the table gives for a text; every other text is an error. -/
def parseByTable (table : List (Str × List Statement)) (sql : Str) :
    Except Str (List Statement) :=
  match table.lookup sql with
  | some stmts => .ok stmts
  | none => .error "sql parser error"

/-- The platform whose parser is the given table. -/
@[reducible] def tablePlatform (table : List (Str × List Statement)) : Platform where
  toUppercase s := s.map Char.toUpper
  toLowercase s := s.map Char.toLower
  parseSql := parseByTable table
  exprToString := plainExprToString doubleQuote
  queryToString _ := []
  functionArgumentsToString _ := []
  escapeQuotedString := doubleQuote
  sha1 := Sha1.digest
  hasSse42 := true
  stackDepth := 1000
  f64OfI64 i := ⟨i.toUInt64⟩
  f64ToI64 f := f.bits.toInt64
  f64Add _ _ := ⟨0⟩
  f64Sub _ _ := ⟨0⟩
  f64Mul _ _ := ⟨0⟩
  f64Div _ _ := ⟨0⟩
  f64Rem _ _ := ⟨0⟩
  f64Neg _ := ⟨0⟩
  f64Abs _ := ⟨0⟩
  f64Ceil _ := ⟨0⟩
  f64Floor _ := ⟨0⟩
  f64Round _ := ⟨0⟩
  f64Trunc _ := ⟨0⟩
  f64Sqrt _ := ⟨0⟩
  f64Fract _ := ⟨0⟩
  f64Powf _ _ := ⟨0⟩
  f64Powi _ _ := ⟨0⟩
  f64Min a _ := a
  f64Max a _ := a
  f64SumInit := ⟨0⟩
  f64PartialCmp _ _ := none
  f64Parse _ := none
  f64ToString _ := []
  f64ToFixed _ _ := []
  f32ToString _ := []

example : hexEncode (Sha1.digest []) = ("da39a3ee5e6b4b0d3255bfef95601890afd80709" : Str) := by
  decide +kernel

end RunAlexDb
