import RunAlexDb.Model.Concrete
import RunAlexDb.Query.Applications
import RunAlexDb.Query.DayNumbers

/-!
# EvalFaults — divisions and indexes of the evaluator

The operators and functions of the evaluator divide integers and cut and index
texts and tables. Divisors are tested for zero before, but not the smallest integer
by -1, and not after a float has become an integer; the table of month lengths is
indexed by a month that is not tested.

Main results: `evalRowExpr_safe_iff` and `evalRowExpr_returns_iff`.
-/

set_option linter.unusedSectionVars false

namespace RunAlexDb

open Text Platform Calls

section Faults

variable [Platform]

-- ---------------------------------------------------------------------------
-- Operations
-- ---------------------------------------------------------------------------

/-- What can go wrong: a division or remainder of integers, an index into a table, a
cut. Divisions by a constant are left out. -/
inductive PartialOp
  | divide (a b : Int64)
  | index (i length : Nat)
  | cut (i j length : Nat)

def PartialOp.Ok : PartialOp → Prop
  | .divide a b => b ≠ 0 ∧ ¬(a = Int64.minValue ∧ b = -1)
  | .index i length => i < length
  | .cut i j length => i ≤ j ∧ j ≤ length

/-- The division of an operator, behind its test of the divisor. -/
def divisionOf : BinaryOperator → Value → Value → List PartialOp
  | .divide, .int a, .int b => if b ≠ 0 then [.divide a b] else []
  | .modulo, .int a, .int b => if b ≠ 0 then [.divide a b] else []
  | .myIntegerDivide, .int a, .int b => if b ≠ 0 then [.divide a b] else []
  | .myIntegerDivide, .float a, .int b => if b ≠ 0 then [.divide (f64ToI64 a) b] else []
  | .myIntegerDivide, .int a, .float b => if f64Eq b f64Zero then [] else [.divide a (f64ToI64 b)]
  | _, _, _ => []

/-- The number `FORMAT` is of. -/
def formatted : Value → Option F64
  | .int n => some (f64OfI64 n)
  | .float f => some f
  | .text s => some ((f64Parse s).getD f64Zero)
  | _ => none

/-- `10f64.powi(decimals as i32)` -/
def formatFactor (decimals : Int64) : F64 := f64Powi (f64OfI64 10) decimals.toInt32

/-- The number rounded to so many digits, without its sign. -/
def formatRounded (f : F64) (decimals : Int64) : F64 :=
  f64Abs (f64Div (f64Round (f64Mul f (formatFactor decimals))) (formatFactor decimals))

/-- The digits behind the point before they are cut to size, as an integer. -/
def formatScaled (f : F64) (decimals : Int64) : Int64 :=
  f64ToI64 (f64Round (f64Mul (formatRounded f decimals) (formatFactor decimals)))

/-- The remainder and the groups of three digits of `FORMAT`. -/
def formatOperations (f : F64) (decimals : Int64) : List PartialOp :=
  let length := (i64ToString (f64ToI64 (formatRounded f decimals))).length
  .divide (formatScaled f decimals) (f64ToI64 (formatFactor decimals)) ::
    (.cut 0 (length % 3) length ::
      (List.range (length / 3)).map fun k => .cut (length % 3 + 3 * k) (length % 3 + 3 * k + 3) length)

/-- The second number of a date text, as `DATE_FORMAT` reads it. -/
def formatMonth (date : Str) : Int64 :=
  ((splitn 3 '-' ((splitn 2 ' ' (trim date)).getD 0 [])).filterMap parseI64).getD 1 0

/-- The day of the week, from Sunday on. -/
def weekday (days : Int64) : Int64 := ((days % 7 + 4) % 7 + 7) % 7

/-- The codes of a format. -/
def formatCodes : Str → List Char
  | [] => []
  | ['%'] => []
  | '%' :: c :: rest => c :: formatCodes rest
  | _ :: rest => formatCodes rest

/-- The tables and names a code of `DATE_FORMAT` reads. -/
def codeOperations (month : Int64) (day : Int64) : Char → List PartialOp
  | 'M' => if 0 < month ∧ month ≤ 12 then [.index (month - 1).toUInt64.toNat 12] else []
  | 'b' =>
    if 0 < month ∧ month ≤ 12 then
      [.index (month - 1).toUInt64.toNat 12,
        .cut 0 3 (monthNames.getD (month - 1).toUInt64.toNat []).length] else []
  | 'j' => (List.range (month.toInt - 1).toNat).map fun i => .index i 12
  | 'W' => [.index day.toUInt64.toNat 7]
  | 'a' => [.index day.toUInt64.toNat 7, .cut 0 3 (weekdayNames.getD day.toUInt64.toNat []).length]
  | _ => []

def dateFormatOperations (date fmt : Str) : List PartialOp :=
  (formatCodes fmt).flatMap
    (codeOperations (formatMonth date) (weekday ((parseDateStr ((splitn 2 ' ' (trim date)).getD 0 [])).getD 0)))

/-- The operations of a function on its arguments. -/
def callOperations (fname : Str) (args : List Value) : List PartialOp :=
  match String.ofList fname with
  | "MOD" =>
    match argAt args 0, argAt args 1 with
    | .int a, .int b => if b ≠ 0 then [.divide a b] else []
    | _, _ => []
  | "FORMAT" => (formatted (argAt args 0)).elim [] fun f => formatOperations f (plainIntArg args 1)
  | "DATE_FORMAT" =>
    if ((textArg args 0).getD []).isEmpty then []
    else dateFormatOperations ((textArg args 0).getD []) ((textArg args 1).getD [])
  | "RIGHT" =>
    let length := ((textArg args 0).getD []).length
    [.cut (length - toUsize ((intArg args 1).getD 0)) length length]
  | "SUBSTRING" | "SUBSTR" | "MID" =>
    let length := ((textArg args 0).getD []).length
    [.cut (min (toUsize (max 1 ((intArg args 1).getD 1)) - 1) length) length length]
  | _ => []

def Application.operations : Application → List PartialOp
  | .binary op l r => divisionOf op l r
  | .call fname args => callOperations fname args

/-- No operation of the application goes wrong. -/
def Application.Safe (app : Application) : Prop := ∀ o ∈ app.operations, o.Ok

-- ---------------------------------------------------------------------------
-- The corners
-- ---------------------------------------------------------------------------

/-- The smallest integer by -1. -/
def SmallestByMinusOne (a b : Int64) : Prop := a = Int64.minValue ∧ b = -1

/-- The operands on which an operator faults. -/
def OperatorFaults : BinaryOperator → Value → Value → Prop
  | .divide, .int a, .int b => SmallestByMinusOne a b
  | .modulo, .int a, .int b => SmallestByMinusOne a b
  | .myIntegerDivide, .int a, .int b => SmallestByMinusOne a b
  | .myIntegerDivide, .float a, .int b => SmallestByMinusOne (f64ToI64 a) b
  | .myIntegerDivide, .int a, .float b =>
    f64Eq b f64Zero = false ∧ (f64ToI64 b = 0 ∨ SmallestByMinusOne a (f64ToI64 b))
  | _, _, _ => False

/-- The arguments on which a function faults. -/
def FunctionFaults (fname : Str) (args : List Value) : Prop :=
  match String.ofList fname with
  | "MOD" => ∃ a b, argAt args 0 = .int a ∧ argAt args 1 = .int b ∧ SmallestByMinusOne a b
  | "FORMAT" =>
    ∃ f, formatted (argAt args 0) = some f ∧
      (f64ToI64 (formatFactor (plainIntArg args 1)) = 0 ∨
        SmallestByMinusOne (formatScaled f (plainIntArg args 1)) (f64ToI64 (formatFactor (plainIntArg args 1))))
  | "DATE_FORMAT" =>
    (textArg args 0).getD [] ≠ [] ∧ 13 < formatMonth ((textArg args 0).getD []) ∧
      'j' ∈ formatCodes ((textArg args 1).getD [])
  | _ => False

def Application.Faults : Application → Prop
  | .binary op l r => OperatorFaults op l r
  | .call fname args => FunctionFaults fname args

-- ---------------------------------------------------------------------------
-- Operators
-- ---------------------------------------------------------------------------

theorem ok_divide {a b : Int64} : (PartialOp.divide a b).Ok ↔ b ≠ 0 ∧ ¬SmallestByMinusOne a b := Iff.rfl

/-- A division behind a test of its divisor. -/
theorem tested_iff (a b : Int64) :
    (∀ o ∈ (if b ≠ 0 then [PartialOp.divide a b] else []), o.Ok) ↔ ¬SmallestByMinusOne a b := by
  split_ifs with hZero
  · rw [List.forall_mem_singleton, ok_divide]
    exact and_iff_right hZero
  · refine iff_of_true (fun _ hIn => nomatch hIn) fun hCorner => ?_
    rw [not_not.1 hZero] at hCorner
    exact absurd hCorner.2 (by decide)

theorem divisionOf_ok_iff (op : BinaryOperator) (l r : Value) :
    (∀ o ∈ divisionOf op l r, o.Ok) ↔ ¬OperatorFaults op l r := by
  unfold divisionOf OperatorFaults
  split
  · exact tested_iff _ _
  · exact tested_iff _ _
  · exact tested_iff _ _
  · exact tested_iff _ _
  · split_ifs with hZero
    · refine iff_of_true (fun _ hIn => nomatch hIn) fun hCorner => ?_
      rw [hZero] at hCorner
      exact Bool.noConfusion hCorner.1
    · rw [List.forall_mem_singleton, ok_divide, ← not_or]
      exact not_congr (and_iff_right (Bool.eq_false_iff.2 hZero)).symm
  · exact iff_of_true (fun _ hIn => nomatch hIn) id

-- ---------------------------------------------------------------------------
-- FORMAT
-- ---------------------------------------------------------------------------

theorem formatOperations_ok_iff (f : F64) (decimals : Int64) :
    (∀ o ∈ formatOperations f decimals, o.Ok) ↔
      ¬(f64ToI64 (formatFactor decimals) = 0 ∨
        SmallestByMinusOne (formatScaled f decimals) (f64ToI64 (formatFactor decimals))) := by
  unfold formatOperations
  dsimp only
  generalize (i64ToString (f64ToI64 (formatRounded f decimals))).length = length
  rw [List.forall_mem_cons, ok_divide, List.forall_mem_cons, not_or]
  refine and_iff_left ⟨⟨Nat.zero_le _, Nat.mod_le _ _⟩, fun o hIn => ?_⟩
  obtain ⟨k, hk, rfl⟩ := List.mem_map.1 hIn
  rw [List.mem_range] at hk
  show length % 3 + 3 * k ≤ length % 3 + 3 * k + 3 ∧ length % 3 + 3 * k + 3 ≤ length
  omega

-- ---------------------------------------------------------------------------
-- DATE_FORMAT
-- ---------------------------------------------------------------------------

theorem weekday_lt (days : Int64) : (weekday days).toUInt64.toNat < 7 := by
  have hSeven : (7 : Int64).toInt = 7 := rfl
  have hBound : ∀ i : Int, -7 < i.tmod 7 ∧ i.tmod 7 < 7 := fun i =>
    ⟨Int.lt_tmod_of_pos i (by decide), Int.tmod_lt_of_pos i (by decide)⟩
  obtain ⟨hLow, hHigh⟩ := hBound days.toInt
  have hFour : (days % 7 + 4).toInt = days.toInt.tmod 7 + 4 := by
    rw [Int64.toInt_add, Int64.toInt_mod, hSeven]
    exact Int.bmod_eq_of_le (by show _ ≤ days.toInt.tmod 7 + 4; omega) (by show days.toInt.tmod 7 + 4 < _; omega)
  obtain ⟨hLow', hHigh'⟩ := hBound (days.toInt.tmod 7 + 4)
  have hPos : ((days % 7 + 4) % 7 + 7).toInt = (days.toInt.tmod 7 + 4).tmod 7 + 7 := by
    rw [Int64.toInt_add, Int64.toInt_mod, hFour, hSeven]
    exact Int.bmod_eq_of_le (by show _ ≤ (days.toInt.tmod 7 + 4).tmod 7 + 7; omega)
      (by show (days.toInt.tmod 7 + 4).tmod 7 + 7 < _; omega)
  have hDay : (weekday days).toInt = ((days.toInt.tmod 7 + 4).tmod 7 + 7) % 7 := by
    unfold weekday
    rw [Int64.toInt_mod, hPos, hSeven]
    exact Int.tmod_eq_emod_of_nonneg (by omega)
  have hNonneg : 0 ≤ weekday days := by
    rw [Int64.le_iff_toInt_le, hDay]
    show (0 : Int) ≤ _
    omega
  rw [Int64.toNat_toUInt64_of_le hNonneg]
  unfold Int64.toNatClampNeg
  rw [hDay]
  omega

theorem month_lt {m : Int64} (h : 0 < m ∧ m ≤ 12) : (m - 1).toUInt64.toNat < 12 := by
  have hLow : 0 < m.toInt := Int64.lt_iff_toInt_lt.1 h.1
  have hHigh : m.toInt ≤ 12 := Int64.le_iff_toInt_le.1 h.2
  have hSub : (m - 1).toInt = m.toInt - 1 := by
    rw [Int64.toInt_sub]
    exact Int.bmod_eq_of_le (by show _ ≤ m.toInt - 1; omega) (by show m.toInt - 1 < _; omega)
  have hNonneg : 0 ≤ m - 1 := by
    rw [Int64.le_iff_toInt_le, hSub]
    show (0 : Int) ≤ _
    omega
  rw [Int64.toNat_toUInt64_of_le hNonneg]
  unfold Int64.toNatClampNeg
  rw [hSub]
  omega

theorem monthName_length {i : Nat} (h : i < 12) : 3 ≤ (monthNames.getD i []).length := by
  interval_cases i <;> decide

theorem weekdayName_length {i : Nat} (h : i < 7) : 3 ≤ (weekdayNames.getD i []).length := by
  interval_cases i <;> decide

/-- Only the day of the year reads behind its table. -/
theorem codeOperations_ok_iff (m days : Int64) (c : Char) :
    (∀ o ∈ codeOperations m (weekday days) c, o.Ok) ↔ ¬(13 < m ∧ c = 'j') := by
  have hDay := weekday_lt days
  unfold codeOperations
  split
  · refine iff_of_true ?_ fun h => absurd h.2 (by decide)
    split_ifs with hMonth
    · exact List.forall_mem_singleton.2 (month_lt hMonth)
    · exact fun _ hIn => nomatch hIn
  · refine iff_of_true ?_ fun h => absurd h.2 (by decide)
    split_ifs with hMonth
    · exact List.forall_mem_cons.2 ⟨month_lt hMonth,
        List.forall_mem_singleton.2 ⟨Nat.zero_le 3, monthName_length (month_lt hMonth)⟩⟩
    · exact fun _ hIn => nomatch hIn
  · have hThirteen : 13 < m ↔ 13 < m.toInt := Int64.lt_iff_toInt_lt
    simp only [List.mem_map, List.mem_range, forall_exists_index, and_imp, forall_apply_eq_imp_iff₂,
      and_true, hThirteen]
    show (∀ i, i < (m.toInt - 1).toNat → i < 12) ↔ _
    constructor
    · intro hAll hLate
      have hLast := hAll 12 (by omega)
      omega
    · intro hEarly i hi
      omega
  · refine iff_of_true ?_ fun h => absurd h.2 (by decide)
    exact List.forall_mem_singleton.2 hDay
  · refine iff_of_true ?_ fun h => absurd h.2 (by decide)
    exact List.forall_mem_cons.2 ⟨hDay,
      List.forall_mem_singleton.2 ⟨Nat.zero_le 3, weekdayName_length hDay⟩⟩
  · refine iff_of_true (fun _ hIn => nomatch hIn) fun h => ?_
    have hCode := h.2
    contradiction

theorem forall_code_iff (m : Int64) (codes : List Char) :
    (∀ c ∈ codes, ¬(13 < m ∧ c = 'j')) ↔ ¬(13 < m ∧ 'j' ∈ codes) := by
  constructor
  · rintro hAll ⟨hLate, hIn⟩
    exact hAll 'j' hIn ⟨hLate, rfl⟩
  · rintro hNot c hc ⟨hLate, rfl⟩
    exact hNot ⟨hLate, hc⟩

theorem dateFormatOperations_ok_iff (date fmt : Str) :
    (∀ o ∈ dateFormatOperations date fmt, o.Ok) ↔ ¬(13 < formatMonth date ∧ 'j' ∈ formatCodes fmt) := by
  unfold dateFormatOperations
  rw [List.forall_mem_flatMap]
  simp only [codeOperations_ok_iff]
  exact forall_code_iff _ _

-- ---------------------------------------------------------------------------
-- Applications
-- ---------------------------------------------------------------------------

theorem callOperations_ok_iff (fname : Str) (args : List Value) :
    (∀ o ∈ callOperations fname args, o.Ok) ↔ ¬FunctionFaults fname args := by
  unfold callOperations FunctionFaults
  generalize String.ofList fname = s
  split
  · split
    · rename_i a b hA hB
      rw [tested_iff]
      refine not_congr ⟨fun h => ⟨a, b, hA, hB, h⟩, ?_⟩
      rintro ⟨a', b', hA', hB', h⟩
      rw [Value.int.inj (hA.symm.trans hA'), Value.int.inj (hB.symm.trans hB')]
      exact h
    · rename_i hNot
      refine iff_of_true (fun _ hIn => nomatch hIn) ?_
      rintro ⟨a, b, hA, hB, -⟩
      exact hNot a b hA hB
  · cases formatted (argAt args 0) with
    | none =>
      refine iff_of_true (fun _ hIn => nomatch hIn) ?_
      rintro ⟨f, hNone, -⟩
      exact nomatch hNone
    | some f =>
      show (∀ o ∈ formatOperations f (plainIntArg args 1), o.Ok) ↔ _
      rw [formatOperations_ok_iff]
      refine not_congr ⟨fun h => ⟨f, rfl, h⟩, ?_⟩
      rintro ⟨f', hSome, h⟩
      rw [Option.some.inj hSome]
      exact h
  · split_ifs with hEmpty
    · exact iff_of_true (fun _ hIn => nomatch hIn) fun h => h.1 (List.isEmpty_iff.1 hEmpty)
    · rw [dateFormatOperations_ok_iff]
      refine not_congr (and_iff_right ?_).symm
      exact fun hNil => hEmpty (List.isEmpty_iff.2 hNil)
  · exact iff_of_true (List.forall_mem_singleton.2 ⟨Nat.sub_le _ _, Nat.le_refl _⟩) id
  · exact iff_of_true (List.forall_mem_singleton.2 ⟨Nat.min_le_right _ _, Nat.le_refl _⟩) id
  · exact iff_of_true (List.forall_mem_singleton.2 ⟨Nat.min_le_right _ _, Nat.le_refl _⟩) id
  · exact iff_of_true (List.forall_mem_singleton.2 ⟨Nat.min_le_right _ _, Nat.le_refl _⟩) id
  · split
    all_goals first | contradiction | skip
    exact iff_of_true (fun _ hIn => nomatch hIn) id

theorem safe_iff (app : Application) : app.Safe ↔ ¬app.Faults := by
  cases app with
  | binary op l r => exact divisionOf_ok_iff op l r
  | call fname args => exact callOperations_ok_iff fname args

-- ---------------------------------------------------------------------------
-- The evaluator
-- ---------------------------------------------------------------------------

/-- What else a function asks: room for a repeated text, a width of 16 bits. -/
def Application.Fits : Application → Prop
  | .binary _ _ _ => True
  | .call fname args =>
    match String.ofList fname with
    | "REPEAT" => byteLen ((textArg args 0).getD []) * toUsize ((intArg args 1).getD 0) < 2 ^ 63
    | "FORMAT" => formatted (argAt args 0) = none ∨ (plainIntArg args 1).toUInt64.toNat < 2 ^ 16
    | _ => True

theorem checkedDiv_returns (a b : Int64) : Returns (checkedDiv a b) ↔ (PartialOp.divide a b).Ok := by
  unfold checkedDiv
  rw [ok_divide]
  split_ifs with hFault
  · refine iff_of_false (not_returns_error _) fun hOk => ?_
    exact hFault.elim hOk.1 hOk.2
  · exact iff_of_true (returns_ok _) ⟨fun hZero => hFault (.inl hZero), fun hCorner => hFault (.inr hCorner)⟩

theorem checkedRem_returns (a b : Int64) : Returns (checkedRem a b) ↔ (PartialOp.divide a b).Ok := by
  rw [← checkedDiv_returns]
  unfold checkedRem checkedDiv
  split_ifs
  · exact iff_of_false (not_returns_error _) (not_returns_error _)
  · exact iff_of_true (returns_ok _) (returns_ok _)

theorem returns_map {α β : Type} (x : Rust α) (f : α → β) : Returns (x.map f) ↔ Returns x := by
  cases x with
  | error p => exact iff_of_false (not_returns_error p) (not_returns_error p)
  | ok a => exact iff_of_true (returns_ok _) (returns_ok a)

/-- A tested division returns when it goes well. -/
theorem tested_returns {x : Rust Int64} {a b : Int64} (h : Returns x ↔ (PartialOp.divide a b).Ok) :
    Returns (if b ≠ 0 then x.map Value.int else pure .null) ↔
      ∀ o ∈ (if b ≠ 0 then [PartialOp.divide a b] else []), o.Ok := by
  split_ifs with hZero
  · rw [returns_map, List.forall_mem_singleton, h]
  · exact iff_of_true (returns_ok _) fun _ hIn => nomatch hIn

theorem arith_returns {op : BinaryOperator} (h : op = .plus ∨ op = .minus ∨ op = .multiply) (l r : Value) :
    Returns (arith op l r) := by
  unfold arith
  rcases h with rfl | rfl | rfl <;> split <;> exact returns_ok _

theorem applyBinary_returns_iff (op : BinaryOperator) (l r : Value) :
    Returns (applyBinary op l r) ↔ ∀ o ∈ divisionOf op l r, o.Ok := by
  have hNone : ∀ o ∈ ([] : List PartialOp), o.Ok := fun _ hIn => nomatch hIn
  cases op
  case divide =>
    cases l <;> cases r
    case int.int a b => exact tested_returns (checkedDiv_returns a b)
    all_goals exact iff_of_true (returns_ok _) hNone
  case modulo =>
    cases l <;> cases r
    case int.int a b => exact tested_returns (checkedRem_returns a b)
    all_goals exact iff_of_true (returns_ok _) hNone
  case myIntegerDivide =>
    cases l <;> cases r
    case int.int a b => exact tested_returns (checkedDiv_returns a b)
    case float.int a b => exact tested_returns (checkedDiv_returns (f64ToI64 a) b)
    case int.float a b =>
      show Returns (if f64Eq b f64Zero then pure Value.null else (checkedDiv a (f64ToI64 b)).map Value.int) ↔
        ∀ o ∈ (if f64Eq b f64Zero then [] else [PartialOp.divide a (f64ToI64 b)]), o.Ok
      split_ifs
      · exact iff_of_true (returns_ok _) hNone
      · rw [returns_map, List.forall_mem_singleton, checkedDiv_returns]
    all_goals exact iff_of_true (returns_ok _) hNone
  case plus => exact iff_of_true (arith_returns (.inl rfl) l r) hNone
  case minus => exact iff_of_true (arith_returns (.inr (.inl rfl)) l r) hNone
  case multiply => exact iff_of_true (arith_returns (.inr (.inr rfl)) l r) hNone
  all_goals exact iff_of_true (returns_ok _) hNone

-- ---------------------------------------------------------------------------
-- Functions
-- ---------------------------------------------------------------------------

/-- The functions that may fail. -/
def mayFail : List Str := ["MOD", "FORMAT", "DATE_FORMAT", "REPEAT", "LPAD", "RPAD"]

section Functions

variable {fname : Str} (h : fname ∉ mayFail) (args : List Value) {x : Rust Value}

include h

theorem ofList_ne {name : String} (hIn : name.toList ∈ mayFail) : String.ofList fname ≠ name := by
  intro hSame
  rw [← hSame, String.toList_ofList] at hIn
  exact h hIn

theorem textFunction_returns (hx : textFunction fname args = some x) : Returns x := by
  unfold textFunction at hx
  split at hx
  all_goals first
    | exact Option.some.inj hx ▸ returns_ok _
    | exact absurd ‹String.ofList fname = _› (ofList_ne h (by decide))
    | contradiction

theorem numericFunction_returns (hx : numericFunction fname args = some x) : Returns x := by
  unfold numericFunction at hx
  split at hx
  all_goals first
    | exact Option.some.inj hx ▸ returns_ok _
    | exact absurd ‹String.ofList fname = _› (ofList_ne h (by decide))
    | contradiction

theorem dateFunction_returns {now : Nat} (hx : dateFunction now fname args = some x) : Returns x := by
  unfold dateFunction at hx
  split at hx
  all_goals first
    | exact Option.some.inj hx ▸ returns_ok _
    | exact absurd ‹String.ofList fname = _› (ofList_ne h (by decide))
    | contradiction

omit h in
theorem conditionalFunction_returns (hx : conditionalFunction fname args = some x) : Returns x := by
  unfold conditionalFunction at hx
  split at hx
  all_goals first
    | exact Option.some.inj hx ▸ returns_ok _
    | contradiction

theorem callFunction_returns (now : Nat) : Returns (callFunction now fname args) := by
  unfold callFunction
  cases hText : textFunction fname args with
  | some x => exact textFunction_returns h args hText
  | none =>
    cases hNumeric : numericFunction fname args with
    | some x => exact numericFunction_returns h args hNumeric
    | none =>
      cases hDate : dateFunction now fname args with
      | some x => exact dateFunction_returns h args hDate
      | none =>
        cases hCond : conditionalFunction fname args with
        | some x => exact conditionalFunction_returns args hCond
        | none => exact returns_ok _

end Functions

theorem pad_returns (onLeft : Bool) (args : List Value) : Returns (padText onLeft args) := by
  have hRoom : toUsize ((intArg args 1).getD 0) < 2 ^ 63 := Int64.toNatClampNeg_lt _
  unfold padText
  dsimp only
  generalize toUsize ((intArg args 1).getD 0) = n at hRoom
  split
  · exact returns_ok _
  · rw [if_neg (by omega)]
    exact returns_ok _

theorem format_returns_iff (num : Value) (decimals : Int64) :
    Returns (formatNumber num decimals) ↔
      (∀ o ∈ ((formatted num).elim [] fun f => formatOperations f decimals), o.Ok) ∧
        (formatted num = none ∨ decimals.toUInt64.toNat < 2 ^ 16) := by
  have hNumber : formatNumber num decimals = (formatted num).elim (.ok .null) fun f => do
      let frac ← checkedRem (formatScaled f decimals) (f64ToI64 (formatFactor decimals))
      let groups := formatNumber.groups (i64ToString (f64ToI64 (formatRounded f decimals)))
      let sign : Str := if f64Lt f f64Zero then "-" else ""
      if decimals.toUInt64.toNat = 0 then return .text (sign ++ groups)
      else if 2 ^ 16 ≤ decimals.toUInt64.toNat then .error .panic
      else
        let digits := i64ToString frac
        return .text (sign ++ groups ++ "." ++
          List.replicate (decimals.toUInt64.toNat - digits.length) '0' ++ digits) := by
    cases num <;> rfl
  rw [hNumber]
  cases formatted num with
  | none =>
    refine iff_of_true (returns_ok _) ⟨?_, .inl rfl⟩
    exact fun _ hIn => absurd hIn List.not_mem_nil
  | some f =>
    have hWidth : ∀ (x y : Value) (w : Nat), Returns (if w = 0 then (.ok x : Rust Value)
        else if 2 ^ 16 ≤ w then .error .panic else .ok y) ↔ w < 2 ^ 16 := by
      intro x y w
      split_ifs with hZero hWide
      · exact iff_of_true (returns_ok _) (by omega)
      · exact iff_of_false (not_returns_error _) (by omega)
      · exact iff_of_true (returns_ok _) (by omega)
    have hRem : Returns (checkedRem (formatScaled f decimals) (f64ToI64 (formatFactor decimals))) ↔
        ∀ o ∈ formatOperations f decimals, o.Ok := by
      rw [formatOperations_ok_iff, checkedRem_returns, ok_divide, not_or]
    show Returns (_ >>= _) ↔ (∀ o ∈ formatOperations f decimals, o.Ok) ∧ _
    rw [← hRem]
    cases checkedRem (formatScaled f decimals) (f64ToI64 (formatFactor decimals)) with
    | error p => exact iff_of_false (not_returns_error p) fun hBoth => not_returns_error p hBoth.1
    | ok frac =>
      refine Iff.trans ?_ (and_iff_right (returns_ok frac)).symm
      refine (hWidth _ _ _).trans ?_
      exact (or_iff_right (fun hNone => nomatch hNone)).symm

/-- A format returns when each of its codes does. -/
theorem formatGo_returns (code : Char → Rust Str) (fmt : Str) :
    Returns (mysqlDateFormat.go code fmt) ↔ ∀ c ∈ formatCodes fmt, Returns (code c) := by
  have hBind : ∀ (x y : Rust Str), Returns (x >>= fun s => y >>= fun t => .ok (s ++ t)) ↔
      Returns x ∧ Returns y := by
    intro x y
    cases x with
    | error p => exact iff_of_false (not_returns_error p) fun h => not_returns_error p h.1
    | ok s =>
      cases y with
      | error p => exact iff_of_false (not_returns_error p) fun h => not_returns_error p h.2
      | ok t => exact iff_of_true (returns_ok _) ⟨returns_ok s, returns_ok t⟩
  fun_induction formatCodes fmt with
  | case1 => exact iff_of_true (returns_ok _) fun _ hIn => nomatch hIn
  | case2 => exact iff_of_true (returns_ok _) fun _ hIn => nomatch hIn
  | case3 c rest ih =>
    rw [mysqlDateFormat.go.eq_3, List.forall_mem_cons]
    exact (hBind _ _).trans (and_congr_right fun _ => ih)
  | case4 c rest hLast hCode ih =>
    rw [mysqlDateFormat.go.eq_4 _ _ _ hLast hCode]
    refine Iff.trans ?_ ih
    cases mysqlDateFormat.go code rest with
    | error p => exact iff_of_false (not_returns_error p) (not_returns_error p)
    | ok t => exact iff_of_true (returns_ok _) (returns_ok t)

theorem dateFormat_returns (date fmt : Str) :
    Returns (mysqlDateFormat date fmt) ↔ ∀ o ∈ dateFormatOperations date fmt, o.Ok := by
  rw [dateFormatOperations_ok_iff, ← forall_code_iff]
  refine (formatGo_returns _ fmt).trans (forall₂_congr fun c _ => ?_)
  by_cases hCode : c = 'j'
  · subst hCode
    show Returns (if 13 < formatMonth date then .error Fault.panic else pure _) ↔ _
    split_ifs with hLate
    · exact iff_of_false (not_returns_error _) fun hNot => hNot ⟨hLate, rfl⟩
    · exact iff_of_true (returns_ok _) fun h => hLate h.1
  · refine Iff.trans ?_ (iff_of_true trivial fun h => hCode h.2)
    split
    all_goals first
      | exact iff_of_true (returns_ok _) trivial
      | exact absurd rfl hCode

/-- A call that no function with operations has is safe. -/
theorem call_trivial {fname : Str} (h : fname ∉ mayFail) (args : List Value) :
    (Application.call fname args).Safe ∧ (Application.call fname args).Fits := by
  constructor
  · refine (callOperations_ok_iff fname args).2 ?_
    unfold FunctionFaults
    split
    all_goals first
      | exact absurd ‹String.ofList fname = _› (ofList_ne h (by decide))
      | exact id
  · simp only [Application.Fits]
    split
    all_goals first
      | exact absurd ‹String.ofList fname = _› (ofList_ne h (by decide))
      | exact trivial

/-- MOD of two values. -/
def modAnswer : Value → Value → Rust Value
  | .int a, .int b => if b ≠ 0 then (checkedRem a b).map Value.int else pure .null
  | .float a, .float b => pure (if f64Eq b f64Zero then .null else .float (f64Rem a b))
  | _, _ => pure .null

/-- The division in it. -/
def modOperations : Value → Value → List PartialOp
  | .int a, .int b => if b ≠ 0 then [.divide a b] else []
  | _, _ => []

theorem mod_returns_iff (now : Nat) (args : List Value) :
    Returns (callFunction now "MOD" args) ↔ ∀ o ∈ callOperations "MOD" args, o.Ok := by
  show Returns (modAnswer (argAt args 0) (argAt args 1)) ↔
    ∀ o ∈ modOperations (argAt args 0) (argAt args 1), o.Ok
  cases argAt args 0 <;> cases argAt args 1
  case int.int a b => exact tested_returns (checkedRem_returns a b)
  all_goals exact iff_of_true (returns_ok _) fun _ hIn => absurd hIn List.not_mem_nil

theorem repeat_returns_iff (now : Nat) (args : List Value) :
    Returns (callFunction now "REPEAT" args) ↔
      byteLen ((textArg args 0).getD []) * toUsize ((intArg args 1).getD 0) < 2 ^ 63 := by
  show Returns (if 2 ^ 63 ≤ byteLen ((textArg args 0).getD []) * toUsize ((intArg args 1).getD 0)
    then (.error Fault.panic : Rust Value) else pure _) ↔ _
  rw [← Nat.not_le]
  split_ifs with hLong
  · exact iff_of_false (not_returns_error _) fun hNot => hNot hLong
  · exact iff_of_true (returns_ok _) hLong

theorem dateFormat_call_returns_iff (now : Nat) (args : List Value) :
    Returns (callFunction now "DATE_FORMAT" args) ↔ ∀ o ∈ callOperations "DATE_FORMAT" args, o.Ok := by
  show Returns (if ((textArg args 0).getD []).isEmpty then (pure .null : Rust Value)
    else (mysqlDateFormat ((textArg args 0).getD []) ((textArg args 1).getD [])).map Value.text) ↔
    ∀ o ∈ (if ((textArg args 0).getD []).isEmpty then []
      else dateFormatOperations ((textArg args 0).getD []) ((textArg args 1).getD [])), o.Ok
  split_ifs
  · exact iff_of_true (returns_ok _) fun _ hIn => absurd hIn List.not_mem_nil
  · rw [returns_map, dateFormat_returns]

/-- **One application.** It returns exactly when its operations go well and its result
has room. -/
theorem run_returns_iff (now : Nat) (app : Application) :
    Returns (app.run now) ↔ app.Safe ∧ app.Fits := by
  cases app with
  | binary op l r => exact (applyBinary_returns_iff op l r).trans (and_iff_left trivial).symm
  | call fname args =>
    have hNone : ∀ o ∈ ([] : List PartialOp), o.Ok := fun _ hIn => absurd hIn List.not_mem_nil
    by_cases hMay : fname ∈ mayFail
    · unfold mayFail at hMay
      simp only [List.mem_cons, List.not_mem_nil, or_false] at hMay
      rcases hMay with rfl | rfl | rfl | rfl | rfl | rfl
      · exact (mod_returns_iff now args).trans (and_iff_left trivial).symm
      · exact format_returns_iff (argAt args 0) (plainIntArg args 1)
      · exact (dateFormat_call_returns_iff now args).trans (and_iff_left trivial).symm
      · exact (repeat_returns_iff now args).trans (and_iff_right hNone).symm
      · exact iff_of_true (pad_returns true args) ⟨hNone, trivial⟩
      · exact iff_of_true (pad_returns false args) ⟨hNone, trivial⟩
    · exact iff_of_true (callFunction_returns hMay args now) (call_trivial hMay args)

-- ---------------------------------------------------------------------------
-- Expressions
-- ---------------------------------------------------------------------------

/-- No operation that the value of an expression comes to goes wrong. -/
def EvaluatesSafely (now : Nat) (row : Row) (cols : List Column) (e : Expr) : Prop :=
  ∀ app ∈ appsExpr now row cols e, app.Safe

/-- The value of an expression is returned exactly when its operations go well and the
texts it makes have room. -/
theorem evalRowExpr_returns_iff (now : Nat) (row : Row) (cols : List Column) (e : Expr) :
    Returns (evalRowExpr now row cols e) ↔
      EvaluatesSafely now row cols e ∧ ∀ app ∈ appsExpr now row cols e, app.Fits := by
  have hRests := evalRowExpr_rests now row cols e
  unfold RestsOn Rests at hRests
  unfold EvaluatesSafely
  rw [hRests, ← forall₂_and]
  exact forall₂_congr fun app _ => run_returns_iff now app

/-- No operation goes wrong exactly when no application faults, and then only the
room for a text is missing. -/
theorem evalRowExpr_safe_iff (now : Nat) (row : Row) (cols : List Column) (e : Expr) :
    (EvaluatesSafely now row cols e ↔ ∀ app ∈ appsExpr now row cols e, ¬app.Faults) ∧
      (Returns (evalRowExpr now row cols e) ↔
        ∀ app ∈ appsExpr now row cols e, ¬app.Faults ∧ app.Fits) := by
  have hSafe : EvaluatesSafely now row cols e ↔ ∀ app ∈ appsExpr now row cols e, ¬app.Faults :=
    forall₂_congr fun app _ => safe_iff app
  refine ⟨hSafe, ?_⟩
  rw [evalRowExpr_returns_iff, hSafe, ← forall₂_and]

end Faults

section Quotient

local instance quotientPlatform : Platform := tablePlatform []

/-- `a / -1` -/
def quotientByMinusOne : Expr :=
  .binaryOp (.identifier ⟨"a", none⟩) .divide (.unaryOp .minus (.value (.number "1" false)))

/-- The smallest integer in a column, divided by -1. -/
theorem not_evalRowExpr_safe :
    ¬∀ (now : Nat) (row : Row) (cols : List Column) (e : Expr), EvaluatesSafely now row cols e := by
  intro hAll
  have hLeft : evalRowExpr 0 [.int Int64.minValue] [⟨"a", .int, true, false⟩]
      (.identifier ⟨"a", none⟩) = .ok (.int Int64.minValue) := by decide +kernel
  have hRight : evalRowExpr 0 [.int Int64.minValue] [⟨"a", .int, true, false⟩]
      (.unaryOp .minus (.value (.number "1" false))) = .ok (.int (-1)) := by decide +kernel
  have hApps : appsExpr 0 [.int Int64.minValue] [⟨"a", .int, true, false⟩] quotientByMinusOne =
      [.binary .divide (.int Int64.minValue) (.int (-1))] := by
    unfold quotientByMinusOne
    rw [appsExpr, hLeft, hRight]
    rfl
  have hSafe := hAll 0 [.int Int64.minValue] [⟨"a", .int, true, false⟩] quotientByMinusOne
  unfold EvaluatesSafely at hSafe
  rw [hApps, List.forall_mem_singleton] at hSafe
  exact (hSafe (.divide Int64.minValue (-1)) (List.mem_singleton_self _)).2 ⟨rfl, rfl⟩

end Quotient

end RunAlexDb
