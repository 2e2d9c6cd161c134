import Mathlib.Algebra.BigOperators.Group.List.Basic
import Mathlib.Algebra.Order.Ring.Rat
import Mathlib.Data.List.TakeWhile
import RunAlexDb.Query.TableQueries

/-!
# Numbers — the numeric values of a column

Int and Float values as rational numbers, and the numeral a displayed cell
stands for. What the results about aggregates and about ORDER BY speak of.
-/

set_option linter.unusedSectionVars false

namespace RunAlexDb

open Text Platform

-- ---------------------------------------------------------------------------
-- Values
-- ---------------------------------------------------------------------------

/-- The value of a binary64 that is neither infinite nor NaN. -/
def F64.toRat (f : F64) : Option ℚ :=
  let exponent : Nat := f.bits.toNat / 2 ^ 52 % 2 ^ 11
  let fraction : Nat := f.bits.toNat % 2 ^ 52
  let magnitude : ℚ :=
    if exponent = 0 then (fraction : ℚ) / 2 ^ 1074
    else (2 ^ 52 + (fraction : ℚ)) * 2 ^ exponent / 2 ^ 1075
  if exponent = 2047 then none
  else some (if f.bits.toNat < 2 ^ 63 then magnitude else -magnitude)

/-- Int and finite Float values as numbers. -/
def Value.number? : Value → Option ℚ
  | .int n => some n.toInt
  | .float f => f.toRat
  | _ => none

/-- The value of a row in column `ci`, NULL when the row is too short. -/
def valueAt (ci : Nat) (row : Row) : Value := row[ci]?.getD .null

/-- A column of Int, finite Float and NULL values. -/
def NumericColumn (ci : Nat) (rows : List Row) : Prop :=
  ∀ row ∈ rows, valueAt ci row = .null ∨ (valueAt ci row).number?.isSome

/-- The numbers in a column. -/
def numbers (ci : Nat) (rows : List Row) : List ℚ :=
  rows.filterMap fun row => (valueAt ci row).number?

/-- The Floats in a column. -/
def columnFloats (ci : Nat) (rows : List Row) : List ℚ :=
  rows.filterMap fun row =>
    match valueAt ci row with
    | .float f => f.toRat
    | _ => none

theorem columnInts_cons (ci : Nat) (row : Row) (rows : List Row) :
    columnInts ci (row :: rows) =
      (match valueAt ci row with
        | .int n => [n]
        | _ => []) ++ columnInts ci rows := by
  rw [columnInts, columnInts, List.filterMap_cons, valueAt]
  cases hCell : (row[ci]? : Option Value) with
  | none => rfl
  | some v => cases v <;> rfl

/-- The numbers are the Ints and the Floats. -/
theorem numbers_perm (ci : Nat) (rows : List Row) :
    (numbers ci rows).Perm
      ((columnInts ci rows).map (fun n => (n.toInt : ℚ)) ++ columnFloats ci rows) := by
  induction rows with
  | nil => exact List.Perm.refl _
  | cons row rows ih =>
    rw [columnInts_cons, numbers, columnFloats, List.filterMap_cons, List.filterMap_cons]
    cases hCell : valueAt ci row with
    | int n => exact ih.cons _
    | float f =>
      cases hRat : f.toRat with
      | none =>
        simp only [Value.number?, hRat, List.nil_append]
        exact ih
      | some q =>
        simp only [Value.number?, hRat, List.nil_append]
        exact (ih.cons q).trans List.perm_middle.symm
    | _ => exact ih

/-- In a numeric column what is no number is NULL. -/
theorem length_numbers {ci : Nat} {rows : List Row} (h : NumericColumn ci rows) :
    (numbers ci rows).length = rows.length ↔ ∀ row ∈ rows, valueAt ci row ≠ .null := by
  rw [numbers, List.filterMap_length_eq_length]
  refine forall₂_congr fun row hRow => ?_
  constructor
  · intro hSome hNull
    rw [hNull] at hSome
    cases hSome
  · exact (h row hRow).resolve_left

-- ---------------------------------------------------------------------------
-- Numerals
-- ---------------------------------------------------------------------------

/-- Digits, and more digits behind a point if there is one. -/
def unsignedDecimal (s : Str) : Option ℚ :=
  let whole := s.takeWhile (· ≠ '.')
  match s.dropWhile (· ≠ '.') with
  | [] => (parseNat whole).map fun n : Nat => (n : ℚ)
  | _ :: digits =>
    (parseNat whole).bind fun n : Nat =>
      (parseNat digits).map fun k : Nat => (n : ℚ) + (k : ℚ) / 10 ^ digits.length

/-- The number a numeral stands for. -/
def decimalValue : Str → Option ℚ
  | '-' :: s => (unsignedDecimal s).map fun q => -q
  | s => unsignedDecimal s

theorem unsignedDecimal_natToString (n : Nat) : unsignedDecimal (natToString n) = some (n : ℚ) := by
  have hDigits : ∀ c ∈ natToString n, (decide (c ≠ '.')) = true := by
    intro c hc
    have hDigit : c.isDigit = true := isDigit_natToString hc
    rw [decide_eq_true_eq]
    rintro rfl
    revert hDigit
    decide
  rw [unsignedDecimal, List.dropWhile_eq_nil_iff.2 hDigits, List.takeWhile_eq_self_iff.2 hDigits]
  show (parseNat (natToString n)).map _ = _
  rw [parseNat_natToString]
  rfl

theorem natToString_ne_minus (n : Nat) (s : Str) : natToString n ≠ '-' :: s := by
  intro hMinus
  have hMem : '-' ∈ natToString n := by
    rw [hMinus]
    exact List.mem_cons_self ..
  have hDigit : ('-' : Char).isDigit = true := isDigit_natToString hMem
  revert hDigit
  decide

theorem decimalValue_natToString (n : Nat) : decimalValue (natToString n) = some (n : ℚ) := by
  rw [decimalValue, unsignedDecimal_natToString]
  exact natToString_ne_minus n

theorem decimalValue_i64ToString (n : Int64) :
    decimalValue (i64ToString n) = some (n.toInt : ℚ) := by
  rw [i64ToString]
  split
  · rename_i hNeg
    have hAbs : (n.toInt.natAbs : ℤ) = -n.toInt := by omega
    rw [decimalValue, unsignedDecimal_natToString, Option.map_some, ← Int.cast_natCast, hAbs,
      Int.cast_neg, neg_neg]
  · rename_i hNotNeg
    have hAbs : (n.toInt.natAbs : ℤ) = n.toInt := by omega
    rw [decimalValue_natToString, ← Int.cast_natCast, hAbs]

end RunAlexDb
