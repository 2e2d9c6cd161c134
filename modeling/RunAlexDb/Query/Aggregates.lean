import RunAlexDb.Query.Grouping
import RunAlexDb.Query.Numbers

/-!
# Aggregates — COUNT, SUM, AVG, MIN and MAX of a numeric column

The aggregates of a query without GROUP BY and those of a group compute the same
from the rows concerned: COUNT their number, the others something of the Ints
among the values, found by the argument as it prints.

Main result: `aggregates_iff`.
-/

set_option linter.unusedSectionVars false

namespace RunAlexDb

open Text Platform

-- ---------------------------------------------------------------------------
-- SQL's aggregates
-- ---------------------------------------------------------------------------

inductive Aggregate
  | count | sum | avg | min | max

def Aggregate.name : Aggregate → Str
  | .count => "COUNT"
  | .sum => "SUM"
  | .avg => "AVG"
  | .min => "MIN"
  | .max => "MAX"

/-- An aggregate of numbers; of none, only COUNT has a value. -/
def Aggregate.value (qs : List ℚ) : Aggregate → Option ℚ
  | .count => some qs.length
  | .sum => if qs = [] then none else some qs.sum
  | .avg => if qs = [] then none else some (qs.sum / qs.length)
  | .min => qs.min?
  | .max => qs.max?

/-- A cell with a numeral for the number, NULL where there is none. -/
def ShowsNumber (cell : Option Str) (q : Option ℚ) : Prop := cell.map decimalValue = q.map some

theorem showsNumber_nat (n : Nat) (q : ℚ) :
    ShowsNumber (some (natToString n)) (some q) ↔ (n : ℚ) = q := by
  rw [ShowsNumber, Option.map_some, Option.map_some, decimalValue_natToString, Option.some.injEq,
    Option.some.injEq]

theorem showsNumber_int (n : Int64) (q : ℚ) :
    ShowsNumber (some (i64ToString n)) (some q) ↔ (n.toInt : ℚ) = q := by
  rw [ShowsNumber, Option.map_some, Option.map_some, decimalValue_i64ToString, Option.some.injEq,
    Option.some.injEq]

theorem showsNumber_none (q : Option ℚ) : ShowsNumber none q ↔ q = none := by
  cases q <;> simp [ShowsNumber]

theorem not_showsNumber_some (s : Str) : ¬ ShowsNumber (some s) none := nofun

section Aggregates

variable [Platform]

-- ---------------------------------------------------------------------------
-- Calls
-- ---------------------------------------------------------------------------

/-- A call of the aggregate on column `ci`, which no other column is taken for. -/
structure Aggregate.Calls (agg : Aggregate) (cols : List Column) (ci : Nat) (f : Function) :
    Prop where
  name : toUppercase (ObjectName.toString f.name) = agg.name
  column : ∃ e : Expr, f.args = .list (.mk none [.unnamed (.expr e)] []) ∧
    e.columnName?.bind (columnPosition cols) = some ci
  other : ∀ cj, columnPosition cols (argsColumn f.args) = some cj → cj = ci

/-- The argument as it prints, without the parentheses, names a column. -/
def Function.found (cols : List Column) (f : Function) : Prop :=
  (columnPosition cols (argsColumn f.args)).isSome

/-- What both paths make of the rows. -/
def Aggregate.cell (agg : Aggregate) (cols : List Column) (rows : List Row) (f : Function) :
    Option Str :=
  match agg with
  | .count => some (natToString rows.length)
  | _ => (columnPosition cols (argsColumn f.args)).bind fun ci =>
      (intAggregate agg.name ci rows).map i64ToString

section Calls

variable {agg : Aggregate} {cols : List Column} {ci : Nat} {f : Function}

theorem not_isDistinct_of_calls (h : agg.Calls cols ci f) : f.args.isDistinct = false := by
  obtain ⟨e, hArgs, -⟩ := h.column
  rw [hArgs]
  rfl

theorem evalAggregate_calls (h : agg.Calls cols ci f) (rows : List Row) :
    evalAggregate cols rows f = agg.cell cols rows f := by
  rw [evalAggregate, h.name]
  cases agg with
  | count =>
    show (if f.args.isDistinct then _ else _) = _
    rw [not_isDistinct_of_calls h]
    rfl
  | _ => rfl

theorem evalGroupAggregate_calls (h : agg.Calls cols ci f) (rows : List Row) :
    evalGroupAggregate cols rows f = agg.cell cols rows f := by
  rw [evalGroupAggregate, h.name]
  cases agg with
  | count =>
    show (if f.args.isDistinct && _ && _ then _ else _) = _
    rw [not_isDistinct_of_calls h]
    rfl
  | _ => rfl

end Calls

-- ---------------------------------------------------------------------------
-- When they are right
-- ---------------------------------------------------------------------------

/-- The sum of some 64-bit integers, not wrapped. -/
def exactSum (ns : List Int64) : ℤ := (ns.map Int64.toInt).sum

/-- COUNT: there is no NULL. SUM: there are values, and the Floats add up to what
the sum of the Ints wraps by. AVG: the truncated 64-bit quotient of the Ints is
the average of all. MIN, MAX: an Int bounds the Floats. Without values SUM says
zero where its argument is found; where it is not found, all but COUNT are NULL. -/
def Aggregate.Served (agg : Aggregate) (cols : List Column) (ci : Nat) (f : Function)
    (rows : List Row) : Prop :=
  let ints := columnInts ci rows
  let floats := columnFloats ci rows
  match agg with
  | .count => ∀ row ∈ rows, valueAt ci row ≠ .null
  | .sum =>
    if ints = [] ∧ floats = [] then ¬ f.found cols
    else f.found cols ∧ floats.sum = (Int64.ofInt (exactSum ints)).toInt - exactSum ints
  | .avg =>
    ints = [] ∧ floats = [] ∨ f.found cols ∧ ints ≠ [] ∧
      ((Int64.ofInt (exactSum ints) / Int64.ofNat ints.length).toInt : ℚ) =
        (exactSum ints + floats.sum) / (ints.length + floats.length)
  | .min => ints = [] ∧ floats = [] ∨ f.found cols ∧ ∃ n ∈ ints, ∀ q ∈ floats, (n.toInt : ℚ) ≤ q
  | .max => ints = [] ∧ floats = [] ∨ f.found cols ∧ ∃ n ∈ ints, ∀ q ∈ floats, q ≤ n.toInt

section Values

variable {ci : Nat} {rows : List Row}

theorem numbers_eq_nil : numbers ci rows = [] ↔ columnInts ci rows = [] ∧ columnFloats ci rows = [] := by
  have hPerm := numbers_perm ci rows
  constructor
  · intro hNil
    rw [hNil] at hPerm
    have hBoth := List.append_eq_nil_iff.1 hPerm.symm.eq_nil
    exact ⟨List.map_eq_nil_iff.1 hBoth.1, hBoth.2⟩
  · rintro ⟨hInts, hFloats⟩
    rw [hInts, hFloats] at hPerm
    exact hPerm.eq_nil

theorem sumInts_eq_ofInt (ns : List Int64) : sumInts ns = Int64.ofInt (exactSum ns) := by
  induction ns with
  | nil => rfl
  | cons n ns ih =>
    rw [sumInts_cons, ih, exactSum, exactSum, List.map_cons, List.sum_cons, Int64.ofInt_add,
      Int64.ofInt_toInt]

theorem sum_numbers : (numbers ci rows).sum =
    exactSum (columnInts ci rows) + (columnFloats ci rows).sum := by
  have hInts : ∀ ns : List Int64, (ns.map fun n => (n.toInt : ℚ)).sum = exactSum ns := by
    intro ns
    induction ns with
    | nil => rfl
    | cons n ns ih =>
      rw [List.map_cons, List.sum_cons, ih, exactSum, exactSum, List.map_cons, List.sum_cons,
        Int.cast_add]
  rw [(numbers_perm ci rows).sum_eq, List.sum_append, hInts]

theorem length_numbers_eq : (numbers ci rows).length =
    (columnInts ci rows).length + (columnFloats ci rows).length := by
  rw [(numbers_perm ci rows).length_eq, List.length_append, List.length_map]

theorem mem_numbers {q : ℚ} : q ∈ numbers ci rows ↔
    (∃ n ∈ columnInts ci rows, (n.toInt : ℚ) = q) ∨ q ∈ columnFloats ci rows := by
  rw [(numbers_perm ci rows).mem_iff, List.mem_append, List.mem_map]

end Values

-- ---------------------------------------------------------------------------
-- Greatest and least
-- ---------------------------------------------------------------------------

/-- A fold that keeps one of two elements keeps the one that stands in `R` to
all. -/
theorem foldl_pick {α : Type} {R : α → α → Prop} {f : α → α → α} (hRefl : ∀ a, R a a)
    (hTrans : ∀ {a b c}, R a b → R b c → R a c)
    (hPick : ∀ a b, (f a b = a ∨ f a b = b) ∧ R (f a b) a ∧ R (f a b) b) (l : List α)
    (a : α) : l.foldl f a ∈ a :: l ∧ ∀ x ∈ a :: l, R (l.foldl f a) x := by
  induction l generalizing a with
  | nil =>
    refine ⟨List.mem_singleton_self a, fun x hx => ?_⟩
    obtain rfl := List.mem_singleton.1 hx
    exact hRefl x
  | cons b l ih =>
    obtain ⟨hMem, hAll⟩ := ih (f a b)
    obtain ⟨hEither, hLeft, hRight⟩ := hPick a b
    rw [List.foldl_cons]
    have hBest := hAll _ (List.mem_cons_self ..)
    constructor
    · rcases List.mem_cons.1 hMem with hHead | hTail
      · rw [hHead]
        rcases hEither with hEq | hEq <;> rw [hEq] <;> simp
      · exact List.mem_cons_of_mem _ (List.mem_cons_of_mem _ hTail)
    · intro x hx
      rcases List.mem_cons.1 hx with rfl | hx
      · exact hTrans hBest hLeft
      · rcases List.mem_cons.1 hx with rfl | hx
        · exact hTrans hBest hRight
        · exact hAll x (List.mem_cons_of_mem _ hx)

theorem maxBy_spec {ns : List Int64} (h : ns ≠ []) :
    ∃ n, maxBy cmpInt64 ns = some n ∧ n ∈ ns ∧ ∀ m ∈ ns, m ≤ n := by
  obtain ⟨a, ns, rfl⟩ := List.exists_cons_of_ne_nil h
  obtain ⟨hMem, hAll⟩ := foldl_pick (R := fun x y : Int64 => y ≤ x)
    (f := fun best y => if cmpInt64 best y = .gt then best else y) Int64.le_refl
    (fun hab hbc => Int64.le_trans hbc hab) (fun a b => by
      by_cases hGt : cmpInt64 a b = .gt
      · rw [if_pos hGt]
        exact ⟨.inl rfl, Int64.le_refl a, Int64.le_of_lt ((cmpInt64_gt_iff a b).1 hGt)⟩
      · rw [if_neg hGt]
        have hLe := Int64.not_lt.1 fun hLt => hGt ((cmpInt64_gt_iff a b).2 hLt)
        exact ⟨.inr rfl, hLe, Int64.le_refl b⟩) ns a
  exact ⟨_, rfl, hMem, hAll⟩

theorem minBy_spec {ns : List Int64} (h : ns ≠ []) :
    ∃ n, minBy cmpInt64 ns = some n ∧ n ∈ ns ∧ ∀ m ∈ ns, n ≤ m := by
  obtain ⟨a, ns, rfl⟩ := List.exists_cons_of_ne_nil h
  obtain ⟨hMem, hAll⟩ := foldl_pick (R := fun x y : Int64 => x ≤ y)
    (f := fun best y => if cmpInt64 best y = .gt then y else best) Int64.le_refl
    Int64.le_trans (fun a b => by
      by_cases hGt : cmpInt64 a b = .gt
      · rw [if_pos hGt]
        exact ⟨.inr rfl, Int64.le_of_lt ((cmpInt64_gt_iff a b).1 hGt), Int64.le_refl b⟩
      · rw [if_neg hGt]
        have hLe := Int64.not_lt.1 fun hLt => hGt ((cmpInt64_gt_iff a b).2 hLt)
        exact ⟨.inl rfl, Int64.le_refl a, hLe⟩) ns a
  exact ⟨_, rfl, hMem, hAll⟩

-- ---------------------------------------------------------------------------
-- Aggregate by aggregate
-- ---------------------------------------------------------------------------

section Cells

variable {agg : Aggregate} {cols : List Column} {ci : Nat} {f : Function} {rows : List Row}

theorem served_count (hNumeric : NumericColumn ci rows) :
    ShowsNumber (Aggregate.count.cell cols rows f) (Aggregate.count.value (numbers ci rows)) ↔
      Aggregate.count.Served cols ci f rows := by
  show ShowsNumber (some (natToString rows.length)) (some ((numbers ci rows).length : ℚ)) ↔
    ∀ row ∈ rows, valueAt ci row ≠ .null
  rw [showsNumber_nat, ← length_numbers hNumeric, Nat.cast_inj, eq_comm]

/-- A call whose argument is not found is NULL. -/
theorem cell_not_found (agg : Aggregate) (hAgg : agg ≠ .count) (hFound : ¬ f.found cols) :
    agg.cell cols rows f = none := by
  have hNone : columnPosition cols (argsColumn f.args) = none := by
    rwa [Function.found, Option.not_isSome_iff_eq_none] at hFound
  cases agg with
  | count => exact absurd rfl hAgg
  | _ =>
    rw [Aggregate.cell, hNone]
    · rfl
    · nofun

/-- A call whose argument is found aggregates the Ints of the column. -/
theorem cell_found (hCalls : agg.Calls cols ci f) (hAgg : agg ≠ .count) (hFound : f.found cols) :
    agg.cell cols rows f = (intAggregate agg.name ci rows).map i64ToString := by
  obtain ⟨cj, hSome⟩ := Option.isSome_iff_exists.1 hFound
  obtain rfl := hCalls.other cj hSome
  cases agg with
  | count => exact absurd rfl hAgg
  | _ =>
    rw [Aggregate.cell, hSome]
    · rfl
    · nofun

theorem value_eq_none (agg : Aggregate) (hAgg : agg ≠ .count) (qs : List ℚ) :
    agg.value qs = none ↔ qs = [] := by
  cases agg with
  | count => exact absurd rfl hAgg
  | sum | avg => by_cases hNil : qs = [] <;> simp [Aggregate.value, hNil]
  | min => exact List.min?_eq_none_iff
  | max => exact List.max?_eq_none_iff

theorem served_sum (hCalls : Aggregate.sum.Calls cols ci f) :
    ShowsNumber (Aggregate.sum.cell cols rows f) (Aggregate.sum.value (numbers ci rows)) ↔
      Aggregate.sum.Served cols ci f rows := by
  have hServed : Aggregate.sum.Served cols ci f rows ↔
      if numbers ci rows = [] then ¬ f.found cols
      else f.found cols ∧ (columnFloats ci rows).sum =
        (Int64.ofInt (exactSum (columnInts ci rows))).toInt - exactSum (columnInts ci rows) := by
    rw [Aggregate.Served]
    simp only [numbers_eq_nil]
  rw [hServed]
  by_cases hFound : f.found cols
  · rw [cell_found hCalls nofun hFound]
    show ShowsNumber (some (i64ToString (sumInts (columnInts ci rows)))) _ ↔ _
    rw [Aggregate.value]
    by_cases hNil : numbers ci rows = []
    · rw [if_pos hNil, if_pos hNil]
      exact iff_of_false (not_showsNumber_some _) fun h => h hFound
    · rw [if_neg hNil, if_neg hNil, showsNumber_int, sumInts_eq_ofInt, sum_numbers,
        and_iff_right hFound, eq_sub_iff_add_eq', eq_comm]
  · rw [cell_not_found .sum nofun hFound, showsNumber_none, value_eq_none .sum nofun]
    by_cases hNil : numbers ci rows = []
    · rw [if_pos hNil]
      exact iff_of_true hNil hFound
    · rw [if_neg hNil]
      exact iff_of_false hNil fun h => hFound h.1

/-- AVG, MIN and MAX: no values, or the Ints found have the value. -/
theorem shows_iff_of_ints (rows : List Row) (hCalls : agg.Calls cols ci f) (hAgg : agg ≠ .count)
    (hNone : columnInts ci rows = [] → intAggregate agg.name ci rows = none) {P : Prop}
    (hSome : columnInts ci rows ≠ [] →
      (ShowsNumber ((intAggregate agg.name ci rows).map i64ToString) (agg.value (numbers ci rows)) ↔
        P)) :
    ShowsNumber (agg.cell cols rows f) (agg.value (numbers ci rows)) ↔
      columnInts ci rows = [] ∧ columnFloats ci rows = [] ∨
        f.found cols ∧ columnInts ci rows ≠ [] ∧ P := by
  have hNull : ∀ cell : Option Str, cell = none →
      (ShowsNumber cell (agg.value (numbers ci rows)) ↔
        columnInts ci rows = [] ∧ columnFloats ci rows = []) := by
    rintro cell rfl
    rw [showsNumber_none, value_eq_none agg hAgg, numbers_eq_nil]
  by_cases hFound : f.found cols
  · rw [cell_found hCalls hAgg hFound, and_iff_right hFound]
    by_cases hInts : columnInts ci rows = []
    · rw [hNull _ (by rw [hNone hInts]; rfl)]
      exact ⟨.inl, fun h => h.resolve_right fun h => h.1 hInts⟩
    · rw [hSome hInts]
      exact ⟨fun h => .inr ⟨hInts, h⟩, fun h => (h.resolve_left fun h => hInts h.1).2⟩
  · rw [hNull _ (cell_not_found agg hAgg hFound)]
    exact ⟨.inl, fun h => h.resolve_right fun h => hFound h.1⟩

theorem served_avg (hCalls : Aggregate.avg.Calls cols ci f) :
    ShowsNumber (Aggregate.avg.cell cols rows f) (Aggregate.avg.value (numbers ci rows)) ↔
      Aggregate.avg.Served cols ci f rows := by
  refine shows_iff_of_ints rows hCalls nofun (fun hInts => ?_) fun hInts => ?_
  · show avgInts (columnInts ci rows) = none
    rw [hInts]
    rfl
  · have hSome : numbers ci rows ≠ [] := fun hNil => hInts (numbers_eq_nil.1 hNil).1
    have hCell : intAggregate Aggregate.avg.name ci rows =
        some (sumInts (columnInts ci rows) / Int64.ofNat (columnInts ci rows).length) := by
      show avgInts (columnInts ci rows) = _
      rw [avgInts, if_neg (by simpa using hInts)]
    rw [hCell, Option.map_some, Aggregate.value, if_neg hSome, showsNumber_int, sumInts_eq_ofInt,
      sum_numbers, length_numbers_eq, Nat.cast_add]

/-- MIN and MAX, the best of the Ints in an order `R`: the best of all when an Int
is as good as every Float. -/
theorem shows_iff_of_best (rows : List Row) (hCalls : agg.Calls cols ci f) (hAgg : agg ≠ .count)
    {R : ℚ → ℚ → Prop} (hTrans : ∀ {a b c}, R a b → R b c → R a c)
    (hAnti : ∀ {a b}, R a b → R b a → a = b)
    (hNone : columnInts ci rows = [] → intAggregate agg.name ci rows = none)
    (hBest : columnInts ci rows ≠ [] → ∃ n, intAggregate agg.name ci rows = some n ∧
      n ∈ columnInts ci rows ∧ ∀ m ∈ columnInts ci rows, R n.toInt m.toInt)
    (hValue : ∀ qs q, agg.value qs = some q → q ∈ qs ∧ ∀ b ∈ qs, R q b) :
    ShowsNumber (agg.cell cols rows f) (agg.value (numbers ci rows)) ↔
      columnInts ci rows = [] ∧ columnFloats ci rows = [] ∨
        f.found cols ∧ ∃ n ∈ columnInts ci rows, ∀ q ∈ columnFloats ci rows, R n.toInt q := by
  have hInt : (∃ n ∈ columnInts ci rows, ∀ q ∈ columnFloats ci rows, R n.toInt q) →
      columnInts ci rows ≠ [] := by
    rintro ⟨n, hn, -⟩ hNil
    rw [hNil] at hn
    cases hn
  rw [shows_iff_of_ints rows hCalls hAgg hNone
    (P := ∃ n ∈ columnInts ci rows, ∀ q ∈ columnFloats ci rows, R n.toInt q) fun hInts => ?_]
  · exact or_congr_right (and_congr_right fun _ => and_iff_right_of_imp hInt)
  obtain ⟨n, hCell, hMem, hAll⟩ := hBest hInts
  obtain ⟨q, hq⟩ : ∃ q, agg.value (numbers ci rows) = some q := by
    rw [← Option.isSome_iff_exists, Option.isSome_iff_ne_none, Ne, value_eq_none agg hAgg,
      numbers_eq_nil]
    exact fun h => hInts h.1
  obtain ⟨hqMem, hqAll⟩ := hValue _ q hq
  rw [hCell, Option.map_some, hq, showsNumber_int]
  constructor
  · rintro rfl
    exact ⟨n, hMem, fun q hq => hqAll q (mem_numbers.2 (.inr hq))⟩
  · rintro ⟨m, hm, hFloats⟩
    -- the best Int is as good as m, and so as the Floats
    refine hAnti ?_ (hqAll _ (mem_numbers.2 (.inl ⟨n, hMem, rfl⟩)))
    rcases mem_numbers.1 hqMem with ⟨k, hk, rfl⟩ | hFloat
    · exact hAll k hk
    · exact hTrans (hAll m hm) (hFloats q hFloat)

theorem served_min (hCalls : Aggregate.min.Calls cols ci f) :
    ShowsNumber (Aggregate.min.cell cols rows f) (Aggregate.min.value (numbers ci rows)) ↔
      Aggregate.min.Served cols ci f rows := by
  refine shows_iff_of_best rows hCalls nofun (R := fun a b => a ≤ b) le_trans le_antisymm
    (fun hInts => ?_) (fun hInts => ?_) fun qs q => List.min?_eq_some_iff.1
  · show minBy cmpInt64 (columnInts ci rows) = none
    rw [hInts]
    rfl
  · obtain ⟨n, hMin, hMem, hAll⟩ := minBy_spec hInts
    exact ⟨n, hMin, hMem, fun m hm => by exact_mod_cast Int64.le_iff_toInt_le.1 (hAll m hm)⟩

theorem served_max (hCalls : Aggregate.max.Calls cols ci f) :
    ShowsNumber (Aggregate.max.cell cols rows f) (Aggregate.max.value (numbers ci rows)) ↔
      Aggregate.max.Served cols ci f rows := by
  refine shows_iff_of_best rows hCalls nofun (R := fun a b => b ≤ a) (fun hab hbc => hbc.trans hab)
    (fun hab hba => le_antisymm hba hab) (fun hInts => ?_) (fun hInts => ?_)
    fun qs q => List.max?_eq_some_iff.1
  · show maxBy cmpInt64 (columnInts ci rows) = none
    rw [hInts]
    rfl
  · obtain ⟨n, hMax, hMem, hAll⟩ := maxBy_spec hInts
    exact ⟨n, hMax, hMem, fun m hm => by exact_mod_cast Int64.le_iff_toInt_le.1 (hAll m hm)⟩

theorem served_iff (hCalls : agg.Calls cols ci f) (hNumeric : NumericColumn ci rows) :
    ShowsNumber (agg.cell cols rows f) (agg.value (numbers ci rows)) ↔ agg.Served cols ci f rows := by
  cases agg with
  | count => exact served_count hNumeric
  | sum => exact served_sum hCalls
  | avg => exact served_avg hCalls
  | min => exact served_min hCalls
  | max => exact served_max hCalls

end Cells

-- ---------------------------------------------------------------------------
-- Both paths
-- ---------------------------------------------------------------------------

/-- **Aggregates.** In the row of a query of aggregates alone, and in the row of
each group, an aggregate of a numeric column has SQL's value exactly when
`Aggregate.Served` says so of the rows concerned. -/
theorem aggregates_iff {env : QueryEnv} {dbName db table : Str} {name : ObjectName} {t : Table}
    (hTarget : resolveName dbName (ObjectName.toString name) = (db, table))
    (hTable : findTable env.databases db table [] [] = .ok t) {w : Option Expr} {rows : List Row}
    (hRows : rowsWhere env db t w = .ok rows) {ci : Nat} (hNumeric : NumericColumn ci t.rows) :
    (∀ distinct projection having orderBy limit offset,
      isAggregateOnly projection (.expressions []) = true →
      ∃ cell : SelectItem → Option Str,
        select env dbName
            (tableQuery name distinct projection w (.expressions []) having orderBy limit offset) =
          .ok (.rows (projection.map itemLabel) [projection.map cell]) ∧
        ∀ p f agg, p.function? = some f → Aggregate.Calls agg t.columns ci f →
          (ShowsNumber (cell p) (agg.value (numbers ci rows)) ↔ agg.Served t.columns ci f rows)) ∧
    ∀ exprs distinct projection orderBy limit offset,
      groupByCols t.columns (.expressions exprs) ≠ [] →
      ∃ (keys : List TextRow) (cell : TextRow → SelectItem → Option Str),
        keys.Nodup ∧
        (∀ k, k ∈ keys ↔
          ∃ row ∈ rows, shownCells (groupByCols t.columns (.expressions exprs)) row = k) ∧
        select env dbName
            (tableQuery name distinct projection w (.expressions exprs) none orderBy limit offset) =
          .ok (.rows (projection.map itemLabel) (keys.map fun k => projection.map (cell k))) ∧
        ∀ k p f agg, p.function? = some f → Aggregate.Calls agg t.columns ci f →
          let group := rows.filter fun row =>
            shownCells (groupByCols t.columns (.expressions exprs)) row = k
          (ShowsNumber (cell k p) (agg.value (numbers ci group)) ↔
            agg.Served t.columns ci f group) := by
  have hRowsNumeric : NumericColumn ci rows := by
    rw [rowsWhere] at hRows
    obtain ⟨w', -, hKept⟩ := ok_of_bind hRows
    exact fun row hRow => hNumeric row ((filterRows_sublist hKept).subset hRow)
  constructor
  · intro distinct projection having orderBy limit offset hOnly
    refine ⟨_, select_aggregates hTarget hTable hRows hOnly distinct having orderBy limit offset, ?_⟩
    intro p f agg hCall hCalls
    rw [hCall, Option.bind_some, evalAggregate_calls hCalls]
    exact served_iff hCalls hRowsNumeric
  · intro exprs distinct projection orderBy limit offset hBy
    have hExprs : exprs ≠ [] := by
      rintro rfl
      exact hBy rfl
    have hGroups := grouped_groupRows (groupByCols t.columns (.expressions exprs)) rows
    refine ⟨(groupRows (groupByCols t.columns (.expressions exprs)) rows).map Prod.fst,
      fun k p => groupCell t.columns (groupByCols t.columns (.expressions exprs)) k
        (rows.filter fun row =>
          shownCells (groupByCols t.columns (.expressions exprs)) row = k) p,
      hGroups.nodup, hGroups.covered, ?_, ?_⟩
    · rw [select_groups hTarget hTable hRows hExprs hBy, List.map_map]
      congr 2
      refine List.map_congr_left fun g hg => ?_
      rw [hGroups.members g hg]
      rfl
    · intro k p f agg hCall hCalls
      dsimp only
      rw [groupCell_function hCall, evalGroupAggregate_calls hCalls]
      exact served_iff hCalls fun row hRow => hRowsNumeric row (List.mem_filter.1 hRow).1

end Aggregates

-- ---------------------------------------------------------------------------
-- A NULL
-- ---------------------------------------------------------------------------

section OneNull

/-- Calls print with the argument `a`. -/
local instance aggregatesPlatform : Platform :=
  { tablePlatform [] with functionArgumentsToString := fun _ => "(a)" }

def countOfA : Function :=
  .mk [⟨"COUNT", none⟩] (.list (.mk none [.unnamed (.expr columnA)] [])) none

/-- `SELECT COUNT(a) FROM t`. -/
def selectCountOfA : Query :=
  tableQuery nameT none [.unnamedExpr (.function countOfA)] none (.expressions []) none none none none

theorem countOfA_calls : Aggregate.count.Calls (tableA []).columns 0 countOfA where
  name := by decide +kernel
  column := ⟨columnA, rfl, by decide +kernel⟩
  other := fun cj hPos => by
    have hZero : columnPosition (tableA []).columns (argsColumn countOfA.args) = some 0 := by
      decide +kernel
    exact Option.some.inj (hPos.symm.trans hZero)

theorem aNull_numeric : NumericColumn 0 [[Value.null]] := by
  intro row hRow
  obtain rfl := List.mem_singleton.1 hRow
  exact .inl rfl

theorem aNull_target :
    resolveName "test" (ObjectName.toString nameT) = (("test" : Str), ("t" : Str)) := by
  decide +kernel

theorem countOfA_rows : select ((oneTable [[.null]]).env 0) "test" selectCountOfA =
    .ok (.rows [[]] [[some "1"]]) := by
  decide +kernel

theorem aggregates_iff_null : ∃ cell : SelectItem → Option Str,
    select ((oneTable [[.null]]).env 0) "test" selectCountOfA =
      .ok (.rows [itemLabel (.unnamedExpr (.function countOfA))]
        [[cell (.unnamedExpr (.function countOfA))]]) ∧
    (ShowsNumber (cell (.unnamedExpr (.function countOfA)))
        (Aggregate.count.value (numbers 0 [[.null]])) ↔
      Aggregate.count.Served (tableA []).columns 0 countOfA [[.null]]) := by
  have hTable : findTable ((oneTable [[.null]]).env 0).databases "test" "t" [] [] =
      .ok (tableA [[.null]]) := rfl
  have hRows : rowsWhere ((oneTable [[.null]]).env 0) "test" (tableA [[.null]]) none =
      .ok [[.null]] := rfl
  obtain ⟨cell, hRun, hCells⟩ := (aggregates_iff aNull_target hTable hRows aNull_numeric).1 none
    [.unnamedExpr (.function countOfA)] none none none none (by decide +kernel)
  exact ⟨cell, hRun, hCells _ _ .count rfl countOfA_calls⟩

/-- The NULL is counted. -/
theorem not_aggregates : ¬ ∀ (env : QueryEnv) (dbName db table : Str) (name : ObjectName) (t : Table),
    resolveName dbName (ObjectName.toString name) = (db, table) →
    findTable env.databases db table [] [] = .ok t →
    ∀ (w : Option Expr) (rows : List Row), rowsWhere env db t w = .ok rows →
      ∀ ci, NumericColumn ci t.rows → ∀ p f agg total, p.function? = some f →
        Aggregate.Calls agg t.columns ci f →
        select env dbName (tableQuery name none [p] w (.expressions []) none none none none) =
          .ok (.rows [itemLabel p] [[total]]) →
        ShowsNumber total (agg.value (numbers ci rows)) := by
  intro hAll
  have hShows := hAll ((oneTable [[.null]]).env 0) "test" "test" "t" nameT (tableA [[.null]])
    aNull_target rfl none [[.null]] rfl 0 aNull_numeric
    (.unnamedExpr (.function countOfA)) countOfA .count (some "1") rfl countOfA_calls countOfA_rows
  revert hShows
  show ShowsNumber (some (natToString 1)) (some ((0 : ℕ) : ℚ)) → False
  rw [showsNumber_nat]
  exact fun h => Nat.one_ne_zero (Nat.cast_inj.1 h)

end OneNull

end RunAlexDb
