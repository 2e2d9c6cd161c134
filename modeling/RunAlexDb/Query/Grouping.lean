import RunAlexDb.Query.TableQueries

/-!
# Grouping — GROUP BY against the query without it

The groups of a single-table query partition the rows its condition keeps: one
group for each tuple of displayed values, every row in the group of its own. So
the counts of the groups add up to the number of rows, and their sums to the sum
that the path for queries of aggregates alone computes.

Main result: `grouped_query`.
-/

set_option linter.unusedSectionVars false

namespace RunAlexDb

open Text Platform

section Grouping

variable [Platform]

-- ---------------------------------------------------------------------------
-- Sums of 64-bit integers
-- ---------------------------------------------------------------------------

theorem foldl_add_int64 (a : Int64) (ns : List Int64) : ns.foldl (· + ·) a = a + sumInts ns := by
  induction ns generalizing a with
  | nil => exact (Int64.add_zero a).symm
  | cons n ns ih =>
    have hSum : sumInts (n :: ns) = 0 + n + sumInts ns := ih (0 + n)
    rw [List.foldl_cons, ih, hSum, Int64.zero_add, Int64.add_assoc]

theorem sumInts_cons (n : Int64) (ns : List Int64) : sumInts (n :: ns) = n + sumInts ns := by
  show ns.foldl (· + ·) (0 + n) = _
  rw [foldl_add_int64, Int64.zero_add]

theorem sumInts_append (ms ns : List Int64) : sumInts (ms ++ ns) = sumInts ms + sumInts ns := by
  rw [sumInts, List.foldl_append]
  exact foldl_add_int64 _ ns

theorem sumInts_flatten (parts : List (List Int64)) :
    sumInts (parts.map sumInts) = sumInts parts.flatten := by
  induction parts with
  | nil => rfl
  | cons p parts ih => rw [List.map_cons, sumInts_cons, ih, List.flatten_cons, sumInts_append]

theorem sumInts_perm {ms ns : List Int64} (h : ms.Perm ns) : sumInts ms = sumInts ns := by
  induction h with
  | nil => rfl
  | cons n _ ih => rw [sumInts_cons, sumInts_cons, ih]
  | swap m n ns =>
    rw [sumInts_cons, sumInts_cons, sumInts_cons, sumInts_cons, ← Int64.add_assoc,
      ← Int64.add_assoc, Int64.add_comm n m]
  | trans _ _ ih ih' => rw [ih, ih']

-- ---------------------------------------------------------------------------
-- Tuples of group values
-- ---------------------------------------------------------------------------

/-- The displayed value of a plain column in a row. -/
def shownColumn (cols : List Column) (row : Row) (e : Expr) : Option Str :=
  ((plainName e).bind (columnPosition cols)).bind fun ci => row[ci]?.bind Value.toDisplay

/-- The displayed values of the GROUP BY columns. -/
def groupTuple (cols : List Column) (exprs : List Expr) (row : Row) : TextRow :=
  exprs.map (shownColumn cols row)

/-- One or more plain columns that the table has. -/
structure ExistingColumns (cols : List Column) (exprs : List Expr) : Prop where
  some_column : exprs ≠ []
  exist : ∀ e ∈ exprs, ((plainName e).bind (columnPosition cols)).isSome = true

section Columns

variable {cols : List Column} {exprs : List Expr}

theorem groupByCols_ne_nil (h : ExistingColumns cols exprs) :
    groupByCols cols (.expressions exprs) ≠ [] := by
  obtain ⟨e, hMem⟩ := List.exists_mem_of_ne_nil _ h.some_column
  obtain ⟨ci, hCi⟩ := Option.isSome_iff_exists.1 (h.exist e hMem)
  exact List.ne_nil_of_mem (List.mem_filterMap.2 ⟨e, hMem, hCi⟩)

theorem shownCells_groupByCols (h : ∀ e ∈ exprs, ((plainName e).bind (columnPosition cols)).isSome)
    (row : Row) :
    shownCells (groupByCols cols (.expressions exprs)) row = groupTuple cols exprs row := by
  induction exprs with
  | nil => rfl
  | cons e exprs ih =>
    obtain ⟨ci, hCi⟩ := Option.isSome_iff_exists.1 (h e (List.mem_cons_self ..))
    have hTail := ih fun e' he' => h e' (List.mem_cons_of_mem _ he')
    have hCols : groupByCols cols (.expressions (e :: exprs)) =
        ci :: groupByCols cols (.expressions exprs) := List.filterMap_cons_some hCi
    have hShown : shownColumn cols row e = row[ci]?.bind Value.toDisplay := by
      rw [shownColumn, hCi, Option.bind_some]
    rw [hCols, groupTuple, List.map_cons, hShown]
    exact congrArg _ hTail

/-- A position found for one spelling of a name is found for the other. -/
theorem columnPosition_of_eqIgnoreCase {n m : Str} {ci : Nat} {col : Column}
    (hPos : columnPosition cols n = some ci) (hCol : cols[ci]? = some col)
    (hName : eqIgnoreAsciiCase col.name m = true) : columnPosition cols m = some ci := by
  obtain ⟨hLt, hHere, hBefore⟩ := List.findIdx?_eq_some_iff_getElem.1 hPos
  obtain ⟨_, hEq⟩ := List.getElem?_eq_some_iff.1 hCol
  rw [hEq] at hHere
  -- the two spellings have one lower-case form
  have hSame : toAsciiLowercase n = toAsciiLowercase m := by
    rw [eqIgnoreAsciiCase, beq_iff_eq] at hHere hName
    rw [← hHere, hName]
  refine List.findIdx?_eq_some_iff_getElem.2 ⟨hLt, by rw [hEq]; exact hName, fun j hj => ?_⟩
  have hNot := hBefore j hj
  rwa [eqIgnoreAsciiCase, hSame, ← eqIgnoreAsciiCase] at hNot

/-- A GROUP BY column shows the value its group has there. -/
theorem groupCell_column {e : Expr} (hMem : e ∈ exprs)
    (hExist : ((plainName e).bind (columnPosition cols)).isSome = true) (row : Row)
    (rows : List Row) :
    groupCell cols (groupByCols cols (.expressions exprs))
        (shownCells (groupByCols cols (.expressions exprs)) row) rows (.unnamedExpr e) =
      shownColumn cols row e := by
  obtain ⟨ci, hCi⟩ := Option.isSome_iff_exists.1 hExist
  obtain ⟨n, hName, hPos⟩ := Option.bind_eq_some_iff.1 hCi
  have hBy : ci ∈ groupByCols cols (.expressions exprs) := List.mem_filterMap.2 ⟨e, hMem, hCi⟩
  have hNamed : ∀ c, c ∈ groupByCols cols (.expressions exprs) →
      (cols[c]?.elim false fun col => eqIgnoreAsciiCase col.name n) = true → c = ci := by
    intro c hc hIs
    obtain ⟨e', -, hCi'⟩ := List.mem_filterMap.1 hc
    obtain ⟨n', -, hPos'⟩ := Option.bind_eq_some_iff.1 hCi'
    cases hCol : cols[c]? with
    | none => rw [hCol] at hIs; cases hIs
    | some col =>
      rw [hCol] at hIs
      have hBoth := columnPosition_of_eqIgnoreCase hPos' hCol hIs
      exact Option.some.inj (hBoth.symm.trans hPos)
  have hIsCi : (cols[ci]?.elim false fun col => eqIgnoreAsciiCase col.name n) = true := by
    obtain ⟨hLt, hHere, -⟩ := List.findIdx?_eq_some_iff_getElem.1 hPos
    rw [List.getElem?_eq_getElem hLt]
    exact hHere
  have hCell : groupCell cols (groupByCols cols (.expressions exprs))
      (shownCells (groupByCols cols (.expressions exprs)) row) rows (.unnamedExpr e) =
      ((groupByCols cols (.expressions exprs)).findIdx? fun c =>
        cols[c]?.elim false fun col => eqIgnoreAsciiCase col.name n).bind fun pos =>
          (shownCells (groupByCols cols (.expressions exprs)) row)[pos]?.join := by
    cases e with
    | function f => cases hName
    | _ => rw [groupCell, hName] <;> first | rfl | nofun
  rw [hCell, shownColumn, hCi, Option.bind_some]
  cases hFind : (groupByCols cols (.expressions exprs)).findIdx? fun c =>
      cols[c]?.elim false fun col => eqIgnoreAsciiCase col.name n with
  | none =>
    have hNot := List.findIdx?_eq_none_iff.1 hFind ci hBy
    rw [hIsCi] at hNot
    cases hNot
  | some pos =>
    obtain ⟨hLt, hHere, -⟩ := List.findIdx?_eq_some_iff_getElem.1 hFind
    have hIs := hNamed _ (List.getElem_mem hLt) hHere
    rw [Option.bind_some, shownCells, List.getElem?_map, List.getElem?_eq_getElem hLt, hIs]
    rfl

end Columns

-- ---------------------------------------------------------------------------
-- Counts and sums
-- ---------------------------------------------------------------------------

/-- A call of COUNT without DISTINCT, `COUNT(*)` above all. -/
structure CountsRows (f : Function) : Prop where
  name : toUppercase (ObjectName.toString f.name) = "COUNT"
  plain : f.args.isDistinct = false

/-- A call of SUM. -/
def CallsSum (f : Function) : Prop := toUppercase (ObjectName.toString f.name) = "SUM"

/-- The cells are integers that add up to `total`, modulo 2^64; or, where the
argument is no column, all is NULL. -/
def AddsUp (cells : List (Option Str)) (total : Option Str) : Prop :=
  (∃ ns : List Int64, cells = ns.map (fun n => some (i64ToString n)) ∧
    total = some (i64ToString (sumInts ns))) ∨
  (∀ c ∈ cells, c = none) ∧ total = none

theorem groupCell_function {p : SelectItem} {f : Function} (hCall : p.function? = some f)
    (cols : List Column) (byCols : List Nat) (key : TextRow) (rows : List Row) :
    groupCell cols byCols key rows p = evalGroupAggregate cols rows f := by
  unfold SelectItem.function? at hCall
  split at hCall
  · obtain rfl := Option.some.inj hCall
    rfl
  · obtain rfl := Option.some.inj hCall
    rfl
  · cases hCall

theorem evalGroupAggregate_count {f : Function} (h : CountsRows f) (cols : List Column)
    (rows : List Row) : evalGroupAggregate cols rows f = some (natToString rows.length) := by
  rw [evalGroupAggregate, h.name]
  show (if f.args.isDistinct && _ && _ then _ else _) = _
  rw [h.plain]
  rfl

theorem evalGroupAggregate_sum {f : Function} (h : CallsSum f) (cols : List Column)
    (rows : List Row) :
    evalGroupAggregate cols rows f =
      (columnPosition cols (argsColumn f.args)).map fun ci =>
        i64ToString (sumInts (columnInts ci rows)) := by
  rw [evalGroupAggregate, h]
  show Option.bind _ _ = _
  cases columnPosition cols (argsColumn f.args) <;> rfl

theorem evalAggregate_sum {f : Function} (h : CallsSum f) (cols : List Column) (rows : List Row) :
    evalAggregate cols rows f =
      (columnPosition cols (argsColumn f.args)).map fun ci =>
        i64ToString (sumInts (columnInts ci rows)) := by
  rw [evalAggregate, h]
  show Option.bind _ _ = _
  cases columnPosition cols (argsColumn f.args) <;> rfl

section Groups

variable {cmp : TextRow → TextRow → Ordering} {key : Row → TextRow} {rows : List Row}
  {groups : Groups}

/-- The groups hold as many rows as there are. -/
theorem sum_length_groups (h : Grouped cmp key rows groups) :
    (groups.map fun g => g.2.length).sum = rows.length := by
  have hLength := h.perm.length_eq
  rwa [List.length_flatten, List.map_map] at hLength

/-- The sums of the groups add up to the sum of all rows. -/
theorem sumInts_groups (h : Grouped cmp key rows groups) (ci : Nat) :
    sumInts (groups.map fun g => sumInts (columnInts ci g.2)) = sumInts (columnInts ci rows) := by
  have hParts : groups.map (fun g => sumInts (columnInts ci g.2)) =
      ((groups.map Prod.snd).map (columnInts ci)).map sumInts := by
    rw [List.map_map, List.map_map]
    rfl
  have hFlat : ((groups.map Prod.snd).map (columnInts ci)).flatten =
      columnInts ci (groups.map Prod.snd).flatten := List.filterMap_flatten.symm
  rw [hParts, sumInts_flatten, hFlat]
  exact sumInts_perm (h.perm.filterMap _)

end Groups

-- ---------------------------------------------------------------------------
-- GROUP BY against the query without it
-- ---------------------------------------------------------------------------

/-- The tuples of displayed values the rows have. -/
def groupKeys (cols : List Column) (exprs : List Expr) (rows : List Row) : List TextRow :=
  (groupRows (groupByCols cols (.expressions exprs)) rows).map Prod.fst

/-- The rows with a tuple. -/
def rowsOf (cols : List Column) (exprs : List Expr) (rows : List Row) (k : TextRow) : List Row :=
  rows.filter fun row => groupTuple cols exprs row = k

/-- The cell of an item for the rows with a tuple. -/
def tupleCell (cols : List Column) (exprs : List Expr) (rows : List Row) (k : TextRow)
    (p : SelectItem) : Option Str :=
  groupCell cols (groupByCols cols (.expressions exprs)) k (rowsOf cols exprs rows k) p

section Tuples

variable {cols : List Column} {exprs : List Expr}
  (hExist : ∀ e ∈ exprs, ((plainName e).bind (columnPosition cols)).isSome = true)
  (rows : List Row)

include hExist

theorem grouped_tuples :
    Grouped cmpKey (groupTuple cols exprs) rows
      (groupRows (groupByCols cols (.expressions exprs)) rows) := by
  have hKey : shownCells (groupByCols cols (.expressions exprs)) = groupTuple cols exprs :=
    funext (shownCells_groupByCols hExist)
  have hGroups := grouped_groupRows (groupByCols cols (.expressions exprs)) rows
  rwa [hKey] at hGroups

/-- A group is told by its tuple. -/
theorem map_groups {β : Type} (F : TextRow → List Row → β) :
    (groupRows (groupByCols cols (.expressions exprs)) rows).map (fun g => F g.1 g.2) =
      (groupKeys cols exprs rows).map fun k => F k (rowsOf cols exprs rows k) := by
  rw [groupKeys, List.map_map]
  refine List.map_congr_left fun g hg => ?_
  rw [Function.comp_apply, rowsOf, ← (grouped_tuples hExist rows).members g hg]

theorem tupleCell_column {row : Row} {e : Expr} (hMem : e ∈ exprs) :
    tupleCell cols exprs rows (groupTuple cols exprs row) (.unnamedExpr e) =
      shownColumn cols row e := by
  rw [tupleCell, ← shownCells_groupByCols hExist]
  exact groupCell_column hMem (hExist e hMem) row _

theorem tupleCell_count {p : SelectItem} {f : Function} (hCall : p.function? = some f)
    (hCount : CountsRows f) :
    ∃ n : TextRow → Nat, (∀ k, tupleCell cols exprs rows k p = some (natToString (n k))) ∧
      ((groupKeys cols exprs rows).map n).sum = rows.length := by
  refine ⟨fun k => (rowsOf cols exprs rows k).length, fun k => ?_, ?_⟩
  · rw [tupleCell, groupCell_function hCall, evalGroupAggregate_count hCount]
  · rw [← map_groups hExist rows fun _ g => g.length]
    exact sum_length_groups (grouped_tuples hExist rows)

theorem tupleCell_sum {p : SelectItem} {f : Function} (hCall : p.function? = some f)
    (hSum : CallsSum f) :
    AddsUp ((groupKeys cols exprs rows).map fun k => tupleCell cols exprs rows k p)
      (evalAggregate cols rows f) := by
  have hCell : ∀ k, tupleCell cols exprs rows k p =
      (columnPosition cols (argsColumn f.args)).map fun ci =>
        i64ToString (sumInts (columnInts ci (rowsOf cols exprs rows k))) := fun k => by
    rw [tupleCell, groupCell_function hCall, evalGroupAggregate_sum hSum]
  rw [evalAggregate_sum hSum]
  cases hPos : columnPosition cols (argsColumn f.args) with
  | none =>
    refine .inr ⟨fun c hc => ?_, rfl⟩
    obtain ⟨k, -, rfl⟩ := List.mem_map.1 hc
    rw [hCell, hPos]
    rfl
  | some ci =>
    refine .inl ⟨(groupKeys cols exprs rows).map fun k =>
      sumInts (columnInts ci (rowsOf cols exprs rows k)), ?_, ?_⟩
    · rw [List.map_map]
      refine List.map_congr_left fun k _ => ?_
      rw [hCell, hPos]
      rfl
    · rw [← map_groups hExist rows fun _ g => sumInts (columnInts ci g),
        sumInts_groups (grouped_tuples hExist rows)]
      rfl

end Tuples

/-- **GROUP BY.** One row for each tuple of displayed values, in which a GROUP BY
column shows its value; the counts add up to the number of rows, the sums to the
sum of the query without GROUP BY. -/
theorem grouped_query {env : QueryEnv} {dbName db table : Str} {name : ObjectName} {t : Table}
    (hTarget : resolveName dbName (ObjectName.toString name) = (db, table))
    (hTable : findTable env.databases db table [] [] = .ok t) {w : Option Expr} {rows : List Row}
    (hRows : rowsWhere env db t w = .ok rows) {exprs : List Expr}
    (hCols : ExistingColumns t.columns exprs) (distinct : Option Distinct)
    (projection : List SelectItem) (orderBy : Option OrderByKind) (offset : Option Expr) :
    ∃ (keys : List TextRow) (cell : TextRow → SelectItem → Option Str),
      keys.Nodup ∧ (∀ k, k ∈ keys ↔ ∃ row ∈ rows, groupTuple t.columns exprs row = k) ∧
      select env dbName
          (tableQuery name distinct projection w (.expressions exprs) none orderBy none offset) =
        .ok (.rows (projection.map itemLabel) (keys.map fun k => projection.map (cell k))) ∧
      (∀ row ∈ rows, ∀ e ∈ exprs,
        cell (groupTuple t.columns exprs row) (.unnamedExpr e) = shownColumn t.columns row e) ∧
      (∀ p f, p.function? = some f → CountsRows f → ∃ n : TextRow → Nat,
        (∀ k, cell k p = some (natToString (n k))) ∧ (keys.map n).sum = rows.length) ∧
      ∀ p f, p.function? = some f → CallsSum f → ∃ total,
        select env dbName
            (tableQuery name distinct [p] w (.expressions []) none orderBy none offset) =
          .ok (.rows [itemLabel p] [[total]]) ∧
        AddsUp (keys.map fun k => cell k p) total ∧
        ((columnPosition t.columns (argsColumn f.args)).isSome → total.isSome) := by
  have hGroups := grouped_tuples hCols.exist rows
  refine ⟨groupKeys t.columns exprs rows, tupleCell t.columns exprs rows, hGroups.nodup,
    hGroups.covered, ?_, fun row _ e he => tupleCell_column hCols.exist rows he,
    fun p f hCall hCount => tupleCell_count hCols.exist rows hCall hCount, ?_⟩
  · rw [select_groups hTarget hTable hRows hCols.some_column (groupByCols_ne_nil hCols),
      map_groups hCols.exist rows fun k g => projection.map
        (groupCell t.columns (groupByCols t.columns (.expressions exprs)) k g)]
    rfl
  · intro p f hCall hSum
    have hOnly : isAggregateOnly [p] (.expressions []) = true := by
      rw [isAggregateOnly]
      show (true && true && (p.function?.elim false _ && true)) = true
      rw [hCall, Option.elim_some, hSum]
      rfl
    refine ⟨evalAggregate t.columns rows f, ?_, tupleCell_sum hCols.exist rows hCall hSum, ?_⟩
    · rw [select_aggregates hTarget hTable hRows hOnly, List.map_singleton, List.map_singleton,
        hCall]
      rfl
    · intro hSome
      rw [evalAggregate_sum hSum]
      simpa using hSome

end Grouping

-- ---------------------------------------------------------------------------
-- Two groups
-- ---------------------------------------------------------------------------

section TwoGroups

/-- Calls print with the argument `a`. -/
local instance groupingPlatform : Platform :=
  { tablePlatform [] with functionArgumentsToString := fun _ => "(a)" }

/-- `COUNT(*)`. -/
def countAll : SelectItem :=
  .unnamedExpr (.function (.mk [⟨"COUNT", none⟩] (.list (.mk none [.unnamed .wildcard] [])) none))

/-- `SUM(a)`. -/
def sumOfA : SelectItem :=
  .unnamedExpr (.function (.mk [⟨"SUM", none⟩]
    (.list (.mk none [.unnamed (.expr (.identifier ⟨"a", none⟩))] [])) none))

def columnA : Expr := .identifier ⟨"a", none⟩

def oneTwoOne : List Row := [[.int 1], [.int 2], [.int 1]]

/-- `SELECT COUNT(*), SUM(a) FROM t GROUP BY a` on the rows 1, 2 and 1. -/
theorem grouped_query_two :
    ∃ (keys : List TextRow) (cell : TextRow → SelectItem → Option Str),
      keys.Nodup ∧
      (∀ k, k ∈ keys ↔ ∃ row ∈ oneTwoOne, groupTuple (tableA []).columns [columnA] row = k) ∧
      select ((oneTable oneTwoOne).env 0) "test"
          (tableQuery nameT none [countAll, sumOfA] none (.expressions [columnA]) none none none
            none) =
        .ok (.rows [[], []] (keys.map fun k => [cell k countAll, cell k sumOfA])) ∧
      (∃ n : TextRow → Nat,
        (∀ k, cell k countAll = some (natToString (n k))) ∧ (keys.map n).sum = 3) ∧
      AddsUp (keys.map fun k => cell k sumOfA) (some "4") := by
  have hTarget : resolveName "test" (ObjectName.toString nameT) = (("test" : Str), ("t" : Str)) := by
    decide +kernel
  have hTable : findTable ((oneTable oneTwoOne).env 0).databases "test" "t" [] [] =
      .ok (tableA oneTwoOne) := rfl
  have hRows : rowsWhere ((oneTable oneTwoOne).env 0) "test" (tableA oneTwoOne) none =
      .ok oneTwoOne := rfl
  have hCols : ExistingColumns (tableA oneTwoOne).columns [columnA] :=
    ⟨List.cons_ne_nil _ _, by decide +kernel⟩
  obtain ⟨keys, cell, hNodup, hKeys, hRun, -, hCount, hSum⟩ :=
    grouped_query hTarget hTable hRows hCols none [countAll, sumOfA] none none
  have hCallsSum : toUppercase (ObjectName.toString [⟨"SUM", none⟩]) = "SUM" := by decide +kernel
  obtain ⟨total, hTotal, hAdds, -⟩ := hSum sumOfA _ rfl hCallsSum
  have hFour : select ((oneTable oneTwoOne).env 0) "test"
      (tableQuery nameT none [sumOfA] none (.expressions []) none none none none) =
        .ok (.rows [[]] [[some "4"]]) := by
    decide +kernel
  have hSame := Except.ok.inj (hTotal.symm.trans hFour)
  obtain rfl : total = some "4" := by
    simpa using (QueryResult.rows.inj hSame).2
  exact ⟨keys, cell, hNodup, hKeys, hRun, hCount countAll _ rfl ⟨by decide +kernel, rfl⟩, hAdds⟩

end TwoGroups

end RunAlexDb
