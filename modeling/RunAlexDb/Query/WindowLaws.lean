import Mathlib.Algebra.Order.BigOperators.Group.List
import Mathlib.Algebra.Order.Group.Nat
import RunAlexDb.Lib.KeyedSorts
import RunAlexDb.Query.Aggregates
import RunAlexDb.Query.OrderedRows
import RunAlexDb.Query.WindowQueries

/-!
# WindowLaws — window functions and the values of a table

In SQL a window groups and sorts by the values of the table, ranks give ties one number,
and a sum is that of the values in the group. The engine groups and sorts by printed
cells, writes places for ranks, and for a sum what the cells of its own column add up
to, which are empty.

Main result: `laws_iff`.
-/

set_option linter.unusedSectionVars false

namespace RunAlexDb

open Text Platform Windows KeyedSorts

-- ---------------------------------------------------------------------------
-- Values in order
-- ---------------------------------------------------------------------------

/-- Texts and byte strings as bytes. -/
def Value.content : Value → List UInt8
  | .text s => Text.bytes s
  | .bytes b => b
  | _ => []

/-- What a value is grouped and sorted by: NULL and numbers by their place, everything
else after them by its bytes. -/
abbrev Standing := WithTop (WithBot (WithBot (WithTop ℚ))) × List UInt8

instance : DecidableEq Standing := inferInstance

def Value.standing (v : Value) : Standing :=
  (v.place.elim ⊤ fun p => (p : WithTop (WithBot (WithBot (WithTop ℚ)))), v.content)

def cmpStanding : Standing → Standing → Ordering :=
  compareLex (compareOn Prod.fst) fun a b => List.compareLex (compareOn UInt8.toNat) a.2 b.2

instance : Std.TransCmp cmpStanding := by
  have hContent : Std.TransCmp fun a b : Standing => List.compareLex (compareOn UInt8.toNat) a.2 b.2 :=
    transCmp_key Prod.snd
  unfold cmpStanding
  infer_instance

/-- The columns that the clauses and the sum of a window name. -/
structure WindowColumns where
  parts : List Nat
  keys : List (Nat × Bool)
  summand : Nat

namespace WindowColumns

variable (c : WindowColumns)

/-- What the rows of a group have in common. -/
def part (row : Row) : List Standing := c.parts.map fun ci => (valueAt ci row).standing

/-- SQL's order by one column. -/
def cmpKey (k : Nat × Bool) : Row → Row → Ordering :=
  directed k.2 fun a b => cmpStanding (valueAt k.1 a).standing (valueAt k.1 b).standing

/-- The window order. -/
def cmp : Row → Row → Ordering := compareAll (c.keys.map cmpKey)

instance : Std.TransCmp c.cmp := by
  refine transCmp_compareAll fun cmp hcmp => ?_
  obtain ⟨k, -, rfl⟩ := List.mem_map.1 hcmp
  have hRows : Std.TransCmp fun a b : Row =>
      cmpStanding (valueAt k.1 a).standing (valueAt k.1 b).standing :=
    transCmp_key fun row => (valueAt k.1 row).standing
  exact OrderQuery.transCmp_directed

/-- The sum in the group of row `i`. -/
def groupSum (rows : List Row) (i : Nat) : Option ℚ :=
  Aggregate.sum.value (numbers c.summand ((peersOf c.part rows i).map (rowAt rows)))

end WindowColumns

-- ---------------------------------------------------------------------------
-- The laws
-- ---------------------------------------------------------------------------

namespace WindowQuery

section Laws

variable [Platform] (q : WindowQuery)

/-- The columns are those the window names, and what it sums are numbers. -/
structure Over (cols : List Column) (rows : List Row) (c : WindowColumns) : Prop where
  call : toUppercase (ObjectName.toString q.call) = q.fn.name
  partitionBy : q.partitionBy.map (Expr.scanColumn cols) = c.parts.map some
  orderBy : q.orderBy.map (fun oe => (oe.expr.scanColumn cols, oe.asc)) =
    c.keys.map fun k => (some k.1, k.2)
  summand : ∀ x, q.fn = .sum x →
    x.scanColumn cols = some c.summand ∧ NumericColumn c.summand rows

/-- What the cells of the window are to be. ROW_NUMBER: 1, 2 and so on in each group,
along the window order. RANK, DENSE_RANK: the same for rows that tie. COUNT: the size of
the group. SUM: its sum. -/
def Law (c : WindowColumns) (rows : List Row) (cell : Nat → Option Str) : Prop :=
  match q.fn with
  | .rowNumber => ∃ num, Numbered c.part c.cmp rows num ∧
      ∀ i < rows.length, cell i = some (natToString (num i))
  | .rank | .denseRank => Tied c.part c.cmp rows cell
  | .count => ∀ i < rows.length, cell i = some (natToString (peersOf c.part rows i).length)
  | .sum _ => ∀ i < rows.length, ShowsNumber (cell i) (c.groupSum rows i)

/-- Output columns of an item. -/
def itemWidth (cols : List Column) (p : SelectItem) : Nat := if p.isWildcard then cols.length else 1

/-- The output column of the window. -/
def position (cols : List Column) : Nat := (q.before.map (itemWidth cols)).sum

def width (cols : List Column) : Nat := (q.projection.map (itemWidth cols)).sum

/-- A line for each row, as wide as the list asks for, and the law in the column of the
window. -/
structure Shown (cols : List Column) (c : WindowColumns) (rows : List Row) (lines : List TextRow) :
    Prop where
  count : lines.length = rows.length
  wide : ∀ line ∈ lines, line.length = q.width cols
  law : q.Law c rows fun i => (rowAt lines i)[q.position cols]?.join

/-- The query is right on every table of which its condition keeps some of these rows. -/
def Served (now : Nat) (cols : List Column) (c : WindowColumns) (rows : List Row) : Prop :=
  ∀ (env : QueryEnv) (dbName db table : Str) (name : ObjectName) (t : Table) (w : Option Expr)
    (kept : List Row), resolveName dbName (ObjectName.toString name) = (db, table) →
    findTable env.databases db table [] [] = .ok t → env.now = now → t.columns = cols →
    rowsWhere env db t w = .ok kept → kept.Sublist rows →
    ∃ names lines, select env dbName (q.query name w) = .ok (.rows names lines) ∧
      q.Shown cols c kept lines

-- ---------------------------------------------------------------------------
-- When they hold
-- ---------------------------------------------------------------------------

/-- What the printed cells have to do. ROW_NUMBER: make the same groups, and sort first
what the window order puts first. RANK, DENSE_RANK: put rows that tie into groups of
their own, each before the others there. COUNT: make the same groups. SUM: nothing, for
the sums are zero. -/
def Right (now : Nat) (cols : List Column) (c : WindowColumns) (rows : List Row) : Prop :=
  match q.fn with
  | .rowNumber => Agree c.part (q.printedKey now cols) rows ∧
      Follows c.part c.cmp (q.PrintedBefore now cols) rows
  | .rank | .denseRank => TiesApart c.part (q.printedKey now cols) c.cmp (q.PrintedBefore now cols) rows
  | .count => Agree c.part (q.printedKey now cols) rows
  | .sum _ => ∀ row ∈ rows, (valueAt c.summand row).number? = some 0

/-- The list has an item that is no aggregate call and, where there are rows, no
wildcard; no name is that of an earlier window; the items can be evaluated; and the
printed cells do what they have to. -/
structure Sound (now : Nat) (cols : List Column) (c : WindowColumns) (rows : List Row) : Prop where
  perRow : isAggregateOnly q.projection (.expressions []) = false
  items : rows = [] ∨ q.projection.any SelectItem.isWildcard = false
  separate : q.Separate cols
  evaluated : ∀ row ∈ rows, (evalOutputs now cols (q.outputs cols) row).isOk
  right : q.Right now cols c rows

end Laws

-- ---------------------------------------------------------------------------
-- The laws on what is written
-- ---------------------------------------------------------------------------

section Given

variable [Platform] {q : WindowQuery} {c : WindowColumns} {rows : List Row}

/-- A law is about the cells of the rows. -/
theorem law_congr {cell cell' : Nat → Option Str} (h : ∀ i < rows.length, cell i = cell' i) :
    q.Law c rows cell ↔ q.Law c rows cell' := by
  have hTied : Tied c.part c.cmp rows cell ↔ Tied c.part c.cmp rows cell' := by
    refine forall_congr' fun i => forall_congr' fun hi => forall_congr' fun k =>
      forall_congr' fun hk => ?_
    rw [h i hi, h k (mem_peersOf.1 hk).1]
  unfold Law
  split
  · refine exists_congr fun num => and_congr_right fun _ => ?_
    exact forall_congr' fun i => forall_congr' fun hi => by rw [h i hi]
  · exact hTied
  · exact hTied
  · exact forall_congr' fun i => forall_congr' fun hi => by rw [h i hi]
  · exact forall_congr' fun i => forall_congr' fun hi => by rw [h i hi]

theorem law_nil (cell : Nat → Option Str) : q.Law c [] cell := by
  unfold Law
  split
  · exact ⟨fun _ => 0, ⟨nofun, nofun⟩, nofun⟩
  all_goals exact nofun

theorem right_nil (now : Nat) (cols : List Column) : q.Right now cols c [] := by
  unfold Right
  split
  · exact ⟨nofun, .nil⟩
  all_goals exact nofun

theorem tied_numerals {num : Nat → Nat} :
    Tied c.part c.cmp rows (fun i => some (natToString (num i))) ↔ Tied c.part c.cmp rows num := by
  refine forall_congr' fun i => forall_congr' fun _ => forall_congr' fun k => forall_congr' fun _ =>
    forall_congr' fun _ => ?_
  rw [Option.some.injEq, natToString_inj]

theorem law_places {num : Nat → Nat} :
    (∃ n, Numbered c.part c.cmp rows n ∧
        ∀ i < rows.length, some (natToString (num i)) = some (natToString (n i))) ↔
      Numbered c.part c.cmp rows num := by
  constructor
  · rintro ⟨n, hNumbered, hSame⟩
    refine hNumbered.congr fun i hi => ?_
    exact (natToString_inj.1 (Option.some.inj (hSame i hi))).symm
  · exact fun h => ⟨num, h, fun _ _ => rfl⟩

/-- Sums are zero exactly where all numbers are. -/
theorem forall_groupSum_iff {cell : Option Str} (hZero : ShowsNumber cell (some 0)) :
    (∀ sub, sub.Sublist rows → ∀ i < sub.length, ShowsNumber cell (c.groupSum sub i)) ↔
      ∀ row ∈ rows, (valueAt c.summand row).number? = some 0 := by
  have hValue : ∀ v : Option ℚ, ShowsNumber cell v ↔ v = some 0 := by
    intro v
    unfold ShowsNumber at hZero ⊢
    rw [hZero]
    cases v with
    | none => simp
    | some x => simp [eq_comm]
  constructor
  · intro h row hRow
    have hAlone := (hValue _).1 (h [row] (List.singleton_sublist.2 hRow) 0 (by simp))
    have hNumbers : numbers c.summand ((peersOf c.part [row] 0).map (rowAt [row])) =
        ((valueAt c.summand row).number?).toList := by
      have hSelf : peersOf c.part [row] 0 = [0] := peers_eq_single Nat.zero_lt_one fun k hk _ =>
        Nat.lt_one_iff.1 hk
      rw [hSelf]
      unfold numbers
      cases hNumber : (valueAt c.summand row).number? <;> simp [rowAt, hNumber]
    unfold WindowColumns.groupSum at hAlone
    rw [hNumbers] at hAlone
    cases hNumber : (valueAt c.summand row).number? with
    | none =>
      rw [hNumber] at hAlone
      cases hAlone
    | some x =>
      rw [hNumber] at hAlone
      simpa [Aggregate.value] using hAlone
  · intro h sub hSub i hi
    refine (hValue _).2 ?_
    have hNumbers : numbers c.summand ((peersOf c.part sub i).map (rowAt sub)) =
        (peersOf c.part sub i).map fun _ => 0 := by
      unfold numbers
      rw [List.filterMap_map, ← List.filterMap_eq_map]
      refine List.filterMap_congr fun k hk => ?_
      exact h _ (hSub.subset (rowAt_mem (mem_peersOf.1 hk).1))
    have hSome : peersOf c.part sub i ≠ [] := List.ne_nil_of_mem (mem_peersOf.2 ⟨hi, rfl⟩)
    unfold WindowColumns.groupSum Aggregate.value
    rw [hNumbers, if_neg (by simpa using hSome)]
    simp

/-- What is written is lawful on all tables of these rows exactly when the printed cells
do what they have to. -/
theorem forall_law_iff (hZero : ShowsNumber (some (sumText [])) (some 0)) (now : Nat)
    (cols : List Column) :
    (∀ sub, sub.Sublist rows → q.Law c sub fun i => some (q.given now cols sub i)) ↔
      q.Right now cols c rows := by
  unfold Law Right given
  cases q.fn with
  | rowNumber =>
    simp only [law_places]
    exact forall_numbered_iff
  | rank =>
    simp only [tied_numerals]
    exact forall_tied_iff
  | denseRank =>
    simp only [tied_numerals]
    exact forall_tied_iff
  | count =>
    simp only [Option.some.injEq, natToString_inj]
    exact forall_length_peersOf_iff
  | sum x => exact forall_groupSum_iff hZero

end Given

-- ---------------------------------------------------------------------------
-- Output columns
-- ---------------------------------------------------------------------------

section Columns

variable [Platform] {q : WindowQuery} {cols : List Column}

theorem sum_itemWidth {items : List SelectItem} (h : ∀ p ∈ items, p.isWildcard = false) :
    (items.map (itemWidth cols)).sum = items.length := by
  have hOne : items.map (itemWidth cols) = items.map fun _ => 1 :=
    List.map_congr_left fun p hp => if_neg (by simp [h p hp])
  rw [hOne]
  simp

theorem not_wildcard (hPlain : q.projection.any SelectItem.isWildcard = false) :
    ∀ p ∈ q.projection, p.isWildcard = false := fun p hp => by
  simpa using List.any_eq_false.1 hPlain p hp

theorem position_eq (hPlain : q.projection.any SelectItem.isWildcard = false) :
    q.position cols = q.before.length :=
  sum_itemWidth fun p hp => not_wildcard hPlain p (List.mem_append_left _ hp)

theorem width_eq (hPlain : q.projection.any SelectItem.isWildcard = false) :
    q.width cols = q.projection.length := sum_itemWidth (not_wildcard hPlain)

/-- A wildcard and the window are more than the columns of the table. -/
theorem lt_width (hStar : q.projection.any SelectItem.isWildcard = true) :
    cols.length < q.width cols := by
  obtain ⟨p, hp, hWild⟩ := List.any_eq_true.1 hStar
  have hOther : p ∈ q.before ++ q.after := by
    rcases List.mem_append.1 hp with hBefore | hRest
    · exact List.mem_append_left _ hBefore
    · rcases List.mem_cons.1 hRest with rfl | hAfter
      · rw [isWildcard_item] at hWild
        cases hWild
      · exact List.mem_append_right _ hAfter
  have hLe : itemWidth cols p ≤ ((q.before ++ q.after).map (itemWidth cols)).sum :=
    List.single_le_sum (fun _ _ => Nat.zero_le _) _ (List.mem_map_of_mem hOther)
  have hItem : itemWidth cols q.item = 1 := if_neg (by simp [isWildcard_item])
  have hStars : itemWidth cols p = cols.length := if_pos hWild
  have hWidth : q.width cols = ((q.before ++ q.after).map (itemWidth cols)).sum + 1 := by
    unfold width projection
    simp only [List.map_append, List.sum_append, List.map_cons, List.sum_cons, hItem]
    omega
  omega

end Columns

-- ---------------------------------------------------------------------------
-- The query
-- ---------------------------------------------------------------------------

section Results

variable [Platform] {q : WindowQuery} {now : Nat} {cols : List Column} {c : WindowColumns}
  {rows : List Row}

theorem served_of_sound (hZero : ShowsNumber (some (sumText [])) (some 0)) (hOver : q.Over cols rows c)
    (h : q.Sound now cols c rows) : q.Served now cols c rows := by
  rintro env dbName db table name t w kept hTarget hTable rfl rfl hKept hSub
  rcases h.items with rfl | hPlain
  · obtain rfl := List.sublist_nil.1 hSub
    have hRun : select env dbName (q.query name w) = .ok (.rows (q.names t.columns)
        ((winItems (q.outputs t.columns)).foldl (applyWindow (q.names t.columns)) [])) :=
      select_query hTarget hTable hKept h.perRow
    have hNone :
        ((winItems (q.outputs t.columns)).foldl (applyWindow (q.names t.columns)) []).length = 0 :=
      (agreeOn_windows (P := fun _ => False) (fun _ _ => id) []).lines
    rw [List.length_eq_zero_iff] at hNone
    rw [hNone] at hRun
    exact ⟨_, _, hRun, rfl, nofun, law_nil _⟩
  · have hEval : ∀ row ∈ kept, (evalOutputs env.now t.columns (q.outputs t.columns) row).isOk :=
      fun row hRow => h.evaluated row (hSub.subset hRow)
    obtain ⟨lines, hRun, hCount, hWide, hCells⟩ :=
      select_window hTarget hTable hKept h.perRow hOver.call hPlain h.separate hEval
    refine ⟨_, lines, hRun, hCount, ?_, ?_⟩
    · rwa [width_eq hPlain]
    · rw [position_eq hPlain, law_congr hCells]
      exact (forall_law_iff hZero env.now t.columns).2 h.right kept hSub

theorem findTable_onlyTable (now : Nat) (cols : List Column) (rows : List Row) :
    findTable (OrderQuery.onlyTable now cols rows).databases "test" "t" [] [] =
      .ok (Table.create "test" "t" cols rows) := rfl

theorem rowsWhere_onlyTable (now : Nat) (cols : List Column) (rows : List Row) :
    rowsWhere (OrderQuery.onlyTable now cols rows) "test" (Table.create "test" "t" cols rows) none =
      .ok rows := rfl

/-- The rows as a table of their own. -/
theorem shown_of_served (h : q.Served now cols c rows) {sub : List Row} (hSub : sub.Sublist rows) :
    ∃ names lines, select (OrderQuery.onlyTable now cols sub) "test" (q.query nameT none) =
      .ok (.rows names lines) ∧ q.Shown cols c sub lines :=
  h (OrderQuery.onlyTable now cols sub) "test" "test" "t" nameT (Table.create "test" "t" cols sub) none
    sub OrderQuery.resolveName_t (findTable_onlyTable now cols sub) rfl rfl
    (rowsWhere_onlyTable now cols sub) hSub

/-- A list of aggregate calls has one line, also where there is no row. -/
theorem perRow_of_served (h : q.Served now cols c rows) :
    isAggregateOnly q.projection (.expressions []) = false := by
  rw [← Bool.not_eq_true]
  intro hOnly
  obtain ⟨names, lines, hRun, hShown⟩ := shown_of_served h (List.nil_sublist rows)
  have hLine := select_aggregates OrderQuery.resolveName_t (findTable_onlyTable now cols [])
    (rowsWhere_onlyTable now cols []) hOnly none none none none none
  have hSame := hRun.symm.trans hLine
  obtain ⟨-, rfl⟩ := QueryResult.rows.inj (Except.ok.inj hSame)
  exact nomatch hShown.count

/-- A row alone. -/
theorem line_of_served (h : q.Served now cols c rows) {row : Row} (hRow : row ∈ rows) :
    ∃ line, evalOutputs now cols (q.outputs cols) row = .ok line ∧ line.length = q.width cols := by
  obtain ⟨names, lines, hRun, hShown⟩ := shown_of_served h (List.singleton_sublist.2 hRow)
  have hQuery : select (OrderQuery.onlyTable now cols [row]) "test" (q.query nameT none) =
      ([row].mapM (evalOutputs now cols (q.outputs cols))).map fun lines =>
        .rows (q.names cols) ((winItems (q.outputs cols)).foldl (applyWindow (q.names cols)) lines) :=
    select_query OrderQuery.resolveName_t (findTable_onlyTable now cols [row])
      (rowsWhere_onlyTable now cols [row]) (perRow_of_served h)
  rw [hQuery, List.mapM_cons] at hRun
  cases hLine : evalOutputs now cols (q.outputs cols) row with
  | error fault =>
    rw [hLine] at hRun
    cases hRun
  | ok line =>
    rw [hLine] at hRun
    obtain ⟨-, rfl⟩ := QueryResult.rows.inj (Except.ok.inj hRun)
    -- the windows keep the width of the line
    have hKeep : AgreeOn (fun _ => False)
        ((winItems (q.outputs cols)).foldl (applyWindow (q.names cols)) [line]) [line] :=
      agreeOn_windows (fun _ _ => id) [line]
    refine ⟨line, rfl, ?_⟩
    refine (hKeep.widths 0).symm.trans (hShown.wide _ (rowAt_mem ?_))
    rw [hShown.count]
    exact Nat.zero_lt_one

/-- **What is right is sound**, if no name is that of an earlier window. -/
theorem sound_of_served (hZero : ShowsNumber (some (sumText [])) (some 0)) (hOver : q.Over cols rows c)
    (hSeparate : q.Separate cols) (h : q.Served now cols c rows) : q.Sound now cols c rows := by
  have hEval : ∀ row ∈ rows, (evalOutputs now cols (q.outputs cols) row).isOk := by
    intro row hRow
    obtain ⟨line, hLine, -⟩ := line_of_served h hRow
    rw [hLine]
    rfl
  have hItems : rows = [] ∨ q.projection.any SelectItem.isWildcard = false := by
    by_contra hNot
    obtain ⟨hSome, hStar⟩ := not_or.1 hNot
    obtain ⟨row, hRow⟩ := List.exists_mem_of_ne_nil rows hSome
    obtain ⟨line, hLine, hWidth⟩ := line_of_served h hRow
    rw [Bool.not_eq_false] at hStar
    have hOutputs : (q.outputs cols).length = cols.length := by
      unfold outputs projectionOutputs
      rw [if_pos hStar, List.length_map]
    have hLength := (forall₂_of_mapM hLine).length_eq
    have hLt : cols.length < q.width cols := lt_width hStar
    omega
  refine ⟨perRow_of_served h, hItems, hSeparate, hEval, ?_⟩
  rcases hItems with rfl | hPlain
  · exact right_nil now cols
  refine (forall_law_iff hZero now cols).1 fun sub hSub => ?_
  obtain ⟨names, lines, hRun, hShown⟩ := shown_of_served h hSub
  obtain ⟨lines', hRun', -, -, hCells⟩ := select_window OrderQuery.resolveName_t
    (findTable_onlyTable now cols sub) (rowsWhere_onlyTable now cols sub) (perRow_of_served h) hOver.call
    hPlain hSeparate fun row hRow => hEval row (hSub.subset hRow)
  obtain ⟨-, rfl⟩ := QueryResult.rows.inj (Except.ok.inj (hRun.symm.trans hRun'))
  have hLaw := hShown.law
  rwa [position_eq hPlain, law_congr hCells] at hLaw

end Results

end WindowQuery

-- ---------------------------------------------------------------------------
-- Some rows
-- ---------------------------------------------------------------------------

section SomeRows

/-- Zero is its own floor and printed as such. -/
local instance windowPlatform : Platform :=
  { tablePlatform [] with
    f64PartialCmp := fun _ _ => some .eq
    f64ToFixed := fun _ _ => "0" }

/-- `SELECT a, b, fn() OVER (PARTITION BY .. ORDER BY ..)`. -/
def windowAB (fn : WindowFn) (partitionBy orderBy : List Str) : WindowQuery where
  before := [.unnamedExpr (.identifier ⟨"a", none⟩), .unnamedExpr (.identifier ⟨"b", none⟩)]
  after := []
  label := none
  call := [⟨fn.name, none⟩]
  fn := fn
  partitionBy := partitionBy.map fun n => .identifier ⟨n, none⟩
  orderBy := orderBy.map fun n => .mk (.identifier ⟨n, none⟩) none

def textsAB : List Column := [⟨"a", .text, true, false⟩, ⟨"b", .text, true, false⟩]

def twoTied : List Row := [[.text "x", .text "u"], [.text "x", .text "u"]]

def threeRows : List Row := [[.text "x", .text "v"], [.text "x", .text "u"], [.text "y", .text "u"]]

theorem showsNumber_sumText : ShowsNumber (some (sumText [])) (some 0) :=
  (showsNumber_nat 0 0).2 Nat.cast_zero

end SomeRows

end RunAlexDb
