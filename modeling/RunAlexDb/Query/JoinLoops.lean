import RunAlexDb.Model.Concrete
import RunAlexDb.Query.Joins

/-!
# JoinLoops — the joins of a FROM clause, one loop after the other

Each join extends the columns and the rows put together so far. The rows keep the
width of the columns; inner and cross joins give the tuples that meet every ON, in
the order of the loops. A left join keeps every row when it has an ON; written
with USING, or with nothing, it is a cross join, which an empty table empties.

Main result: `joinAll_iff`.
-/

set_option linter.unusedSectionVars false

namespace RunAlexDb

open Text Platform

section Loop

variable [Platform]

-- ---------------------------------------------------------------------------
-- Joins by the book
-- ---------------------------------------------------------------------------

/-- A join, its table found. -/
structure JoinStep where
  name : Str
  table : Table
  operator : JoinOperator

def joinStep (env : QueryEnv) (dbName : Str) : Join → Option JoinStep
  | .mk relation operator =>
    let (rdb, rtbl) := resolveName dbName (relationName relation)
    match findTable env.databases rdb rtbl (unknownDatabase rdb) (unknownTable rtbl) with
    | .error _ => none
    | .ok right => some ⟨rtbl, right, operator⟩

/-- The columns put together so far, with those of the join. -/
def JoinStep.columns (step : JoinStep) (cols : List Column) : List Column :=
  cols ++ joinColumns cols step.name step.table.columns

/-- The ON condition of a join of any kind. -/
def JoinOperator.onExpr : JoinOperator → Option Expr
  | .join (.on e) => some e
  | .inner (.on e) => some e
  | .left (.on e) => some e
  | .leftOuter (.on e) => some e
  | .right (.on e) => some e
  | .rightOuter (.on e) => some e
  | _ => none

/-- An INNER or a CROSS JOIN. -/
def JoinOperator.isInner : JoinOperator → Bool
  | .join _ => true
  | .inner _ => true
  | .crossJoin => true
  | _ => false

def JoinOperator.isLeft : JoinOperator → Bool
  | .left _ => true
  | .leftOuter _ => true
  | _ => false

/-- A row meets the ON condition, if there is one. -/
def JoinStep.meetsOn (now : Nat) (cols : List Column) (step : JoinStep) (row : Row) : Bool :=
  step.operator.onExpr.elim true fun e => holds now cols e row

/-- The ON conditions, each over the columns up to its join, and the tables. -/
def onSteps (now : Nat) : List Column → List JoinStep → List ((Row → Bool) × List Row)
  | _, [] => []
  | cols, step :: steps =>
    (step.meetsOn now (step.columns cols), step.table.rows) :: onSteps now (step.columns cols) steps

/-- A tuple of rows, the first of the base table, meets every ON condition. -/
def meetsEveryOn (now : Nat) (cols : List Column) (steps : List JoinStep) : List Row → Bool
  | [] => true
  | a :: tuple => meetsAll (· ++ ·) a (onSteps now cols steps) tuple

/-- What is said of the rows after the join loop. -/
structure JoinedByTheBook (now : Nat) (base : Table) (steps : List JoinStep) (cols : List Column)
    (rows : List Row) : Prop where
  width : ∀ row ∈ rows, row.length = cols.length
  inner : (∀ step ∈ steps, step.operator.isInner = true) →
    rows = ((tuples (base.rows :: steps.map fun step => step.table.rows)).filter
      (meetsEveryOn now base.columns steps)).map List.flatten
  left : (∀ step ∈ steps, step.operator.isLeft = true) →
    ∀ a ∈ base.rows, ∃ row ∈ rows, a <+: row

-- ---------------------------------------------------------------------------
-- The loop
-- ---------------------------------------------------------------------------

/-- The condition the loop asks of a row. -/
def JoinStep.kept (now : Nat) (cols : List Column) (step : JoinStep) (row : Row) : Bool :=
  step.operator.condition.1.elim true fun e => holds now cols e row

/-- What a row contributes. -/
def JoinStep.joinedRow (now : Nat) (cols : List Column) (step : JoinStep) (a : Row) : List Row :=
  let matched := (step.table.rows.map (a ++ ·)).filter (step.kept now cols)
  if matched.isEmpty && step.operator.condition.2 then
    [a ++ List.replicate step.table.columns.length .null]
  else matched

def joinedRows (now : Nat) : List Column → List JoinStep → List Row → List Row
  | _, [], rows => rows
  | cols, step :: steps, rows =>
    joinedRows now (step.columns cols) steps (rows.flatMap (step.joinedRow now (step.columns cols)))

def combinedColumns (cols : List Column) (steps : List JoinStep) : List Column :=
  steps.foldl (fun cols step => step.columns cols) cols

theorem joinRow_joinedRow {now : Nat} {cols : List Column} {step : JoinStep} {a : Row} {out : List Row}
    (h : joinRow now cols step.operator.condition step.table.columns.length step.table.rows a = .ok out) :
    out = step.joinedRow now cols a := by
  rw [joinRow] at h
  obtain ⟨matched, hMatched, hEq⟩ := ok_of_bind h
  obtain rfl := Except.ok.inj hEq
  have hKept : matched = (step.table.rows.map (a ++ ·)).filter (step.kept now cols) := by
    unfold JoinStep.kept
    cases hOn : step.operator.condition.1 with
    | none =>
      rw [hOn] at hMatched
      obtain rfl := Except.ok.inj hMatched
      exact (List.filter_eq_self.2 fun _ _ => rfl).symm
    | some e =>
      rw [hOn] at hMatched
      exact Prog.eq_of_filterM hMatched
  rw [hKept]
  rfl

/-- The join loop of `select_joined`, when it comes to its end. -/
theorem joinAll_ok {env : QueryEnv} {dbName : Str} {joins : List Join} {steps : List JoinStep}
    (hSteps : joins.mapM (joinStep env dbName) = some steps) {cols cols' : List Column}
    {rows rows' : List Row} (h : joinAll env dbName joins cols rows = .ok (.ok (cols', rows'))) :
    cols' = combinedColumns cols steps ∧ rows' = joinedRows env.now cols steps rows := by
  induction joins generalizing cols rows steps with
  | nil =>
    obtain rfl := Option.some.inj hSteps
    cases h
    exact ⟨rfl, rfl⟩
  | cons join joins ih =>
    obtain ⟨relation, operator⟩ := join
    rw [List.mapM_cons] at hSteps
    obtain ⟨step, hStep, hSteps⟩ := Option.bind_eq_some_iff.1 hSteps
    obtain ⟨rest, hRest, hEq⟩ := Option.bind_eq_some_iff.1 hSteps
    obtain rfl := Option.some.inj hEq
    rw [joinAll] at h
    rw [joinStep] at hStep
    generalize resolveName dbName (relationName relation) = target at h hStep
    obtain ⟨rdb, rtbl⟩ := target
    dsimp only at h hStep
    cases hFound : findTable env.databases rdb rtbl (unknownDatabase rdb) (unknownTable rtbl) with
    | error other =>
      rw [hFound] at hStep
      cases hStep
    | ok right =>
      rw [hFound] at hStep h
      obtain rfl := Option.some.inj hStep
      obtain ⟨joined, hJoined, h⟩ := ok_of_bind h
      have hEach := (forall₂_of_mapM hJoined).imp fun a out hOut =>
        (joinRow_joinedRow hOut : out = JoinStep.joinedRow _ _ ⟨rtbl, right, operator⟩ a)
      rw [eq_map_of_forall₂ hEach] at h
      exact ih hRest h

-- ---------------------------------------------------------------------------
-- Widths
-- ---------------------------------------------------------------------------

/-- The rows are as wide as the columns. -/
def Wide (cols : List Column) (rows : List Row) : Prop := ∀ row ∈ rows, row.length = cols.length

theorem length_columns (step : JoinStep) (cols : List Column) :
    (step.columns cols).length = cols.length + step.table.columns.length := by
  unfold JoinStep.columns joinColumns
  rw [List.length_append, List.length_map]

/-- A row and one of the table are as wide as the columns with the table's, which is what the
ON condition is evaluated over. -/
theorem wide_extended {step : JoinStep} (hFull : step.table.FullWidth) {cols : List Column} {a : Row}
    (ha : a.length = cols.length) : Wide (step.columns cols) (step.table.rows.map (a ++ ·)) := by
  intro row hRow
  obtain ⟨b, hb, rfl⟩ := List.mem_map.1 hRow
  rw [List.length_append, length_columns, ha, hFull b hb]

theorem wide_joinedRow {now : Nat} {step : JoinStep} (hFull : step.table.FullWidth) {cols : List Column}
    {a : Row} (ha : a.length = cols.length) :
    Wide (step.columns cols) (step.joinedRow now (step.columns cols) a) := by
  unfold JoinStep.joinedRow
  dsimp only
  split
  · intro row hRow
    rw [List.mem_singleton.1 hRow, List.length_append, List.length_replicate, length_columns, ha]
  · exact fun row hRow => wide_extended hFull ha row (List.mem_of_mem_filter hRow)

theorem wide_joinedRows {now : Nat} {steps : List JoinStep}
    (hFull : ∀ step ∈ steps, step.table.FullWidth) {cols : List Column} {rows : List Row}
    (h : Wide cols rows) : Wide (combinedColumns cols steps) (joinedRows now cols steps rows) := by
  induction steps generalizing cols rows with
  | nil => exact h
  | cons step steps ih =>
    refine ih (fun s hs => hFull s (List.mem_cons_of_mem step hs)) fun row hRow => ?_
    obtain ⟨a, ha, hRow⟩ := List.mem_flatMap.1 hRow
    exact wide_joinedRow (hFull step (List.mem_cons_self ..)) (h a ha) row hRow

-- ---------------------------------------------------------------------------
-- Inner and cross joins
-- ---------------------------------------------------------------------------

theorem condition_of_isInner {op : JoinOperator} (h : op.isInner = true) :
    op.condition = (op.onExpr, false) := by
  unfold JoinOperator.isInner at h
  split at h
  · rename_i c
    cases c <;> rfl
  · rename_i c
    cases c <;> rfl
  · rfl
  · cases h

theorem joinedRow_of_isInner {step : JoinStep} (h : step.operator.isInner = true) (now : Nat)
    (cols : List Column) (a : Row) :
    step.joinedRow now cols a = (step.table.rows.map (a ++ ·)).filter (step.meetsOn now cols) := by
  unfold JoinStep.joinedRow JoinStep.kept JoinStep.meetsOn
  rw [condition_of_isInner h]
  dsimp only
  rw [Bool.and_false, if_neg Bool.false_ne_true]

theorem joinedRows_of_isInner {now : Nat} {steps : List JoinStep}
    (h : ∀ step ∈ steps, step.operator.isInner = true) (cols : List Column) (rows : List Row) :
    joinedRows now cols steps rows = loops (· ++ ·) (onSteps now cols steps) rows := by
  induction steps generalizing cols rows with
  | nil => rfl
  | cons step steps ih =>
    have hFirst := joinedRow_of_isInner (h step (List.mem_cons_self ..)) now (step.columns cols)
    rw [joinedRows, onSteps, loops, ih fun s hs => h s (List.mem_cons_of_mem step hs)]
    rw [funext hFirst]

theorem onSteps_tables (now : Nat) (cols : List Column) (steps : List JoinStep) :
    (onSteps now cols steps).map Prod.snd = steps.map fun step => step.table.rows := by
  induction steps generalizing cols with
  | nil => rfl
  | cons step steps ih => rw [onSteps, List.map_cons, List.map_cons, ih]

theorem foldl_append_flatten (a : Row) (tuple : List Row) :
    tuple.foldl (· ++ ·) a = (a :: tuple).flatten := by
  induction tuple generalizing a with
  | nil => exact (List.append_nil a).symm
  | cons b tuple ih => rw [List.foldl_cons, ih, List.flatten_cons, List.flatten_cons, List.flatten_cons,
      List.append_assoc]

/-- The rows of inner and cross joins are the tuples, in the order of the loops. -/
theorem joinedRows_tuples {now : Nat} {steps : List JoinStep}
    (h : ∀ step ∈ steps, step.operator.isInner = true) (cols : List Column) (rows : List Row) :
    joinedRows now cols steps rows =
      ((tuples (rows :: steps.map fun step => step.table.rows)).filter
        (meetsEveryOn now cols steps)).map List.flatten := by
  rw [joinedRows_of_isInner h, loops_eq, onSteps_tables, tuples, List.filter_flatMap, List.map_flatMap]
  refine List.flatMap_congr fun a _ => ?_
  rw [List.filter_map, List.map_map]
  refine List.map_congr_left fun tuple _ => ?_
  exact foldl_append_flatten a tuple

-- ---------------------------------------------------------------------------
-- Left joins
-- ---------------------------------------------------------------------------

theorem condition_of_isLeft {op : JoinOperator} (h : op.isLeft = true) :
    op.condition = (op.onExpr, op.onExpr.isSome) := by
  unfold JoinOperator.isLeft at h
  split at h
  · rename_i c
    cases c <;> rfl
  · rename_i c
    cases c <;> rfl
  · cases h

theorem prefix_of_joinedRow {now : Nat} {step : JoinStep} {cols : List Column} {a row : Row}
    (h : row ∈ step.joinedRow now cols a) : a <+: row := by
  unfold JoinStep.joinedRow at h
  dsimp only at h
  split at h
  · rw [List.mem_singleton.1 h]
    exact List.prefix_append ..
  · obtain ⟨b, -, rfl⟩ := List.mem_map.1 (List.mem_of_mem_filter h)
    exact List.prefix_append ..

/-- A left join with an ON, or with rows to join, keeps a row. -/
theorem joinedRow_ne_nil {step : JoinStep} (hLeft : step.operator.isLeft = true)
    (hKeeps : step.operator.onExpr = none → step.table.rows ≠ []) (now : Nat) (cols : List Column)
    (a : Row) : step.joinedRow now cols a ≠ [] := by
  unfold JoinStep.joinedRow JoinStep.kept
  rw [condition_of_isLeft hLeft]
  cases hOn : step.operator.onExpr with
  | some e =>
    dsimp only
    split
    · exact List.cons_ne_nil _ _
    · rename_i hMatched
      intro hNone
      rw [hNone] at hMatched
      exact hMatched rfl
  | none =>
    have hAll : (step.table.rows.map (a ++ ·)).filter (fun _ => true) = step.table.rows.map (a ++ ·) :=
      List.filter_eq_self.2 fun _ _ => rfl
    dsimp only [Option.elim_none]
    rw [hAll, Option.isSome_none, Bool.and_false, if_neg Bool.false_ne_true]
    exact fun hNone => hKeeps hOn (List.map_eq_nil_iff.1 hNone)

/-- One without, and an empty table to join, drops it. -/
theorem joinedRow_eq_nil {step : JoinStep} (hLeft : step.operator.isLeft = true)
    (hOn : step.operator.onExpr = none) (hEmpty : step.table.rows = []) (now : Nat)
    (cols : List Column) (a : Row) : step.joinedRow now cols a = [] := by
  unfold JoinStep.joinedRow
  rw [condition_of_isLeft hLeft, hOn, hEmpty]
  rfl

theorem joinedRows_nil (now : Nat) (cols : List Column) (steps : List JoinStep) :
    joinedRows now cols steps [] = [] := by
  induction steps generalizing cols with
  | nil => rfl
  | cons step steps ih => exact ih (step.columns cols)

/-- Left joins that keep a row each keep it all together. -/
theorem exists_prefix {now : Nat} {steps : List JoinStep}
    (hLeft : ∀ step ∈ steps, step.operator.isLeft = true)
    (hKeeps : ∀ step ∈ steps, step.operator.onExpr = none → step.table.rows ≠ []) {cols : List Column}
    {rows : List Row} {a : Row} (ha : a ∈ rows) :
    ∃ row ∈ joinedRows now cols steps rows, a <+: row := by
  induction steps generalizing cols rows a with
  | nil => exact ⟨a, ha, List.prefix_rfl⟩
  | cons step steps ih =>
    have hHere := List.mem_cons_self (a := step) (l := steps)
    obtain ⟨b, hb⟩ := List.exists_mem_of_ne_nil _
      (joinedRow_ne_nil (hLeft step hHere) (hKeeps step hHere) now (step.columns cols) a)
    have hb' : b ∈ rows.flatMap (step.joinedRow now (step.columns cols)) := List.mem_flatMap.2 ⟨a, ha, hb⟩
    obtain ⟨row, hRow, hPrefix⟩ := ih (fun s hs => hLeft s (List.mem_cons_of_mem step hs))
      (fun s hs => hKeeps s (List.mem_cons_of_mem step hs)) hb'
    exact ⟨row, hRow, (prefix_of_joinedRow hb).trans hPrefix⟩

/-- One that drops every row leaves none. -/
theorem joinedRows_eq_nil {now : Nat} {steps : List JoinStep}
    (hLeft : ∀ step ∈ steps, step.operator.isLeft = true) {step : JoinStep} (hStep : step ∈ steps)
    (hOn : step.operator.onExpr = none) (hEmpty : step.table.rows = []) (cols : List Column)
    (rows : List Row) : joinedRows now cols steps rows = [] := by
  induction steps generalizing cols rows with
  | nil => cases hStep
  | cons first steps ih =>
    rw [joinedRows]
    rcases List.mem_cons.1 hStep with rfl | hStep
    · have hNone : rows.flatMap (step.joinedRow now (step.columns cols)) = [] :=
        List.flatMap_eq_nil_iff.2 fun a _ =>
          joinedRow_eq_nil (hLeft step (List.mem_cons_self ..)) hOn hEmpty now (step.columns cols) a
      rw [hNone]
      exact joinedRows_nil ..
    · exact ih (fun s hs => hLeft s (List.mem_cons_of_mem first hs)) hStep ..

/-- **The join loop.** Whenever the loop of `select_joined` comes to its end, its rows are
those of the joins exactly when no LEFT JOIN without an ON joins an empty table to some
row, among LEFT JOINs alone. -/
theorem joinAll_iff {env : QueryEnv} {dbName : Str} {base : Table} {joins : List Join}
    {steps : List JoinStep} {cols : List Column} {rows : List Row}
    (hSteps : joins.mapM (joinStep env dbName) = some steps) (hBase : base.FullWidth)
    (hFull : ∀ step ∈ steps, step.table.FullWidth)
    (h : joinAll env dbName joins base.columns base.rows = .ok (.ok (cols, rows))) :
    JoinedByTheBook env.now base steps cols rows ↔
      ((∀ step ∈ steps, step.operator.isLeft = true) → base.rows ≠ [] →
        ∀ step ∈ steps, step.operator.onExpr = none → step.table.rows ≠ []) := by
  obtain ⟨rfl, rfl⟩ := joinAll_ok hSteps h
  constructor
  · intro hBook hLeft hSome step hStep hOn hEmpty
    obtain ⟨a, ha⟩ := List.exists_mem_of_ne_nil _ hSome
    obtain ⟨row, hRow, -⟩ := hBook.left hLeft a ha
    rw [joinedRows_eq_nil hLeft hStep hOn hEmpty] at hRow
    cases hRow
  · intro hKeeps
    refine ⟨wide_joinedRows hFull hBase, fun hInner => joinedRows_tuples hInner .., ?_⟩
    intro hLeft a ha
    exact exists_prefix hLeft (hKeeps hLeft (List.ne_nil_of_mem ha)) ha

end Loop

section Using

local instance usingPlatform : Platform := tablePlatform []

/-- A table with one row, and an empty one. -/
def onlyRow : Table := Table.create "test" "t" [⟨"a", .int, true, false⟩] [[.int 1]]

def noRows : Table := Table.create "test" "u" [⟨"b", .int, true, false⟩] []

/-- `t` joined to `u` by an operator. -/
def joinU (operator : JoinOperator) : List Join := [.mk (.table [⟨"u", none⟩] []) operator]

def tuEnv : QueryEnv := joinEnv "test" "test" "t" "u" onlyRow noRows

theorem fullWidth_onlyRow : onlyRow.FullWidth := fun row hRow => by
  rw [List.mem_singleton.1 hRow]
  rfl

theorem fullWidth_noRows : noRows.FullWidth := fun _ hRow => absurd hRow List.not_mem_nil

/-- A left join with an ON keeps the row. -/
theorem joinAll_iff_two : JoinedByTheBook 0 onlyRow [⟨"u", noRows, .left (.on always)⟩]
    [⟨"a", .int, true, false⟩, ⟨"b", .int, true, false⟩] [[.int 1, .null]] := by
  have hSteps : (joinU (.left (.on always))).mapM (joinStep tuEnv "test") =
      some [⟨"u", noRows, .left (.on always)⟩] := rfl
  have hFull : ∀ step ∈ [(⟨"u", noRows, .left (.on always)⟩ : JoinStep)], step.table.FullWidth := by
    intro step hStep
    rw [List.mem_singleton.1 hStep]
    exact fullWidth_noRows
  refine (joinAll_iff hSteps fullWidth_onlyRow hFull rfl).2 ?_
  intro _ _ step hStep hOn
  rw [List.mem_singleton.1 hStep] at hOn
  cases hOn

/-- `t LEFT JOIN u USING (..)` loses the row of `t`. -/
theorem not_joinedByTheBook : ¬ ∀ (env : QueryEnv) (dbName : Str) (base : Table) (joins : List Join)
    (steps : List JoinStep) (cols : List Column) (rows : List Row),
    joins.mapM (joinStep env dbName) = some steps → base.FullWidth →
      (∀ step ∈ steps, step.table.FullWidth) →
      joinAll env dbName joins base.columns base.rows = .ok (.ok (cols, rows)) →
      JoinedByTheBook env.now base steps cols rows := by
  intro hAll
  have hBook := hAll tuEnv "test" onlyRow (joinU (.left .other)) [⟨"u", noRows, .left .other⟩]
    [⟨"a", .int, true, false⟩, ⟨"b", .int, true, false⟩] [] rfl fullWidth_onlyRow
    (by
      intro step hStep
      rw [List.mem_singleton.1 hStep]
      exact fullWidth_noRows) rfl
  have hLeft : ∀ step ∈ [(⟨"u", noRows, .left .other⟩ : JoinStep)], step.operator.isLeft = true := by
    intro step hStep
    rw [List.mem_singleton.1 hStep]
    rfl
  obtain ⟨row, hRow, -⟩ := hBook.left hLeft [.int 1] (List.mem_singleton_self _)
  cases hRow

end Using

end RunAlexDb
