import RunAlexDb.Query.PreparedSelect
import RunAlexDb.Query.Subqueries

/-!
# SelectLists — the columns a SELECT list asks for

One output column for each item of the list, all columns of the table for a
wildcard. A list with a wildcard gives the columns of the table and nothing else;
a list of plain columns leaves out those the table does not have and qualified
ones with an alias; a prepared SELECT leaves out everything but plain columns
without an alias.

Main result: `selectList_iff`.
-/

set_option linter.unusedSectionVars false

namespace RunAlexDb

open Text Platform

section SelectLists

variable [Platform]

-- ---------------------------------------------------------------------------
-- What a list asks for
-- ---------------------------------------------------------------------------

/-- What an output column holds: a cell of the row, or the value of an expression. -/
inductive Slot
  | cell (i : Nat)
  | value (e : Expr)

/-- Name, if the list gives one, and content of an output column. -/
abbrev Output := Option Str × Slot

def Slot.shows (now : Nat) (cols : List Column) (row : Row) : Slot → Option Str → Prop
  | .cell i, shown => shown = row[i]?.bind Value.toDisplay
  | .value e, shown => ∃ v, evalRowExpr now row cols e = .ok v ∧ shown = v.toDisplay

/-- What an expression stands for: a plain column for the column of its name, a
qualified one for that of its last part, or for one that is called by the whole
name; a column the table does not have for nothing. -/
def Expr.denotes (cols : List Column) : Expr → Slot → Prop
  | .identifier id, s => ∃ i, columnPosition cols id.value = some i ∧ s = .cell i
  | .compoundIdentifier parts, s => ∃ last i, parts.getLast? = some last ∧
      (columnPosition cols last.value = some i ∨
        columnPosition cols (join "." (parts.map Ident.value)) = some i) ∧ s = .cell i
  | e, s => s = .value e

def SelectItem.alias? : SelectItem → Option Str
  | .exprWithAlias _ a => some a.value
  | _ => none

/-- The output columns an item stands for. -/
def SelectItem.outputs (cols : List Column) (p : SelectItem) (outs : List Output) : Prop :=
  match p.expr? with
  | none => outs = cols.zipIdx.map fun c => (some c.1.name, .cell c.2)
  | some e => ∃ s, e.denotes cols s ∧ outs = [(p.alias?, s)]

/-- The result has the output columns the list asks for, in order, named by the
aliases, and every line holds their values in some row of the table. -/
def ListShown (now : Nat) (t : Table) (projection : List SelectItem) (r : QueryResult) : Prop :=
  ∃ outs : List (List Output), List.Forall₂ (SelectItem.outputs t.columns) projection outs ∧
    ∃ names lines, asTextRows r = .ok (names, lines) ∧
      List.Forall₂ (fun (o : Output) n => o.1 = none ∨ o.1 = some n) outs.flatten names ∧
      ∀ line ∈ lines, ∃ row ∈ t.rows,
        List.Forall₂ (fun (o : Output) c => o.2.shows now t.columns row c) outs.flatten line

/-- An item that has a value in a row: no call of an aggregate, no window. -/
def SelectItem.perRow (p : SelectItem) : Prop :=
  ∀ f, p.function? = some f →
    isAggName (toUppercase (ObjectName.toString f.name)) = false ∧ f.over = none

-- ---------------------------------------------------------------------------
-- Which lists are served
-- ---------------------------------------------------------------------------

/-- Nothing but wildcards, and one of them unless the table has no columns. -/
def OnlyWildcard (cols : List Column) (projection : List SelectItem) : Prop :=
  projection.all SelectItem.isWildcard = true ∧ (projection.length = 1 ∨ cols = [])

/-- An unqualified column the table has, or a qualified one without an alias. -/
def SelectItem.kept (cols : List Column) : SelectItem → Prop
  | .unnamedExpr (.identifier id) => (columnPosition cols id.value).isSome
  | .unnamedExpr (.compoundIdentifier parts) =>
    ∃ last, parts.getLast? = some last ∧ (columnPosition cols last.value).isSome
  | .exprWithAlias (.identifier id) _ => (columnPosition cols id.value).isSome
  | _ => False

/-- A list that SELECT serves in full. -/
def ListServed (cols : List Column) (projection : List SelectItem) : Prop :=
  if projection.any SelectItem.isWildcard then OnlyWildcard cols projection
  else if projection.all isPlainCol then ∀ p ∈ projection, p.kept cols
  else ∀ p ∈ projection, ∀ e, p.expr? = some e → ∃ s, e.denotes cols s

-- ---------------------------------------------------------------------------
-- Counting columns
-- ---------------------------------------------------------------------------

section Columns

variable {now : Nat} {t : Table} {cols : List Column} {projection : List SelectItem}
  {outs : List (List Output)}

theorem isWildcard_iff (p : SelectItem) : p.isWildcard = true ↔ p.expr? = none := by
  cases p <;> simp [SelectItem.isWildcard, SelectItem.expr?]

theorem outputs_expr {p : SelectItem} {e : Expr} (h : p.expr? = some e) (o : List Output) :
    p.outputs cols o ↔ ∃ s, e.denotes cols s ∧ o = [(p.alias?, s)] := by
  rw [SelectItem.outputs, h]

theorem outputs_wildcard {p : SelectItem} (h : p.isWildcard = true) (o : List Output) :
    p.outputs cols o ↔ o = cols.zipIdx.map fun c => (some c.1.name, .cell c.2) := by
  rw [SelectItem.outputs, (isWildcard_iff p).1 h]

theorem outputs_length {p : SelectItem} {o : List Output} (h : p.outputs cols o) :
    o.length = if p.isWildcard then cols.length else 1 := by
  cases hExpr : p.expr? with
  | none =>
    have hStar := (isWildcard_iff p).2 hExpr
    rw [if_pos hStar, (outputs_wildcard hStar o).1 h, List.length_map, List.length_zipIdx]
  | some e =>
    obtain ⟨s, -, rfl⟩ := (outputs_expr hExpr o).1 h
    have hNot : ¬ p.isWildcard = true := fun hStar => by
      rw [(isWildcard_iff p).1 hStar] at hExpr
      cases hExpr
    rw [if_neg hNot, List.length_singleton]

/-- Columns in all: those of the table for each wildcard, one for each other item. -/
theorem outputs_total (h : List.Forall₂ (SelectItem.outputs cols) projection outs) :
    outs.flatten.length = projection.countP SelectItem.isWildcard * cols.length +
      projection.countP fun p => !p.isWildcard := by
  induction h with
  | nil => simp
  | cons hHead _ ih =>
    rw [List.flatten_cons, List.length_append, outputs_length hHead, ih, List.countP_cons,
      List.countP_cons]
    split
    · rename_i hStar
      simp [hStar, Nat.add_mul]
      omega
    · rename_i hNot
      simp [hNot]
      omega

/-- A list whose columns are as many as the table's, a wildcard among its items,
is just that wildcard. -/
theorem onlyWildcard_of_length (h : List.Forall₂ (SelectItem.outputs cols) projection outs)
    (hStar : projection.any SelectItem.isWildcard = true)
    (hLength : outs.flatten.length = cols.length) : OnlyWildcard cols projection := by
  rw [outputs_total h] at hLength
  have hSome : 0 < projection.countP SelectItem.isWildcard :=
    List.countP_pos_iff.2 (List.any_eq_true.1 hStar)
  have hLe := Nat.le_mul_of_pos_left cols.length hSome
  have hRest : (projection.countP fun p => !p.isWildcard) = 0 := by omega
  have hAll : projection.all SelectItem.isWildcard = true := by
    rw [List.all_eq_true]
    intro p hp
    simpa using List.countP_eq_zero.1 hRest p hp
  have hCount : projection.countP SelectItem.isWildcard = projection.length :=
    List.countP_eq_length.2 (List.all_eq_true.1 hAll)
  rw [hRest, hCount, Nat.add_zero] at hLength
  refine ⟨hAll, ?_⟩
  rcases Nat.eq_zero_or_pos cols.length with hNone | hPos
  · exact .inr (List.length_eq_zero_iff.1 hNone)
  · exact .inl (Nat.eq_of_mul_eq_mul_right hPos (hLength.trans (Nat.one_mul _).symm))

/-- One wildcard, or wildcards over no columns, stand for the columns of the
table. -/
theorem outputs_onlyWildcard (hOnly : OnlyWildcard cols projection) (hSome : projection ≠ []) :
    ∃ outs, List.Forall₂ (SelectItem.outputs cols) projection outs ∧
      outs.flatten = cols.zipIdx.map fun c => ((some c.1.name, .cell c.2) : Output) := by
  have hEach : List.Forall₂ (SelectItem.outputs cols) projection
      (projection.map fun _ => cols.zipIdx.map fun c => (some c.1.name, .cell c.2)) := by
    rw [List.forall₂_map_right_iff, List.forall₂_same]
    exact fun p hp => (outputs_wildcard (List.all_eq_true.1 hOnly.1 p hp) _).2 rfl
  refine ⟨_, hEach, ?_⟩
  rcases hOnly.2 with hOne | rfl
  · obtain ⟨p, rfl⟩ := List.length_eq_one_iff.1 hOne
    simp
  · simp

-- ---------------------------------------------------------------------------
-- Columns taken by position
-- ---------------------------------------------------------------------------

/-- All columns of the table. -/
theorem listShown_wildcard {r : QueryResult} {lines : List TextRow}
    (hStar : projection.any SelectItem.isWildcard = true)
    (hResult : asTextRows r =
      .ok ((t.columns.zipIdx.map fun c => (c.1.name, c.2)).map Prod.fst, lines))
    (hLines : ∀ line ∈ lines, ∃ row ∈ t.rows,
      line = projectText (t.columns.zipIdx.map fun c => (c.1.name, c.2)) row) :
    ListShown now t projection r ↔ OnlyWildcard t.columns projection := by
  constructor
  · rintro ⟨outs, hOuts, names, lines', hSame, hNames, -⟩
    obtain ⟨rfl, -⟩ := Prod.mk.inj (Except.ok.inj (hResult.symm.trans hSame))
    refine onlyWildcard_of_length hOuts hStar ?_
    rw [hNames.length_eq]
    simp
  · intro hOnly
    have hSome : projection ≠ [] := fun hNil => by
      rw [hNil] at hStar
      cases hStar
    obtain ⟨outs, hOuts, hFlat⟩ := outputs_onlyWildcard hOnly hSome
    refine ⟨outs, hOuts, _, lines, hResult, ?_, fun line hLine => ?_⟩
    · rw [hFlat, List.map_map, List.forall₂_map_left_iff, List.forall₂_map_right_iff,
        List.forall₂_same]
      exact fun c _ => .inr rfl
    · obtain ⟨row, hRow, rfl⟩ := hLines line hLine
      refine ⟨row, hRow, ?_⟩
      rw [hFlat, projectText, List.map_map, List.forall₂_map_left_iff, List.forall₂_map_right_iff,
        List.forall₂_same]
      exact fun c _ => rfl

/-- The output columns of items that are all picked. -/
theorem picked_outputs (now : Nat) {pick : SelectItem → Option (Str × Nat)}
    (hPick : ∀ p ∈ projection, ∃ n i, pick p = some (n, i) ∧
      p.outputs cols [(p.alias?, .cell i)] ∧ (p.alias? = none ∨ p.alias? = some n)) :
    ∃ outs, List.Forall₂ (SelectItem.outputs cols) projection outs ∧
      List.Forall₂ (fun (o : Output) n => o.1 = none ∨ o.1 = some n) outs.flatten
        ((projection.filterMap pick).map Prod.fst) ∧
      ∀ row, List.Forall₂ (fun (o : Output) c => o.2.shows now cols row c) outs.flatten
        (projectText (projection.filterMap pick) row) := by
  induction projection with
  | nil => exact ⟨[], .nil, .nil, fun _ => .nil⟩
  | cons p projection ih =>
    obtain ⟨outs, hOuts, hNames, hShows⟩ := ih fun q hq => hPick q (List.mem_cons_of_mem _ hq)
    obtain ⟨n, i, hHead, hOut, hName⟩ := hPick p (List.mem_cons_self ..)
    rw [List.filterMap_cons_some hHead]
    exact ⟨[(p.alias?, .cell i)] :: outs, .cons hOut hOuts, .cons hName hNames,
      fun row => .cons rfl (hShows row)⟩

/-- Columns picked item by item. The list is served when each item is picked, as
the column it stands for. -/
theorem listShown_picked {r : QueryResult} {lines : List TextRow}
    {pick : SelectItem → Option (Str × Nat)} {kept : SelectItem → Prop}
    (hNoStar : projection.any SelectItem.isWildcard = false)
    (hKept : ∀ p, kept p → ∃ n i, pick p = some (n, i) ∧
      p.outputs t.columns [(p.alias?, .cell i)] ∧ (p.alias? = none ∨ p.alias? = some n))
    (hPicked : ∀ p o, p.isWildcard = false → p.outputs t.columns o → (pick p).isSome → kept p)
    (hResult : asTextRows r = .ok ((projection.filterMap pick).map Prod.fst, lines))
    (hLines : ∀ line ∈ lines, ∃ row ∈ t.rows, line = projectText (projection.filterMap pick) row) :
    ListShown now t projection r ↔ ∀ p ∈ projection, kept p := by
  have hPlain : ∀ p ∈ projection, p.isWildcard = false := fun p hp => by
    simpa using List.any_eq_false.1 hNoStar p hp
  constructor
  · rintro ⟨outs, hOuts, names, lines', hSame, hNames, -⟩ p hp
    obtain ⟨rfl, -⟩ := Prod.mk.inj (Except.ok.inj (hResult.symm.trans hSame))
    have hNone : projection.countP SelectItem.isWildcard = 0 :=
      List.countP_eq_zero.2 fun p hp => by simp [hPlain p hp]
    have hAll : (projection.countP fun p => !p.isWildcard) = projection.length :=
      List.countP_eq_length.2 fun p hp => by simp [hPlain p hp]
    have hLength : (projection.filterMap pick).length = projection.length := by
      rw [← List.length_map (f := Prod.fst), ← hNames.length_eq, outputs_total hOuts, hNone, hAll]
      omega
    obtain ⟨o, -, ho⟩ := forall₂_exists hOuts hp
    exact hPicked p o (hPlain p hp) ho (List.filterMap_length_eq_length.1 hLength p hp)
  · intro hAll
    obtain ⟨outs, hOuts, hNames, hShows⟩ := picked_outputs now fun p hp => hKept p (hAll p hp)
    refine ⟨outs, hOuts, _, lines, hResult, hNames, fun line hLine => ?_⟩
    obtain ⟨row, hRow, rfl⟩ := hLines line hLine
    exact ⟨row, hRow, hShows row⟩

-- ---------------------------------------------------------------------------
-- Evaluated lists
-- ---------------------------------------------------------------------------

/-- An expression that stands for something is evaluated to it. -/
theorem denotes_shows {e : Expr} (h : ∃ s, e.denotes cols s) :
    ∃ s, e.denotes cols s ∧ ∀ now row v, evalRowExpr now row cols e = .ok v →
      s.shows now cols row v.toDisplay := by
  obtain ⟨s, hs⟩ := h
  by_cases hId : ∃ id, e = .identifier id
  · obtain ⟨id, rfl⟩ := hId
    obtain ⟨i, hPos, rfl⟩ := hs
    refine ⟨_, ⟨i, hPos, rfl⟩, fun now row v hEval => ?_⟩
    obtain rfl := Except.ok.inj hEval
    exact columnValue_of_position hPos row
  by_cases hCompound : ∃ parts, e = .compoundIdentifier parts
  · obtain ⟨parts, rfl⟩ := hCompound
    obtain ⟨last, i, hLast, hEither, rfl⟩ := hs
    -- a column of the whole name comes first
    obtain ⟨j, hj, hFirst⟩ : ∃ j, (columnPosition cols last.value = some j ∨
        columnPosition cols (join "." (parts.map Ident.value)) = some j) ∧
        (columnPosition cols (join "." (parts.map Ident.value))).or
          (columnPosition cols last.value) = some j := by
      cases hWhole : columnPosition cols (join "." (parts.map Ident.value)) with
      | some j => exact ⟨j, .inr rfl, rfl⟩
      | none =>
        rw [hWhole] at hEither
        have hPart := hEither.resolve_right (by simp)
        exact ⟨i, .inl hPart, hPart⟩
    refine ⟨_, ⟨last, j, hLast, hj, rfl⟩, fun now row v hEval => ?_⟩
    obtain rfl := Except.ok.inj hEval
    show (compoundValue row cols parts).toDisplay = _
    rw [compoundValue, hLast]
    simp only
    rw [hFirst, Option.bind_some]
    cases row[j]? <;> rfl
  · have hValue : ∀ s', e.denotes cols s' ↔ s' = .value e := by
      intro s'
      cases e with
      | identifier id => exact absurd ⟨id, rfl⟩ hId
      | compoundIdentifier parts => exact absurd ⟨parts, rfl⟩ hCompound
      | _ => exact Iff.rfl
    exact ⟨.value e, (hValue _).2 rfl, fun now row v hEval => ⟨v, hEval, rfl⟩⟩

/-- The items of a list without wildcards, evaluated one by one. -/
theorem evaluated_outputs (now : Nat) (hNoStar : ∀ p ∈ projection, p.isWildcard = false)
    (hAll : ∀ p ∈ projection, ∀ e, p.expr? = some e → ∃ s, e.denotes cols s) :
    ∃ outs, List.Forall₂ (SelectItem.outputs cols) projection outs ∧
      List.Forall₂ (fun (o : Output) n => o.1 = none ∨ o.1 = some n) outs.flatten
        ((projection.map (outputItem exprToString)).map Prod.fst) ∧
      ∀ row line, evalOutputs now cols (projection.map (outputItem exprToString)) row = .ok line →
        List.Forall₂ (fun (o : Output) c => o.2.shows now cols row c) outs.flatten line := by
  induction projection with
  | nil =>
    refine ⟨[], .nil, .nil, fun row line hRun => ?_⟩
    obtain rfl := Except.ok.inj hRun
    exact .nil
  | cons p projection ih =>
    obtain ⟨outs, hOuts, hNames, hShows⟩ := ih (fun q hq => hNoStar q (List.mem_cons_of_mem _ hq))
      fun q hq => hAll q (List.mem_cons_of_mem _ hq)
    have hHead := hNoStar p (List.mem_cons_self ..)
    obtain ⟨e, hExpr⟩ : ∃ e, p.expr? = some e := by
      cases hE : p.expr? with
      | some e => exact ⟨e, rfl⟩
      | none =>
        rw [(isWildcard_iff p).2 hE] at hHead
        cases hHead
    obtain ⟨s, hs, hEval⟩ := denotes_shows (hAll p (List.mem_cons_self ..) e hExpr)
    have hItem : (outputItem exprToString p).2 = e ∧
        (p.alias? = none ∨ p.alias? = some (outputItem exprToString p).1) := by
      cases p with
      | unnamedExpr e' =>
        obtain rfl := Option.some.inj hExpr
        exact ⟨rfl, .inl rfl⟩
      | exprWithAlias e' a =>
        obtain rfl := Option.some.inj hExpr
        exact ⟨rfl, .inr rfl⟩
      | _ => cases hExpr
    refine ⟨[(p.alias?, s)] :: outs, .cons ((outputs_expr hExpr _).2 ⟨s, hs, rfl⟩) hOuts,
      .cons hItem.2 hNames, fun row line hRun => ?_⟩
    rw [evalOutputs, List.map_cons, List.mapM_cons] at hRun
    obtain ⟨c, hCell, hRun⟩ := ok_of_bind hRun
    obtain ⟨rest, hRest, hEq⟩ := ok_of_bind hRun
    obtain rfl := Except.ok.inj hEq
    rw [hItem.1] at hCell
    cases hv : evalRowExpr now row cols e with
    | error fault => rw [hv] at hCell; cases hCell
    | ok v =>
      rw [hv] at hCell
      obtain rfl := Except.ok.inj hCell
      exact .cons (hEval now row v hv) (hShows row rest hRest)

/-- Items evaluated one by one. The list is served when every item stands for
something. -/
theorem listShown_evaluated {r : QueryResult} {lines : List TextRow}
    (hNoStar : projection.any SelectItem.isWildcard = false)
    (hResult : asTextRows r =
      .ok ((projection.map (outputItem exprToString)).map Prod.fst, lines))
    (hLines : ∀ line ∈ lines, ∃ row ∈ t.rows,
      evalOutputs now t.columns (projection.map (outputItem exprToString)) row = .ok line) :
    ListShown now t projection r ↔
      ∀ p ∈ projection, ∀ e, p.expr? = some e → ∃ s, e.denotes t.columns s := by
  constructor
  · rintro ⟨outs, hOuts, -⟩ p hp e hExpr
    obtain ⟨o, -, ho⟩ := forall₂_exists hOuts hp
    obtain ⟨s, hs, -⟩ := (outputs_expr hExpr o).1 ho
    exact ⟨s, hs⟩
  · intro hAll
    have hPlain : ∀ p ∈ projection, p.isWildcard = false := fun p hp => by
      simpa using List.any_eq_false.1 hNoStar p hp
    obtain ⟨outs, hOuts, hNames, hShows⟩ := evaluated_outputs now hPlain hAll
    refine ⟨outs, hOuts, _, lines, hResult, hNames, fun line hLine => ?_⟩
    obtain ⟨row, hRow, hRun⟩ := hLines line hLine
    exact ⟨row, hRow, hShows row line hRun⟩

-- ---------------------------------------------------------------------------
-- Lists of plain columns
-- ---------------------------------------------------------------------------

theorem projCol_of_kept {p : SelectItem} (h : p.kept cols) :
    ∃ n i, projCol cols p = some (n, i) ∧ p.outputs cols [(p.alias?, .cell i)] ∧
      (p.alias? = none ∨ p.alias? = some n) := by
  match p, h with
  | .unnamedExpr (.identifier id), h =>
    obtain ⟨i, hPos⟩ := Option.isSome_iff_exists.1 h
    exact ⟨id.value, i, by rw [projCol, hPos]; rfl, ⟨_, ⟨i, hPos, rfl⟩, rfl⟩, .inl rfl⟩
  | .unnamedExpr (.compoundIdentifier parts), h =>
    obtain ⟨last, hLast, hSome⟩ := h
    obtain ⟨i, hPos⟩ := Option.isSome_iff_exists.1 hSome
    refine ⟨last.value, i, ?_, ⟨_, ⟨last, i, hLast, .inl hPos, rfl⟩, rfl⟩, .inl rfl⟩
    rw [projCol, hLast]
    show (columnPosition cols last.value).map _ = _
    rw [hPos]
    rfl
  | .exprWithAlias (.identifier id) a, h =>
    obtain ⟨i, hPos⟩ := Option.isSome_iff_exists.1 h
    exact ⟨a.value, i, by rw [projCol, hPos]; rfl, ⟨_, ⟨i, hPos, rfl⟩, rfl⟩, .inr rfl⟩

theorem kept_of_projCol {p : SelectItem} {o : List Output} (hOut : p.outputs cols o)
    (hPicked : (projCol cols p).isSome) : p.kept cols := by
  match p, hOut, hPicked with
  | .unnamedExpr (.identifier id), _, hPicked => simpa [projCol, SelectItem.kept] using hPicked
  | .unnamedExpr (.compoundIdentifier parts), hOut, hPicked =>
    obtain ⟨s, ⟨last, i, hLast, -⟩, -⟩ := hOut
    refine ⟨last, hLast, ?_⟩
    rw [projCol, hLast] at hPicked
    simpa using hPicked
  | .exprWithAlias (.identifier id) a, _, hPicked => simpa [projCol, SelectItem.kept] using hPicked

/-- A projection of plain columns shows rows of the table. -/
theorem selectPlain_lines {distinct : Option Distinct} {w : Option Expr}
    {orderBy : Option OrderByKind} {limit offset : Option Expr} {r : QueryResult}
    (h : selectPlain now t distinct projection w orderBy limit offset = .ok r) :
    ∃ lines, asTextRows r = .ok ((projCols t.columns projection).map Prod.fst, lines) ∧
      ∀ line ∈ lines, ∃ row ∈ t.rows, line = projectText (projCols t.columns projection) row := by
  rw [selectPlain_eq] at h
  obtain ⟨pkKey, -, h⟩ := ok_of_bind h
  cases pkKey with
  | some key =>
    obtain rfl := Except.ok.inj h
    refine ⟨_, rfl, fun line hLine => ?_⟩
    obtain ⟨row, hRow, rfl⟩ := List.mem_map.1 hLine
    obtain ⟨i, -, hGet⟩ := Option.bind_eq_some_iff.1 (Option.mem_toList.1 hRow)
    exact ⟨row, List.mem_of_getElem? hGet, rfl⟩
  | none =>
    cases hRows : selectedRows now t w with
    | error fault => simp only [hRows] at h; cases h
    | ok rows =>
      simp only [hRows] at h
      obtain rfl := Except.ok.inj h
      have hSubset := selectedRows_subset hRows
      by_cases hAsIs : (orderBy.isNone && limit.isNone && offset.isNone) = true
      · rw [plainResult, if_pos hAsIs]
        refine ⟨_, rfl, fun line hLine => ?_⟩
        obtain ⟨cells, hCells, rfl⟩ := List.mem_map.1 hLine
        obtain ⟨row, hRow, rfl⟩ := List.mem_map.1 hCells
        exact ⟨row, hSubset row hRow, displayRow_cells _ row⟩
      · rw [plainResult, if_neg hAsIs]
        refine ⟨_, rfl, fun line hLine => ?_⟩
        have hCut : line ∈ cutOut (literalOf limit) ((literalOf offset).getD 0)
            ((sortSource t.columns orderBy rows).map
              (projectText (projCols t.columns projection))) := by
          split at hLine
          · simpa using hLine
          · exact hLine
        have hSorted := (cutOut_sublist ..).subset hCut
        obtain ⟨row, hRow, rfl⟩ := List.mem_map.1 hSorted
        exact ⟨row, hSubset row ((perm_sortSource ..).subset hRow), rfl⟩

/-- Which lists of plain columns are served. -/
theorem selectPlain_shown {distinct : Option Distinct} {w : Option Expr}
    {orderBy : Option OrderByKind} {limit offset : Option Expr} {r : QueryResult}
    (hPlain : projection.all isPlainCol = true)
    (h : selectPlain now t distinct projection w orderBy limit offset = .ok r) :
    ListShown now t projection r ↔ ListServed t.columns projection := by
  obtain ⟨lines, hResult, hLines⟩ := selectPlain_lines h
  rw [ListServed]
  cases hStar : projection.any SelectItem.isWildcard with
  | true =>
    rw [projCols, if_pos hStar] at hResult hLines
    rw [if_pos rfl]
    exact listShown_wildcard hStar hResult hLines
  | false =>
    rw [projCols, if_neg (by simp [hStar])] at hResult hLines
    rw [if_neg (by simp), if_pos hPlain]
    exact listShown_picked hStar (fun _ => projCol_of_kept) (fun _ _ _ => kept_of_projCol) hResult
      hLines

-- ---------------------------------------------------------------------------
-- Lists with an expression
-- ---------------------------------------------------------------------------

theorem function_of_output {p : SelectItem} {f : Function}
    (h : (outputItem exprToString p).2 = .function f) : p.function? = some f := by
  cases p with
  | unnamedExpr e =>
    obtain rfl : e = .function f := h
    rfl
  | exprWithAlias e a =>
    obtain rfl : e = .function f := h
    rfl
  | _ => cases h

theorem winItems_perRow (hItems : ∀ p ∈ projection, p.perRow) :
    winItems (projection.map (outputItem exprToString)) = [] := by
  rw [winItems, List.filterMap_eq_nil_iff]
  rintro ⟨o, i⟩ ho
  obtain ⟨p, hp, rfl⟩ := List.mem_map.1 (List.mem_of_getElem? (List.mem_zipIdx_iff_getElem?.1 ho))
  dsimp only
  split
  · rename_i hEq
    have hOver := (hItems p hp _ (function_of_output hEq)).2
    cases hOver
  · rfl

/-- An evaluated projection shows rows of the table. -/
theorem selectExprs_lines {w : Option Expr} {orderBy : Option OrderByKind}
    {limit offset : Option Expr} {r : QueryResult}
    (hWindows : winItems (projectionOutputs t.columns Column.name exprToString projection) = [])
    (h : selectExprs now t projection w orderBy limit offset = .ok r) :
    ∃ lines, asTextRows r = .ok
        ((projectionOutputs t.columns Column.name exprToString projection).map Prod.fst, lines) ∧
      ∀ line ∈ lines, ∃ row ∈ t.rows, evalOutputs now t.columns
        (projectionOutputs t.columns Column.name exprToString projection) row = .ok line := by
  rw [selectExprs] at h
  obtain ⟨kept, hKept, h⟩ := ok_of_bind h
  obtain ⟨rows, hRows, hEq⟩ := ok_of_bind h
  rw [hWindows] at hEq
  obtain rfl := Except.ok.inj hEq
  refine ⟨_, rfl, fun line hLine => ?_⟩
  have hSorted : line ∈ sortOutputs cmpNullable _ orderBy rows :=
    (cutOut_sublist (numberOf limit) ((numberOf offset).getD 0) _).subset hLine
  have hRow := (perm_sortOutputs ..).subset hSorted
  obtain ⟨row, hIn, hEval⟩ := forall₂_exists (forall₂_of_mapM hRows).flip hRow
  exact ⟨row, (filterRows_sublist hKept).subset hIn, hEval⟩

/-- Which lists with an expression are served. -/
theorem selectExprs_shown {w : Option Expr} {orderBy : Option OrderByKind}
    {limit offset : Option Expr} {r : QueryResult} (hItems : ∀ p ∈ projection, p.perRow)
    (hPlain : projection.all isPlainCol = false)
    (h : selectExprs now t projection w orderBy limit offset = .ok r) :
    ListShown now t projection r ↔ ListServed t.columns projection := by
  rw [ListServed]
  cases hStar : projection.any SelectItem.isWildcard with
  | true =>
    have hOuts : projectionOutputs t.columns Column.name exprToString projection =
        t.columns.map fun c => (c.name, .identifier (Ident.new c.name)) := by
      rw [projectionOutputs, if_pos hStar]
    have hWindows :
        winItems (projectionOutputs t.columns Column.name exprToString projection) = [] := by
      rw [hOuts, winItems, List.filterMap_eq_nil_iff]
      rintro ⟨o, i⟩ ho
      obtain ⟨c, -, rfl⟩ := List.mem_map.1 (List.mem_of_getElem? (List.mem_zipIdx_iff_getElem?.1 ho))
      rfl
    obtain ⟨lines, hResult, -⟩ := selectExprs_lines hWindows h
    -- the items are not all wildcards, so there are more of them than columns
    have hNot : ¬ OnlyWildcard t.columns projection := by
      rintro ⟨hAll, -⟩
      have hWild : projection.all isPlainCol = true := by
        rw [List.all_eq_true] at hAll ⊢
        intro p hp
        have hp' := hAll p hp
        cases p with
        | wildcard | qualifiedWildcard => rfl
        | _ => cases hp'
      rw [hWild] at hPlain
      cases hPlain
    rw [if_pos rfl]
    refine iff_of_false ?_ hNot
    rintro ⟨outs, hOut, names, lines', hSame, hNames, -⟩
    obtain ⟨rfl, -⟩ := Prod.mk.inj (Except.ok.inj (hResult.symm.trans hSame))
    refine hNot (onlyWildcard_of_length hOut hStar ?_)
    rw [hNames.length_eq, hOuts, List.length_map, List.length_map]
  | false =>
    have hOuts : projectionOutputs t.columns Column.name exprToString projection =
        projection.map (outputItem exprToString) := by
      rw [projectionOutputs, if_neg (by simp [hStar])]
    obtain ⟨lines, hResult, hLines⟩ := selectExprs_lines (hOuts ▸ winItems_perRow hItems) h
    rw [hOuts] at hResult hLines
    rw [if_neg (by simp), if_neg (by simp [hPlain])]
    exact listShown_evaluated hStar hResult hLines

-- ---------------------------------------------------------------------------
-- Prepared lists
-- ---------------------------------------------------------------------------

/-- A column the table has, without an alias. -/
def SelectItem.keptPrepared (cols : List Column) : SelectItem → Prop
  | .unnamedExpr (.identifier id) => (columnPosition cols id.value).isSome
  | .unnamedExpr (.compoundIdentifier parts) =>
    ∃ last, parts.getLast? = some last ∧ (columnPosition cols last.value).isSome
  | _ => False

/-- Calls that are all NULL in some row of the table, without an alias other than
what the item prints as. -/
def CallsNull (now : Nat) (t : Table) (projection : List SelectItem) : Prop :=
  (∀ p ∈ projection, p.alias? = none ∨ p.alias? = some p.toString) ∧
    ∃ row ∈ t.rows, ∀ p ∈ projection, ∀ e, p.expr? = some e →
      ∃ v, evalRowExpr now row t.columns e = .ok v ∧ v.toDisplay = none

/-- A list that a prepared SELECT serves in full. Calls alone are answered with
one line of NULLs, unless the key is looked up. -/
def ListServedPrepared (now : Nat) (t : Table) (bound : List Value) (w : Option Expr)
    (projection : List SelectItem) : Prop :=
  if projection.any SelectItem.isWildcard then OnlyWildcard t.columns projection
  else if allCalls projection = true ∧ preparedKey t bound w = .ok none then
    CallsNull now t projection
  else ∀ p ∈ projection, p.keptPrepared t.columns

theorem projColPrepared_of_kept {p : SelectItem} (h : p.keptPrepared cols) :
    ∃ n i, projColPrepared cols p = some (n, i) ∧ p.outputs cols [(p.alias?, .cell i)] ∧
      (p.alias? = none ∨ p.alias? = some n) := by
  match p, h with
  | .unnamedExpr (.identifier id), h =>
    obtain ⟨i, hPos⟩ := Option.isSome_iff_exists.1 h
    refine ⟨id.value, i, ?_, ⟨_, ⟨i, hPos, rfl⟩, rfl⟩, .inl rfl⟩
    show (columnPosition cols id.value).map _ = _
    rw [hPos]
    rfl
  | .unnamedExpr (.compoundIdentifier parts), h =>
    obtain ⟨last, hLast, hSome⟩ := h
    obtain ⟨i, hPos⟩ := Option.isSome_iff_exists.1 hSome
    refine ⟨last.value, i, ?_, ⟨_, ⟨last, i, hLast, .inl hPos, rfl⟩, rfl⟩, .inl rfl⟩
    show (parts.getLast?.map Ident.value).bind _ = _
    rw [hLast]
    show (columnPosition cols last.value).map _ = _
    rw [hPos]
    rfl

theorem kept_of_projColPrepared {p : SelectItem} (hPicked : (projColPrepared cols p).isSome) :
    p.keptPrepared cols := by
  match p, hPicked with
  | .unnamedExpr (.identifier id), hPicked =>
    have hSome : ((columnPosition cols id.value).map fun i => (id.value, i)).isSome := hPicked
    simpa [SelectItem.keptPrepared] using hSome
  | .unnamedExpr (.compoundIdentifier parts), hPicked =>
    have hSome : ((parts.getLast?.map Ident.value).bind fun name =>
        (columnPosition cols name).map fun i => (name, i)).isSome := hPicked
    cases hLast : parts.getLast? with
    | none => rw [hLast] at hSome; cases hSome
    | some last =>
      rw [hLast] at hSome
      exact ⟨last, hLast, by simpa using hSome⟩

theorem expr?_of_function? {p : SelectItem} {f : Function} (h : p.function? = some f) :
    p.expr? = some (.function f) := by
  unfold SelectItem.function? at h
  split at h
  · obtain rfl := Option.some.inj h
    rfl
  · obtain rfl := Option.some.inj h
    rfl
  · cases h

/-- The output columns of calls: named by their text, NULL throughout. -/
theorem calls_outputs (hCalls : ∀ p ∈ projection, p.function?.isSome)
    (hOuts : List.Forall₂ (SelectItem.outputs cols) projection outs) (now : Nat) (row : Row) :
    (List.Forall₂ (fun (o : Output) n => o.1 = none ∨ o.1 = some n) outs.flatten
        (projection.map SelectItem.toString) ↔
      ∀ p ∈ projection, p.alias? = none ∨ p.alias? = some p.toString) ∧
    (List.Forall₂ (fun (o : Output) c => o.2.shows now cols row c) outs.flatten
        (projection.map fun _ => none) ↔
      ∀ p ∈ projection, ∀ e, p.expr? = some e →
        ∃ v, evalRowExpr now row cols e = .ok v ∧ v.toDisplay = none) := by
  induction hOuts with
  | nil => simp
  | @cons p o projection outs hHead _ ih =>
    obtain ⟨f, hf⟩ := Option.isSome_iff_exists.1 (hCalls p (List.mem_cons_self ..))
    have hExpr := expr?_of_function? hf
    obtain ⟨s, hs, rfl⟩ := (outputs_expr hExpr o).1 hHead
    obtain rfl : s = .value (.function f) := hs
    obtain ⟨ihNames, ihShown⟩ := ih fun q hq => hCalls q (List.mem_cons_of_mem _ hq)
    have hShows : (Slot.value (.function f)).shows now cols row none ↔
        ∀ e, p.expr? = some e → ∃ v, evalRowExpr now row cols e = .ok v ∧ v.toDisplay = none := by
      constructor
      · rintro ⟨v, hEval, hNull⟩ e he
        obtain rfl := Option.some.inj (hExpr.symm.trans he)
        exact ⟨v, hEval, hNull.symm⟩
      · intro hAll
        obtain ⟨v, hEval, hNull⟩ := hAll _ hExpr
        exact ⟨v, hEval, hNull.symm⟩
    constructor
    · rw [List.flatten_cons, List.singleton_append, List.map_cons, List.forall₂_cons, ihNames,
        List.forall_mem_cons]
    · rw [List.flatten_cons, List.singleton_append, List.map_cons, List.forall₂_cons, ihShown,
        List.forall_mem_cons, hShows]

/-- Calls answered with one line of NULLs. -/
theorem listShown_calls {r : QueryResult} (hCalls : ∀ p ∈ projection, p.function?.isSome)
    (hResult : asTextRows r =
      .ok (projection.map SelectItem.toString, [projection.map fun _ => none])) :
    ListShown now t projection r ↔ CallsNull now t projection := by
  constructor
  · rintro ⟨outs, hOuts, names, lines, hSame, hNames, hLines⟩
    obtain ⟨rfl, rfl⟩ := Prod.mk.inj (Except.ok.inj (hResult.symm.trans hSame))
    obtain ⟨row, hRow, hShows⟩ := hLines _ (List.mem_singleton_self _)
    have hColumns := calls_outputs hCalls hOuts now row
    exact ⟨hColumns.1.1 hNames, row, hRow, hColumns.2.1 hShows⟩
  · rintro ⟨hNames, row, hRow, hNull⟩
    obtain ⟨outs, hOuts⟩ : ∃ outs, List.Forall₂ (SelectItem.outputs t.columns) projection outs := by
      refine ⟨projection.map fun p => (p.expr?.map fun e => (p.alias?, Slot.value e)).toList, ?_⟩
      rw [List.forall₂_map_right_iff, List.forall₂_same]
      intro p hp
      obtain ⟨f, hf⟩ := Option.isSome_iff_exists.1 (hCalls p hp)
      have hExpr := expr?_of_function? hf
      refine (outputs_expr hExpr _).2 ⟨.value (.function f), rfl, ?_⟩
      rw [hExpr]
      rfl
    have hColumns := calls_outputs hCalls hOuts now row
    refine ⟨outs, hOuts, _, _, hResult, hColumns.1.2 hNames, fun line hLine => ?_⟩
    obtain rfl := List.mem_singleton.1 hLine
    exact ⟨row, hRow, hColumns.2.2 hNull⟩

/-- Which lists of a prepared SELECT are served. -/
theorem selectPrepared_shown {bound : List Value} {w : Option Expr} {r : QueryResult}
    (hItems : ∀ p ∈ projection, p.perRow)
    (h : selectTablePrepared now t bound projection w = .ok r) :
    ListShown now t projection r ↔ ListServedPrepared now t bound w projection := by
  -- a list of columns, whichever rows it is taken of
  have hColumns : ∀ rows : List Row, (∀ row ∈ rows, row ∈ t.rows) →
      r = .rows ((preparedCols t.columns projection).map Prod.fst)
        (rows.map (projectText (preparedCols t.columns projection))) →
      (ListShown now t projection r ↔
        if projection.any SelectItem.isWildcard then OnlyWildcard t.columns projection
        else ∀ p ∈ projection, p.keptPrepared t.columns) := by
    rintro rows hSubset rfl
    have hLines : ∀ line ∈ rows.map (projectText (preparedCols t.columns projection)),
        ∃ row ∈ t.rows, line = projectText (preparedCols t.columns projection) row := by
      intro line hLine
      obtain ⟨row, hRow, rfl⟩ := List.mem_map.1 hLine
      exact ⟨row, hSubset row hRow, rfl⟩
    cases hStar : projection.any SelectItem.isWildcard with
    | true =>
      rw [preparedCols, if_pos hStar] at hLines ⊢
      rw [if_pos rfl]
      exact listShown_wildcard hStar rfl hLines
    | false =>
      rw [preparedCols, if_neg (by simp [hStar])] at hLines ⊢
      rw [if_neg (by simp)]
      exact listShown_picked hStar (fun _ => projColPrepared_of_kept)
        (fun _ _ _ _ => kept_of_projColPrepared) rfl hLines
  rw [selectTablePrepared_eq] at h
  obtain ⟨pkKey, hKey, h⟩ := ok_of_bind h
  cases pkKey with
  | some key =>
    rw [ListServedPrepared, hKey]
    simp only [Except.ok.injEq, reduceCtorEq, and_false, if_false]
    refine hColumns _ (fun row hRow => ?_) (Except.ok.inj h).symm
    obtain ⟨i, -, hGet⟩ := Option.bind_eq_some_iff.1 (Option.mem_toList.1 hRow)
    exact List.mem_of_getElem? hGet
  | none =>
    obtain ⟨kept, hKept, h⟩ := ok_of_bind h
    rw [ListServedPrepared, hKey]
    simp only [and_true]
    by_cases hCalls : allCalls projection = true
    · rw [if_pos hCalls] at h
      have hEach : ∀ p ∈ projection, p.function?.isSome := by
        rw [allCalls, Bool.and_eq_true] at hCalls
        exact List.all_eq_true.1 hCalls.2
      have hStar : ¬ projection.any SelectItem.isWildcard = true := by
        rw [List.any_eq_true]
        rintro ⟨p, hp, hWild⟩
        obtain ⟨f, hf⟩ := Option.isSome_iff_exists.1 (hEach p hp)
        have hExpr := expr?_of_function? hf
        rw [(isWildcard_iff p).1 hWild] at hExpr
        cases hExpr
      have hNulls : (projection.map fun p => p.function?.bind fun f =>
          if toUppercase (ObjectName.toString f.name) = ("COUNT" : Str) then
            some (natToString kept.length)
          else none) = projection.map fun _ => none := by
        refine List.map_congr_left fun p hp => ?_
        obtain ⟨f, hf⟩ := Option.isSome_iff_exists.1 (hEach p hp)
        have hNotCount : toUppercase (ObjectName.toString f.name) ≠ ("COUNT" : Str) := fun hCount => by
          have hAgg := (hItems p hp f hf).1
          rw [hCount] at hAgg
          revert hAgg
          decide
        rw [hf, Option.bind_some, if_neg hNotCount]
      rw [if_neg hStar, if_pos hCalls]
      refine listShown_calls hEach ?_
      rw [← Except.ok.inj h, hNulls]
      rfl
    · rw [if_neg hCalls] at h ⊢
      refine hColumns kept (fun row hRow => ?_) (Except.ok.inj h).symm
      rw [Prog.eq_of_filterM hKept] at hRow
      exact (List.mem_filter.1 hRow).1

end Columns

-- ---------------------------------------------------------------------------
-- The list of a query
-- ---------------------------------------------------------------------------

variable {env : QueryEnv} {dbName db table : Str} {name : ObjectName} {t : Table}

theorem not_aggregateOnly {projection : List SelectItem} (hItems : ∀ p ∈ projection, p.perRow) :
    isAggregateOnly projection (.expressions []) = false := by
  rw [Bool.eq_false_iff]
  intro hOnly
  rw [isAggregateOnly, Bool.and_eq_true, Bool.and_eq_true] at hOnly
  obtain ⟨⟨hSome, -⟩, hAll⟩ := hOnly
  cases projection with
  | nil => cases hSome
  | cons p projection =>
    have hHead := List.all_eq_true.1 hAll p (List.mem_cons_self ..)
    cases hf : p.function? with
    | none => rw [hf] at hHead; cases hHead
    | some f =>
      have hNot := (hItems p (List.mem_cons_self ..) f hf).1
      rw [hf] at hHead
      exact Bool.false_ne_true (hNot.symm.trans hHead)

/-- **SELECT lists.** A SELECT over a table gives the columns its list asks for
exactly when the list is a lone wildcard, or plain columns that are all there and
no qualified one of them with an alias, or has an expression and no wildcard, all
its columns there. A prepared one asks for columns without aliases. -/
theorem selectList_iff (hTarget : resolveName dbName (ObjectName.toString name) = (db, table))
    (hTable : findTable env.databases db table [] [] = .ok t) {projection : List SelectItem}
    (hItems : ∀ p ∈ projection, p.perRow) :
    (∀ distinct w having orderBy limit offset r,
      select env dbName
          (tableQuery name distinct projection w (.expressions []) having orderBy limit offset) =
        .ok r →
      ((r.isErr = true ∨ ListShown env.now t projection r) ↔ ListServed t.columns projection)) ∧
    ∀ bound distinct w groupBy having orderBy limit offset r,
      selectPrepared env dbName
          (tableQuery name distinct projection w groupBy having orderBy limit offset) bound =
        .ok r →
      ((r.isErr = true ∨ ListShown env.now t projection r) ↔
        ListServedPrepared env.now t bound w projection) := by
  constructor
  · intro distinct w having orderBy limit offset r h
    rw [select_tableQuery hTarget hTable] at h
    obtain ⟨w', -, h⟩ := ok_of_bind h
    have hNotErr := selectTable_isErr h
    have hBy : groupByCols t.columns (.expressions []) = [] := rfl
    rw [hNotErr]
    simp only [Bool.false_eq_true, false_or]
    cases hPlain : projection.all isPlainCol with
    | true =>
      rw [selectTable_plain _ _ _ _ _ _ (not_aggregateOnly hItems) hBy hPlain] at h
      exact selectPlain_shown hPlain h
    | false =>
      rw [selectTable_exprs _ _ _ _ _ _ (not_aggregateOnly hItems) hBy hPlain] at h
      exact selectExprs_shown hItems hPlain h
  · intro bound distinct w groupBy having orderBy limit offset r h
    have hName : TableFactor.toString (.table name []) = ObjectName.toString name :=
      List.append_nil _
    have hFound : findTable env.databases db table (unknownDatabase db)
        ("Table not found: " ++ table) = .ok t := findTable_ok_iff.2 hTable
    simp only [selectPrepared, tableQuery, Query.body, TableWithJoins.relation, hName, hTarget,
      hFound] at h
    have hShown := selectPrepared_shown hItems h
    have hNotErr : r.isErr = false := by
      rw [selectTablePrepared_eq] at h
      obtain ⟨pkKey, -, h⟩ := ok_of_bind h
      cases pkKey with
      | some key =>
        obtain rfl := Except.ok.inj h
        rfl
      | none =>
        obtain ⟨kept, -, h⟩ := ok_of_bind h
        split at h <;> (obtain rfl := Except.ok.inj h; rfl)
    rw [hNotErr]
    simp only [Bool.false_eq_true, false_or]
    exact hShown

end SelectLists

-- ---------------------------------------------------------------------------
-- A column beside the wildcard
-- ---------------------------------------------------------------------------

section StarAndColumn

local instance selectListsPlatform : Platform := tablePlatform []

def itemA : SelectItem := .unnamedExpr (.identifier ⟨"a", none⟩)

/-- `SELECT projection FROM t`. -/
def selectItems (projection : List SelectItem) : Query :=
  tableQuery nameT none projection none (.expressions []) none none none none

/-- `SELECT *, a FROM t` has one column. -/
theorem starAndColumn_rows : select tOnly "test" (selectItems [.wildcard "*", itemA]) =
    .ok (.valueRows ["a"] [[.int 1]]) := by
  decide +kernel

theorem starAndColumn_perRow : ∀ p ∈ [SelectItem.wildcard "*", itemA], p.perRow := by
  intro p hp f hf
  rcases List.mem_cons.1 hp with rfl | hp
  · cases hf
  · obtain rfl := List.mem_singleton.1 hp
    cases hf

theorem selectList_iff_star :
    (QueryResult.valueRows ["a"] [[.int 1]]).isErr = true ∨
        ListShown 0 (tableA [[.int 1]]) [.wildcard "*", itemA] (.valueRows ["a"] [[.int 1]]) ↔
      ListServed [⟨"a", .float, true, false⟩] [.wildcard "*", itemA] := by
  have hTable : findTable tOnly.databases "test" "t" [] [] = .ok (tableA [[.int 1]]) := rfl
  exact (selectList_iff resolveName_nameT hTable starAndColumn_perRow).1 none none none none none none
    _ starAndColumn_rows

/-- The list asks for two columns. -/
theorem not_listShown : ¬ ∀ (env : QueryEnv) (dbName db table : Str) (name : ObjectName) (t : Table),
    resolveName dbName (ObjectName.toString name) = (db, table) →
    findTable env.databases db table [] [] = .ok t →
    ∀ projection : List SelectItem, (∀ p ∈ projection, p.perRow) →
      ∀ distinct w having orderBy limit offset r,
        select env dbName
            (tableQuery name distinct projection w (.expressions []) having orderBy limit offset) =
          .ok r →
        r.isErr = true ∨ ListShown env.now t projection r := by
  intro hAll
  rcases hAll tOnly "test" "test" "t" nameT _ resolveName_nameT (findTable_oneTable _) _
    starAndColumn_perRow none none none none none none _ starAndColumn_rows with hErr | hShown
  · cases hErr
  · obtain ⟨outs, hOuts, names, lines, hRows, hNames, -⟩ := hShown
    obtain ⟨rfl, -⟩ := Prod.mk.inj (Except.ok.inj hRows)
    have hLength := hNames.length_eq
    rw [outputs_total hOuts] at hLength
    revert hLength
    decide +kernel

end StarAndColumn

end RunAlexDb
