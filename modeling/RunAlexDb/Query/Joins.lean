import RunAlexDb.Lib.Joins
import RunAlexDb.Query.ColumnReads
import RunAlexDb.Query.TableQueries
import RunAlexDb.Store.RowWidths

/-!
# Joins — two tables joined under aliases

`select_joined` does not know aliases: it puts the columns of the tables in one
list, those of the second table whose name is taken under the name of their
table, and finds `a.c` there by its whole name or else as `c`. RIGHT JOIN is a
cross product.

Main result: `joins_iff`.
-/

set_option linter.unusedSectionVars false

namespace RunAlexDb

open Text Platform

-- ---------------------------------------------------------------------------
-- Qualified names
-- ---------------------------------------------------------------------------

inductive JoinSide
  | first | second
deriving DecidableEq, Repr

/-- A column of one of the two tables. -/
structure QualifiedName where
  side : JoinSide
  column : Str
deriving DecidableEq, Repr

/-- The aliases of the two tables: without dots, and different. -/
structure Aliases where
  first : Str
  second : Str
  noDot : '.' ∉ first ∧ '.' ∉ second
  differ : eqIgnoreAsciiCase first second = false

def Aliases.of (as : Aliases) : JoinSide → Str
  | .first => as.first
  | .second => as.second

def QualifiedName.text (as : Aliases) (q : QualifiedName) : Str := as.of q.side ++ "." ++ q.column

/-- `a.c` or `b.c`, however quoted, for one of the names. -/
def Names (as : Aliases) (names : List QualifiedName) (e : Expr) : Prop :=
  ∃ q ∈ names, ∃ quote quote', e = .compoundIdentifier [⟨as.of q.side, quote⟩, ⟨q.column, quote'⟩]

/-- The position of a column in the rows of the join. -/
def QualifiedName.position (colsA colsB : List Column) (q : QualifiedName) : Option Nat :=
  match q.side with
  | .first => columnPosition colsA q.column
  | .second => (columnPosition colsB q.column).map (colsA.length + ·)

/-- The columns of a table under its alias. -/
def aliased (alias_ : Str) (cols : List Column) : List Column :=
  cols.map fun c => { c with name := alias_ ++ "." ++ c.name }

/-- The columns of the join, each under the alias of its table. -/
def relationCols (as : Aliases) (colsA colsB : List Column) : List Column :=
  aliased as.first colsA ++ aliased as.second colsB

/-- Where a name with one dot is found: by its whole text, else by its last part. -/
def foundAt (cols : List Column) (as : Aliases) (q : QualifiedName) : Option Nat :=
  (columnPosition cols (q.text as)).or (columnPosition cols q.column)

theorem compoundValue_qualified (row : Row) (cols : List Column) (as : Aliases) (q : QualifiedName)
    (quote quote' : Option Char) :
    compoundValue row cols [⟨as.of q.side, quote⟩, ⟨q.column, quote'⟩] =
      ((foundAt cols as q).bind fun i => row[i]?).getD .null := rfl

section Aliased

variable {as : Aliases} {colsA colsB : List Column}

theorem eq_dot_of_toLower {c : Char} (h : c.toLower = '.') : c = '.' := by
  delta Char.toLower at h
  split at h
  · rename_i hUpper
    -- a capital letter has no dot for its small one
    have hVal : c.val + 32 = 46 := congrArg Char.val h
    have hNat := congrArg UInt32.toNat hVal
    have hLow : 65 ≤ c.val.toNat := hUpper.1
    have hHigh : c.val.toNat ≤ 90 := hUpper.2
    rw [UInt32.toNat_add] at hNat
    have hNumbers : (32 : UInt32).toNat = 32 ∧ (46 : UInt32).toNat = 46 := ⟨rfl, rfl⟩
    omega
  · exact h

theorem toAsciiLowercase_dot {s : Str} (h : '.' ∉ s) : '.' ∉ toAsciiLowercase s := by
  intro hMem
  obtain ⟨c, hc, hLower⟩ := List.mem_map.1 hMem
  exact h (eq_dot_of_toLower hLower ▸ hc)

theorem toAsciiLowercase_append (s t : Str) :
    toAsciiLowercase (s ++ t) = toAsciiLowercase s ++ toAsciiLowercase t := List.map_append

/-- Under one alias names differ as columns do. -/
theorem eqIgnoreCase_aliased (a n c : Str) :
    eqIgnoreAsciiCase (a ++ "." ++ n) (a ++ "." ++ c) = eqIgnoreAsciiCase n c := by
  rw [Bool.eq_iff_iff, eqIgnoreAsciiCase, eqIgnoreAsciiCase, beq_iff_eq, beq_iff_eq,
    toAsciiLowercase_append, toAsciiLowercase_append _ c]
  exact List.append_right_inj _

/-- Under two aliases no names are the same. -/
theorem eqIgnoreCase_aliases (as : Aliases) (n c : Str) :
    eqIgnoreAsciiCase (as.first ++ "." ++ n) (as.second ++ "." ++ c) = false := by
  rw [Bool.eq_false_iff]
  intro hSame
  rw [eqIgnoreAsciiCase, beq_iff_eq, List.append_assoc, List.append_assoc] at hSame
  have hTake : ∀ {s : Str} (t : Str), '.' ∉ s →
      (toAsciiLowercase (s ++ ("." ++ t))).takeWhile (· ≠ '.') = toAsciiLowercase s := by
    intro s t hs
    have hAll : ∀ x ∈ toAsciiLowercase s, decide (x ≠ '.') = true := by
      intro x hx
      rw [decide_eq_true_eq]
      rintro rfl
      exact toAsciiLowercase_dot hs hx
    rw [toAsciiLowercase_append, List.takeWhile_append_of_pos hAll]
    exact List.append_nil _
  have hAliases := congrArg (List.takeWhile (· ≠ '.')) hSame
  rw [hTake n as.noDot.1, hTake c as.noDot.2] at hAliases
  have hDiffer := as.differ
  rw [eqIgnoreAsciiCase, hAliases, beq_self_eq_true] at hDiffer
  cases hDiffer

theorem columnPosition_aliased (a c : Str) (cols : List Column) :
    columnPosition (aliased a cols) (a ++ "." ++ c) = columnPosition cols c := by
  rw [columnPosition, aliased, List.findIdx?_map]
  show cols.findIdx? (fun col => eqIgnoreAsciiCase (a ++ "." ++ col.name) (a ++ "." ++ c)) = _
  simp only [eqIgnoreCase_aliased]
  rfl

/-- Under their aliases the columns are found where they are. -/
theorem foundAt_relationCols {q : QualifiedName} {i : Nat}
    (h : q.position colsA colsB = some i) : foundAt (relationCols as colsA colsB) as q = some i := by
  have hWhole : columnPosition (relationCols as colsA colsB) (q.text as) = some i := by
    rw [relationCols, columnPosition, List.findIdx?_append]
    obtain ⟨side, c⟩ := q
    cases side with
    | first =>
      have hHere : columnPosition (aliased as.first colsA) (as.first ++ "." ++ c) = some i :=
        (columnPosition_aliased ..).trans h
      rw [columnPosition] at hHere
      show (List.findIdx? _ (aliased as.first colsA)).or _ = _
      rw [QualifiedName.text, Aliases.of, hHere]
      rfl
    | second =>
      obtain ⟨j, hj, rfl⟩ := Option.map_eq_some_iff.1 h
      have hNot : (aliased as.first colsA).findIdx?
          (fun col => eqIgnoreAsciiCase col.name (as.second ++ "." ++ c)) = none := by
        rw [List.findIdx?_eq_none_iff]
        intro col hCol
        obtain ⟨col', -, rfl⟩ := List.mem_map.1 hCol
        exact eqIgnoreCase_aliases as col'.name c
      have hThere : columnPosition (aliased as.second colsB) (as.second ++ "." ++ c) = some j :=
        (columnPosition_aliased ..).trans hj
      rw [columnPosition] at hThere
      show (List.findIdx? _ (aliased as.first colsA)).or _ = _
      rw [QualifiedName.text, Aliases.of, hNot, hThere]
      simp [aliased, Nat.add_comm]
  rw [foundAt, hWhole]
  rfl

end Aliased

section Joins

variable [Platform]

-- ---------------------------------------------------------------------------
-- The relational definition
-- ---------------------------------------------------------------------------

/-- Kind and condition of a join with ON. -/
def JoinOperator.joins : JoinOperator → Option (JoinKind × Expr)
  | .join (.on e) => some (.inner, e)
  | .inner (.on e) => some (.inner, e)
  | .left (.on e) => some (.left, e)
  | .leftOuter (.on e) => some (.left, e)
  | .right (.on e) => some (.right, e)
  | .rightOuter (.on e) => some (.right, e)
  | _ => none

/-- A row of the join, NULLs for the side that has no partner. -/
def pairRow (widthA widthB : Nat) (p : Option Row × Option Row) : Row :=
  p.1.getD (List.replicate widthA .null) ++ p.2.getD (List.replicate widthB .null)

/-- The rows of the join that meet the WHERE. -/
def relationRows (now : Nat) (as : Aliases) (A B : Table) (kind : JoinKind) (on_ : Expr)
    (w : Option Expr) : List Row :=
  let cols := relationCols as A.columns B.columns
  ((relJoin (fun a b => holds now cols on_ (a ++ b)) A.rows B.rows kind).map
    (pairRow A.columns.length B.columns.length)).filter fun row =>
      w.all fun e => holds now cols e row

/-- The result has the projected rows of the join, in some order. -/
def JoinShown (now : Nat) (as : Aliases) (A B : Table) (kind : JoinKind) (on_ : Expr)
    (w : Option Expr) (projection : List SelectItem) (r : QueryResult) : Prop :=
  ∃ names lines shown, r = .rows names lines ∧
    List.Forall₂ (fun row line => evalOutputs now (relationCols as A.columns B.columns)
      (projection.map (outputItem fun _ => [])) row = .ok line)
      (relationRows now as A B kind on_ w) shown ∧
    lines.Perm shown

/-- Items other than wildcards, their columns all qualified. -/
def ItemsNamed (as : Aliases) (names : List QualifiedName) (projection : List SelectItem) : Prop :=
  ∀ p ∈ projection, ∃ e, p.expr? = some e ∧ e.columnsAll (Names as names)

-- ---------------------------------------------------------------------------
-- What select_joined does
-- ---------------------------------------------------------------------------

/-- The columns of both tables in one list. -/
def mergedCols (tblB : Str) (colsA colsB : List Column) : List Column :=
  colsA ++ joinColumns colsA tblB colsB

section Run

variable {env : QueryEnv} {dbName dbA tblA dbB tblB : Str} {nameA nameB : ObjectName} {A B : Table}
  (hA : resolveName dbName (ObjectName.toString nameA) = (dbA, tblA))
  (hB : resolveName dbName (ObjectName.toString nameB) = (dbB, tblB))
  (hTableA : findTable env.databases dbA tblA [] [] = .ok A)
  (hTableB : findTable env.databases dbB tblB [] [] = .ok B)

include hA hB hTableA hTableB

/-- A join of two tables without GROUP BY, ORDER BY, LIMIT and OFFSET. -/
theorem selectJoined_two (restA restB : Str) (op : JoinOperator) (projection : List SelectItem)
    (w : Option Expr) :
    selectJoined env dbName (.mk (.table nameA restA) [.mk (.table nameB restB) op]) projection w
        (.expressions []) none none none =
      (A.rows.mapM (joinRow env.now (mergedCols tblB A.columns B.columns) op.condition
        B.columns.length B.rows)).bind fun joined =>
      (filterRows env.now (mergedCols tblB A.columns B.columns) w joined.flatten).bind fun rows =>
      (rows.mapM (evalOutputs env.now (mergedCols tblB A.columns B.columns)
        (projectionOutputs (mergedCols tblB A.columns B.columns) (fun c => lastSegment c.name)
          (fun _ => []) projection))).map fun lines =>
      .rows ((projectionOutputs (mergedCols tblB A.columns B.columns) (fun c => lastSegment c.name)
          (fun _ => []) projection).map Prod.fst) lines := by
  have hFoundA : findTable env.databases dbA tblA (unknownDatabase dbA) (unknownTable tblA) = .ok A :=
    findTable_ok_iff.2 hTableA
  have hFoundB : findTable env.databases dbB tblB (unknownDatabase dbB) (unknownTable tblB) = .ok B :=
    findTable_ok_iff.2 hTableB
  simp only [selectJoined, TableWithJoins.relation, TableWithJoins.joins, relationName, hA, hFoundA,
    joinAll, hB, hFoundB, bind, Except.bind, pure, Except.pure]
  rw [mergedCols]
  cases A.rows.mapM (joinRow env.now (A.columns ++ joinColumns A.columns tblB B.columns) op.condition
      B.columns.length B.rows) with
  | error fault => rfl
  | ok joined =>
    simp only
    cases filterRows env.now (A.columns ++ joinColumns A.columns tblB B.columns) w joined.flatten with
    | error fault => rfl
    | ok rows =>
      simp only [GroupByExpr.exprs, List.isEmpty_nil, if_true, joinOutput, sortSource, sortOutputs,
        bind, Except.bind, pure, Except.pure]
      cases rows.mapM (evalOutputs env.now (A.columns ++ joinColumns A.columns tblB B.columns)
        (projectionOutputs (A.columns ++ joinColumns A.columns tblB B.columns)
          (fun c => lastSegment c.name) (fun _ => []) projection)) <;> rfl

end Run

-- ---------------------------------------------------------------------------
-- Where the names are found
-- ---------------------------------------------------------------------------

/-- Each name is found where its column is. -/
def NamesFound (as : Aliases) (names : List QualifiedName) (tblB : Str)
    (colsA colsB : List Column) : Prop :=
  ∀ q ∈ names, foundAt (mergedCols tblB colsA colsB) as q = q.position colsA colsB

section Found

variable {now : Nat} {as : Aliases} {names : List QualifiedName} {tblB : Str}
  {colsA colsB : List Column}
  (hThere : ∀ q ∈ names, (q.position colsA colsB).isSome)
  (hFound : NamesFound as names tblB colsA colsB)

include hThere hFound

theorem evalRowExpr_merged (row : Row) (e : Expr) (h : Names as names e) :
    evalRowExpr now row (mergedCols tblB colsA colsB) e =
      evalRowExpr now row (relationCols as colsA colsB) e := by
  obtain ⟨q, hq, quote, quote', rfl⟩ := h
  obtain ⟨i, hPos⟩ := Option.isSome_iff_exists.1 (hThere q hq)
  rw [evalRowExpr, evalRowExpr, compoundValue_qualified, compoundValue_qualified, hFound q hq,
    foundAt_relationCols hPos, hPos]

theorem holds_merged {e : Expr} (h : e.columnsAll (Names as names)) (row : Row) :
    holds now (mergedCols tblB colsA colsB) e row = holds now (relationCols as colsA colsB) e row := by
  rw [holds, holds, evalWhere_congr (evalRowExpr_merged hThere hFound row) e h]

theorem evalOutputs_merged {projection : List SelectItem} (h : ItemsNamed as names projection)
    (row : Row) :
    evalOutputs now (mergedCols tblB colsA colsB) (projection.map (outputItem fun _ => [])) row =
      evalOutputs now (relationCols as colsA colsB) (projection.map (outputItem fun _ => [])) row := by
  have hItem : ∀ o ∈ projection.map (outputItem fun _ => []), o.2.columnsAll (Names as names) := by
    intro o ho
    obtain ⟨p, hp, rfl⟩ := List.mem_map.1 ho
    obtain ⟨e, hExpr, hNames⟩ := h p hp
    cases p with
    | unnamedExpr e' =>
      obtain rfl := Option.some.inj hExpr
      exact hNames
    | exprWithAlias e' a =>
      obtain rfl := Option.some.inj hExpr
      exact hNames
    | _ => cases hExpr
  rw [evalOutputs, evalOutputs]
  generalize projection.map (outputItem fun _ => []) = outs at hItem
  induction outs with
  | nil => rfl
  | cons o outs ih =>
    rw [List.mapM_cons, List.mapM_cons, ih fun o' ho' => hItem o' (List.mem_cons_of_mem _ ho'),
      evalRowExpr_congr (evalRowExpr_merged hThere hFound row) o.2 (hItem o (List.mem_cons_self ..))]

end Found

theorem projectionOutputs_named {as : Aliases} {names : List QualifiedName}
    {projection : List SelectItem} (h : ItemsNamed as names projection) (cols : List Column)
    (nameOf : Column → Str) (emptyName : Expr → Str) :
    projectionOutputs cols nameOf emptyName projection = projection.map (outputItem emptyName) := by
  have hNoStar : ¬ projection.any SelectItem.isWildcard = true := by
    rw [List.any_eq_true]
    rintro ⟨p, hp, hStar⟩
    obtain ⟨e, hExpr, -⟩ := h p hp
    cases p with
    | unnamedExpr | exprWithAlias => cases hStar
    | _ => cases hExpr
  rw [projectionOutputs, if_neg hNoStar]

-- ---------------------------------------------------------------------------
-- The loop
-- ---------------------------------------------------------------------------

theorem eq_map_of_forall₂ {α β : Type} {g : α → β} {l : List α} {m : List β}
    (h : List.Forall₂ (fun a b => b = g a) l m) : m = l.map g := by
  induction h with
  | nil => rfl
  | cons hHead _ ih => rw [hHead, ih, List.map_cons]

/-- What a row contributes is the row of the loop. -/
theorem joinRow_ok {now : Nat} {cols : List Column} {on_ : Expr} {outer : Bool} {widthA widthB : Nat}
    {rowsB : List Row} {a : Row} {out : List Row}
    (h : joinRow now cols (some on_, outer) widthB rowsB a = .ok out) :
    out = (loopRow (fun a b => holds now cols on_ (a ++ b)) outer rowsB a).map
      (pairRow widthA widthB) := by
  rw [joinRow] at h
  obtain ⟨matched, hMatched, hEq⟩ := ok_of_bind h
  obtain rfl := Except.ok.inj hEq
  have hFilter : matched = (rowsB.filter fun b => holds now cols on_ (a ++ b)).map (a ++ ·) := by
    rw [Prog.eq_of_filterM hMatched, List.filter_map]
    rfl
  rw [hFilter, loopRow]
  have hEmpty : ((rowsB.filter fun b => holds now cols on_ (a ++ b)).map (a ++ ·)).isEmpty =
      (rowsB.filter fun b => holds now cols on_ (a ++ b)).isEmpty := by
    rw [List.isEmpty_map]
  rw [hEmpty]
  split
  · rfl
  · rw [List.map_map]
    rfl

theorem joinedRows_eq {now : Nat} {cols : List Column} {on_ : Expr} {outer : Bool}
    {widthA widthB : Nat} {rowsA rowsB : List Row} {joined : List (List Row)}
    (h : rowsA.mapM (joinRow now cols (some on_, outer) widthB rowsB) = .ok joined) :
    joined.flatten =
      (rowsA.flatMap (loopRow (fun a b => holds now cols on_ (a ++ b)) outer rowsB)).map
        (pairRow widthA widthB) := by
  have hEach : List.Forall₂ (fun a out => out =
      (loopRow (fun a b => holds now cols on_ (a ++ b)) outer rowsB a).map (pairRow widthA widthB))
      rowsA joined := (forall₂_of_mapM h).imp fun _ _ => joinRow_ok
  rw [eq_map_of_forall₂ hEach, List.map_flatMap, List.flatMap]

/-- The loop and the join have the same rows. -/
theorem loop_perm_relJoin {α β : Type} (θ : α → β → Bool) (l : List α) (r : List β) {kind : JoinKind}
    (hKind : kind ≠ .right) :
    (l.flatMap (loopRow θ (kind = .left) r)).Perm (relJoin θ l r kind) := by
  cases kind with
  | inner => exact List.Perm.of_eq (innerLoop_eq θ l r)
  | left => exact leftLoop_perm θ l r
  | right => exact absurd rfl hKind

theorem condition_of_joins {op : JoinOperator} {kind : JoinKind} {on_ : Expr}
    (h : op.joins = some (kind, on_)) (hKind : kind ≠ .right) :
    op.condition = (some on_, decide (kind = .left)) := by
  unfold JoinOperator.joins at h
  split at h
  all_goals first
    | cases h; rfl
    | cases h; exact absurd rfl hKind
    | cases h

section Shown

variable {env : QueryEnv} {dbName dbA tblA dbB tblB : Str} {nameA nameB : ObjectName} {A B : Table}
  (hA : resolveName dbName (ObjectName.toString nameA) = (dbA, tblA))
  (hB : resolveName dbName (ObjectName.toString nameB) = (dbB, tblB))
  (hTableA : findTable env.databases dbA tblA [] [] = .ok A)
  (hTableB : findTable env.databases dbB tblB [] [] = .ok B)
  {as : Aliases} {names : List QualifiedName}

include hA hB hTableA hTableB

/-- An INNER or LEFT JOIN whose names are found. -/
theorem joinShown_of_found (hThere : ∀ q ∈ names, (q.position A.columns B.columns).isSome)
    (hFound : NamesFound as names tblB A.columns B.columns) {kind : JoinKind} (hKind : kind ≠ .right)
    {op : JoinOperator} {on_ : Expr} (hOp : op.joins = some (kind, on_))
    (hOn : on_.columnsAll (Names as names)) {w : Option Expr}
    (hWhere : ∀ e, w = some e → e.columnsAll (Names as names)) {projection : List SelectItem}
    (hItems : ItemsNamed as names projection) {restA restB : Str} {r : QueryResult}
    (hRun : selectJoined env dbName (.mk (.table nameA restA) [.mk (.table nameB restB) op]) projection
      w (.expressions []) none none none = .ok r) :
    JoinShown env.now as A B kind on_ w projection r := by
  rw [selectJoined_two hA hB hTableA hTableB, condition_of_joins hOp hKind,
    projectionOutputs_named hItems] at hRun
  obtain ⟨joined, hJoined, hRun⟩ := ok_of_bind hRun
  obtain ⟨rows, hRows, hRun⟩ := ok_of_bind hRun
  cases hLines : rows.mapM (evalOutputs env.now (mergedCols tblB A.columns B.columns)
      (projection.map (outputItem fun _ => []))) with
  | error fault => rw [hLines] at hRun; cases hRun
  | ok lines =>
    rw [hLines] at hRun
    obtain rfl := Except.ok.inj hRun
    -- the rows of the loop, filtered
    have hOnSame : (fun a b : Row =>
        holds env.now (mergedCols tblB A.columns B.columns) on_ (a ++ b)) = fun a b =>
          holds env.now (relationCols as A.columns B.columns) on_ (a ++ b) :=
      funext₂ fun a b => holds_merged hThere hFound hOn (a ++ b)
    have hLoop : joined.flatten =
        (A.rows.flatMap (loopRow (fun a b =>
          holds env.now (mergedCols tblB A.columns B.columns) on_ (a ++ b)) (kind = .left) B.rows)).map
        (pairRow A.columns.length B.columns.length) := joinedRows_eq hJoined
    rw [hOnSame] at hLoop
    have hFiltered : rows = joined.flatten.filter fun row =>
        w.all fun e => holds env.now (relationCols as A.columns B.columns) e row := by
      cases w with
      | none =>
        obtain rfl := Except.ok.inj hRows
        exact (List.filter_true _).symm
      | some e =>
        rw [Prog.eq_of_filterM hRows]
        exact List.filter_congr fun row _ => holds_merged hThere hFound (hWhere e rfl) row
    have hPerm : (relationRows env.now as A B kind on_ w).Perm rows := by
      rw [hFiltered, hLoop]
      exact (((loop_perm_relJoin _ A.rows B.rows hKind).map _).filter _).symm
    have hEach : List.Forall₂ (fun row line =>
        evalOutputs env.now (relationCols as A.columns B.columns)
          (projection.map (outputItem fun _ => [])) row = .ok line) rows lines :=
      (forall₂_of_mapM hLines).imp fun row line h =>
        (evalOutputs_merged hThere hFound hItems row).symm.trans h
    obtain ⟨shown, hShown, hShownPerm⟩ := List.perm_comp_forall₂ hPerm hEach
    exact ⟨_, lines, shown, rfl, hShown, hShownPerm.symm⟩

end Shown

-- ---------------------------------------------------------------------------
-- Joins that come out wrong
-- ---------------------------------------------------------------------------

/-- Two tables, in whichever databases they are looked up. -/
def joinEnv (dbA dbB tblA tblB : Str) (A B : Table) : QueryEnv where
  databases :=
    let tables := (HashMap.empty.insert tblA A).insert tblB B
    (HashMap.empty.insert dbA ⟨dbA, tables⟩).insert dbB ⟨dbB, tables⟩
  lastInsertId := 0
  now := 0

/-- A name for the first table, other than that of the second. -/
def otherName (tblB : Str) : Str := if tblB = ("t" : Str) then "u" else "t"

theorem resolveName_otherName (dbName tblB : Str) :
    resolveName dbName (ObjectName.toString [⟨otherName tblB, none⟩]) = (dbName, otherName tblB) := by
  rw [otherName]
  split <;> rfl

section Wrong

variable {dbName dbB tblB : Str} {A B : Table}

theorem findTable_of_get {databases : HashMap Str Database} {db table : Str} {d : Database} {t : Table}
    (hDb : databases.get db = some d) (hTable : d.tables.get table = some t) :
    findTable databases db table [] [] = .ok t := by
  rw [findTable, hDb]
  simp only [hTable]

theorem findTable_joinEnv_first :
    findTable (joinEnv dbName dbB (otherName tblB) tblB A B).databases dbName (otherName tblB) [] [] =
      .ok A := by
  have hOther : otherName tblB ≠ tblB := by
    rw [otherName]
    split
    · rename_i hT
      rw [hT]
      decide
    · rename_i hNot
      exact fun h => hNot h.symm
  have hTables : ((HashMap.empty.insert (otherName tblB) A).insert tblB B).get (otherName tblB) =
      some A := by
    rw [HashMap.get_insert, if_neg hOther, HashMap.get_insert, if_pos rfl]
  by_cases hSame : dbName = dbB
  · refine findTable_of_get
      (d := ⟨dbB, (HashMap.empty.insert (otherName tblB) A).insert tblB B⟩) ?_ hTables
    rw [joinEnv, HashMap.get_insert, if_pos hSame]
  · refine findTable_of_get
      (d := ⟨dbName, (HashMap.empty.insert (otherName tblB) A).insert tblB B⟩) ?_ hTables
    rw [joinEnv, HashMap.get_insert, if_neg hSame, HashMap.get_insert, if_pos rfl]

theorem findTable_joinEnv_second (tblA : Str) :
    findTable (joinEnv dbName dbB tblA tblB A B).databases dbB tblB [] [] = .ok B := by
  refine findTable_of_get (d := ⟨dbB, (HashMap.empty.insert tblA A).insert tblB B⟩) ?_ ?_
  · rw [joinEnv, HashMap.get_insert, if_pos rfl]
  · rw [HashMap.get_insert, if_pos rfl]

/-- A row of NULLs, twice. -/
def twoNulls (width : Nat) : List Row := List.replicate 2 (List.replicate width .null)

/-- The condition `1`, and one that is never true. -/
def always : Expr := .value (.number "1" false)

def never : Expr := .isNotNull (.value .null)

/-- RIGHT JOIN on a condition that no pair meets gives every pair. -/
theorem not_joinShown_right (as : Aliases) {nameB : ObjectName} (colsA colsB : List Column)
    (hB : resolveName dbName (ObjectName.toString nameB) = (dbB, tblB)) :
    ∃ (A B : Table) (r : QueryResult), A.columns = colsA ∧ B.columns = colsB ∧
      A.FullWidth ∧ B.FullWidth ∧
      selectJoined (joinEnv dbName dbB (otherName tblB) tblB A B) dbName
          (.mk (.table [⟨otherName tblB, none⟩] []) [.mk (.table nameB []) (.right (.on never))])
          [.unnamedExpr always] none (.expressions []) none none none = .ok r ∧
      ¬ JoinShown 0 as A B .right never none [.unnamedExpr always] r := by
  have hWidth : ∀ width, ∀ row ∈ twoNulls width, row.length = width := by
    intro width row hRow
    rw [List.eq_of_mem_replicate hRow, List.length_replicate]
  refine ⟨Table.create "test" "t" colsA (twoNulls colsA.length),
    Table.create "test" "t" colsB (twoNulls colsB.length),
    .rows [exprToString always] (List.replicate 4 [(exprToValue always).toDisplay]),
    rfl, rfl, hWidth _, hWidth _, ?_, ?_⟩
  · rw [selectJoined_two (resolveName_otherName dbName tblB) hB findTable_joinEnv_first
      (findTable_joinEnv_second _)]
    rfl
  · rintro ⟨names, lines, shown, hRun, hShown, hPerm⟩
    obtain ⟨-, rfl⟩ := QueryResult.rows.inj hRun
    have hLength := hPerm.length_eq
    rw [← hShown.length_eq] at hLength
    cases hLength

/-- A row of NULLs but for one cell. -/
def markedRow (width i : Nat) : Row := (List.replicate width .null).set i (.int 1)

theorem markedRow_shows {width i : Nat} {j : Option Nat}
    (h : ((j.bind fun k => (markedRow width i)[k]?).getD .null).toDisplay ≠ none) : j = some i := by
  cases j with
  | none => exact absurd rfl h
  | some k =>
    by_contra hOther
    have hNe : i ≠ k := fun hEq => hOther (congrArg some hEq.symm)
    rw [Option.bind_some, markedRow, List.getElem?_set_ne hNe, List.getElem?_replicate] at h
    split at h <;> exact h rfl

/-- A join of the kind. -/
def joinOf (kind : JoinKind) (on_ : Expr) : JoinOperator :=
  match kind with
  | .inner => .inner (.on on_)
  | .left => .left (.on on_)
  | .right => .right (.on on_)

theorem joins_joinOf (kind : JoinKind) (on_ : Expr) :
    (joinOf kind on_).joins = some (kind, on_) := by
  cases kind <;> rfl

/-- The two halves of a marked row, joined, show the mark where the name is
found. -/
theorem foundAt_of_joinShown (as : Aliases) {nameB : ObjectName} (colsA colsB : List Column)
    (hB : resolveName dbName (ObjectName.toString nameB) = (dbB, tblB)) (kind : JoinKind)
    {q : QualifiedName} {i : Nat} (hPos : q.position colsA colsB = some i) :
    ∃ (A B : Table) (r : QueryResult), A.columns = colsA ∧ B.columns = colsB ∧
      A.FullWidth ∧ B.FullWidth ∧
      selectJoined (joinEnv dbName dbB (otherName tblB) tblB A B) dbName
          (.mk (.table [⟨otherName tblB, none⟩] []) [.mk (.table nameB []) (joinOf kind always)])
          [.unnamedExpr (.compoundIdentifier [⟨as.of q.side, none⟩, ⟨q.column, none⟩])] none
          (.expressions []) none none none = .ok r ∧
      (JoinShown 0 as A B kind always none
          [.unnamedExpr (.compoundIdentifier [⟨as.of q.side, none⟩, ⟨q.column, none⟩])] r →
        foundAt (mergedCols tblB colsA colsB) as q = some i) := by
  have hWidth : i < colsA.length + colsB.length := by
    obtain ⟨side, c⟩ := q
    cases side with
    | first =>
      have hLt := (List.findIdx?_eq_some_iff_getElem.1 hPos).1
      omega
    | second =>
      obtain ⟨j, hj, rfl⟩ := Option.map_eq_some_iff.1 hPos
      have hLt := (List.findIdx?_eq_some_iff_getElem.1 hj).1
      omega
  have hLength : (markedRow (colsA.length + colsB.length) i).length = colsA.length + colsB.length := by
    rw [markedRow, List.length_set, List.length_replicate]
  have hSplit := List.take_append_drop colsA.length (markedRow (colsA.length + colsB.length) i)
  generalize hLeft : (markedRow (colsA.length + colsB.length) i).take colsA.length = left at hSplit
  generalize hRight : (markedRow (colsA.length + colsB.length) i).drop colsA.length = right at hSplit
  have hLeftWidth : ∀ row ∈ [left], row.length = colsA.length := by
    intro row hRow
    rw [List.mem_singleton.1 hRow, ← hLeft, List.length_take, hLength]
    omega
  have hRightWidth : ∀ row ∈ [right], row.length = colsB.length := by
    intro row hRow
    rw [List.mem_singleton.1 hRow, ← hRight, List.length_drop, hLength]
    omega
  refine ⟨Table.create "test" "t" colsA [left], Table.create "test" "t" colsB [right],
    .rows [q.column] [[(((foundAt (mergedCols tblB colsA colsB) as q).bind
      fun k => (left ++ right)[k]?).getD .null).toDisplay]],
    rfl, rfl, hLeftWidth, hRightWidth, ?_, ?_⟩
  · rw [selectJoined_two (resolveName_otherName dbName tblB) hB findTable_joinEnv_first
      (findTable_joinEnv_second _)]
    cases kind <;> rfl
  · rintro ⟨names, lines, shown, hRun, hShown, hPerm⟩
    obtain ⟨-, rfl⟩ := QueryResult.rows.inj hRun
    have hRows : relationRows 0 as (Table.create "test" "t" colsA [left])
        (Table.create "test" "t" colsB [right]) kind always none = [left ++ right] := by
      cases kind <;> rfl
    rw [hRows] at hShown
    obtain ⟨line, rest, hLine, hRest, rfl⟩ := List.forall₂_cons_left_iff.1 hShown
    obtain rfl := List.forall₂_nil_left_iff.1 hRest
    have hSame := List.singleton_perm_singleton.1 hPerm
    have hShows : evalOutputs 0 (relationCols as colsA colsB)
        ([.unnamedExpr (.compoundIdentifier [⟨as.of q.side, none⟩, ⟨q.column, none⟩])].map
          (outputItem fun _ => [])) (left ++ right) =
        .ok [(((foundAt (relationCols as colsA colsB) as q).bind
          fun k => (left ++ right)[k]?).getD .null).toDisplay] := rfl
    have hCell := Except.ok.inj (hShows.symm.trans hLine)
    rw [← hSame, foundAt_relationCols hPos, hSplit] at hCell
    have hMark : (((some i).bind
        fun k => (markedRow (colsA.length + colsB.length) i)[k]?).getD .null).toDisplay ≠ none := by
      rw [Option.bind_some, markedRow, List.getElem?_set_self (by rwa [List.length_replicate])]
      nofun
    have hSeen : (((foundAt (mergedCols tblB colsA colsB) as q).bind
        fun k => (markedRow (colsA.length + colsB.length) i)[k]?).getD .null).toDisplay ≠ none := by
      rwa [← List.singleton_inj.1 hCell]
    exact markedRow_shows hSeen

end Wrong

-- ---------------------------------------------------------------------------
-- Joins under aliases
-- ---------------------------------------------------------------------------

/-- **Joins.** Whatever the rows, the condition, the WHERE and the projection, as
long as they name columns from `names`, a join of two tables has the rows of the
relational definition: exactly when it is an INNER or a LEFT JOIN and each of the
names is found where its column is. -/
theorem joins_iff (as : Aliases) {dbName dbB tblB : Str} {nameB : ObjectName}
    (hB : resolveName dbName (ObjectName.toString nameB) = (dbB, tblB)) (colsA colsB : List Column)
    (kind : JoinKind) (names : List QualifiedName)
    (hThere : ∀ q ∈ names, (q.position colsA colsB).isSome) :
    (∀ env nameA dbA tblA A B restA restB op on_ w projection r,
      resolveName dbName (ObjectName.toString nameA) = (dbA, tblA) →
      findTable env.databases dbA tblA [] [] = .ok A →
      findTable env.databases dbB tblB [] [] = .ok B →
      A.columns = colsA → B.columns = colsB → A.FullWidth → B.FullWidth →
      JoinOperator.joins op = some (kind, on_) → on_.columnsAll (Names as names) →
      (∀ e, w = some e → e.columnsAll (Names as names)) → ItemsNamed as names projection →
      selectJoined env dbName (.mk (.table nameA restA) [.mk (.table nameB restB) op]) projection w
        (.expressions []) none none none = .ok r →
      JoinShown env.now as A B kind on_ w projection r) ↔
    kind ≠ .right ∧ NamesFound as names tblB colsA colsB := by
  constructor
  · intro hAll
    have hOne : ItemsNamed as names [.unnamedExpr always] := by
      intro p hp
      obtain rfl := List.mem_singleton.1 hp
      exact ⟨always, rfl, trivial⟩
    constructor
    · rintro rfl
      obtain ⟨A, B, r, hColsA, hColsB, hWidthA, hWidthB, hRun, hNot⟩ :=
        not_joinShown_right as colsA colsB hB
      exact hNot (hAll _ _ _ _ A B _ _ _ never none _ r (resolveName_otherName dbName tblB)
        findTable_joinEnv_first (findTable_joinEnv_second _) hColsA hColsB hWidthA hWidthB rfl trivial
        nofun hOne hRun)
    · intro q hq
      obtain ⟨i, hPos⟩ := Option.isSome_iff_exists.1 (hThere q hq)
      obtain ⟨A, B, r, hColsA, hColsB, hWidthA, hWidthB, hRun, hFound⟩ :=
        foundAt_of_joinShown as colsA colsB hB kind hPos
      have hItem : ItemsNamed as names
          [.unnamedExpr (.compoundIdentifier [⟨as.of q.side, none⟩, ⟨q.column, none⟩])] := by
        intro p hp
        obtain rfl := List.mem_singleton.1 hp
        exact ⟨_, rfl, q, hq, none, none, rfl⟩
      rw [hPos]
      exact hFound (hAll _ _ _ _ A B _ _ _ always none _ r (resolveName_otherName dbName tblB)
        findTable_joinEnv_first (findTable_joinEnv_second _) hColsA hColsB hWidthA hWidthB
        (joins_joinOf kind always) trivial nofun hItem hRun)
  · rintro ⟨hKind, hFound⟩ env nameA dbA tblA A B restA restB op on_ w projection r hA hTableA hTableB
      rfl rfl - - hOp hOn hWhere hItems hRun
    exact joinShown_of_found hA hB hTableA hTableB hThere hFound hKind hOp hOn hWhere hItems hRun

end Joins

-- ---------------------------------------------------------------------------
-- Two tables
-- ---------------------------------------------------------------------------

section TwoTables

local instance joinsPlatform : Platform := tablePlatform []

/-- A table of one column. -/
def oneColumn (name : Str) (rows : List Row) : Table :=
  Table.create "test" "t" [⟨name, .int, true, false⟩] rows

def aliasesXY : Aliases := ⟨"x", "y", ⟨by decide, by decide⟩, by decide⟩

/-- `y.c`. -/
def secondColumn (c : Str) : SelectItem :=
  .unnamedExpr (.compoundIdentifier [⟨"y", none⟩, ⟨c, none⟩])

theorem secondColumn_named (c : Str) : ItemsNamed aliasesXY [⟨.second, c⟩] [secondColumn c] := by
  intro p hp
  obtain rfl := List.mem_singleton.1 hp
  exact ⟨_, rfl, ⟨.second, c⟩, List.mem_singleton_self _, none, none, rfl⟩

theorem fullWidth_oneColumn (name : Str) (v : Value) : (oneColumn name [[v]]).FullWidth := by
  intro row hRow
  obtain rfl := List.mem_singleton.1 hRow
  rfl

/-- `SELECT y.c FROM t AS x JOIN u AS y ON 1`, the tables holding 1 and 2. -/
def joinTU (c : Str) : Rust QueryResult :=
  selectJoined (joinEnv "test" "test" "t" "u" (oneColumn "a" [[.int 1]]) (oneColumn c [[.int 2]]))
    "test" (.mk (.table [⟨"t", none⟩] " AS x") [.mk (.table [⟨"u", none⟩] " AS y") (.join (.on always))])
    [secondColumn c] none (.expressions []) none none none

/-- With `u(b)`. -/
theorem joins_iff_two : JoinShown 0 aliasesXY (oneColumn "a" [[.int 1]]) (oneColumn "b" [[.int 2]])
    .inner always none [secondColumn "b"] (.rows ["b"] [[some "2"]]) := by
  have hB : resolveName "test" (ObjectName.toString [⟨"u", none⟩]) = (("test" : Str), ("u" : Str)) := by
    decide +kernel
  have hRun : joinTU "b" = .ok (.rows ["b"] [[some "2"]]) := by decide +kernel
  refine (joins_iff aliasesXY hB [⟨"a", .int, true, false⟩] [⟨"b", .int, true, false⟩] .inner
    [⟨.second, "b"⟩] (by decide +kernel)).2 ⟨nofun, ?_⟩ (joinEnv "test" "test" "t" "u"
      (oneColumn "a" [[.int 1]]) (oneColumn "b" [[.int 2]])) [⟨"t", none⟩] "test" "t" _ _ _ _ _ always
    none _ _ (by decide +kernel) rfl rfl rfl rfl (fullWidth_oneColumn _ _) (fullWidth_oneColumn _ _)
    rfl trivial nofun (secondColumn_named "b") hRun
  intro q hq
  obtain rfl := List.mem_singleton.1 hq
  decide +kernel

/-- With `u(a)` the column of t comes back. -/
theorem not_joinShown : ¬ ∀ (as : Aliases) env dbName nameA dbA tblA nameB dbB tblB A B names kind
    restA restB op on_ w projection r,
    resolveName dbName (ObjectName.toString nameA) = (dbA, tblA) →
    resolveName dbName (ObjectName.toString nameB) = (dbB, tblB) →
    findTable env.databases dbA tblA [] [] = .ok A →
    findTable env.databases dbB tblB [] [] = .ok B →
    A.FullWidth → B.FullWidth →
    (∀ q ∈ names, (q.position A.columns B.columns).isSome) →
    JoinOperator.joins op = some (kind, on_) → on_.columnsAll (Names as names) →
    (∀ e, w = some e → e.columnsAll (Names as names)) → ItemsNamed as names projection →
    selectJoined env dbName (.mk (.table nameA restA) [.mk (.table nameB restB) op]) projection w
      (.expressions []) none none none = .ok r →
    JoinShown env.now as A B kind on_ w projection r := by
  intro hAll
  have hRun : joinTU "a" = .ok (.rows ["a"] [[some "1"]]) := by decide +kernel
  obtain ⟨names, lines, shown, hRows, hShown, hPerm⟩ := hAll aliasesXY
    (joinEnv "test" "test" "t" "u" (oneColumn "a" [[.int 1]]) (oneColumn "a" [[.int 2]])) "test"
    [⟨"t", none⟩] "test" "t" [⟨"u", none⟩] "test" "u" _ _ [⟨.second, "a"⟩] .inner _ _ _ always none _ _
    (by decide +kernel) (by decide +kernel) rfl rfl (fullWidth_oneColumn _ _)
    (fullWidth_oneColumn _ _) (by decide +kernel) rfl trivial nofun (secondColumn_named "a") hRun
  obtain ⟨-, rfl⟩ := QueryResult.rows.inj hRows
  obtain ⟨line, rest, hLine, hRest, rfl⟩ := List.forall₂_cons_left_iff.1 hShown
  obtain rfl := List.forall₂_nil_left_iff.1 hRest
  have hTwo : evalOutputs 0 (relationCols aliasesXY [⟨"a", .int, true, false⟩]
      [⟨"a", .int, true, false⟩]) ([secondColumn "a"].map (outputItem fun _ => []))
      [.int 1, .int 2] = .ok [some "2"] := by
    decide +kernel
  obtain rfl := Except.ok.inj (hTwo.symm.trans hLine)
  have hSame := List.singleton_perm_singleton.1 hPerm
  revert hSame
  decide

end TwoTables

end RunAlexDb
