import RunAlexDb.Lib.Subtables
import RunAlexDb.Query.TableQueries
import RunAlexDb.Query.Windows

/-!
# WindowQueries — a SELECT list with a window function

The windows of a list are run one after the other, each on the lines the one before it
left. A window that looks up no column of an earlier one groups and sorts by what the
items print.

Main result: `select_window`.
-/

set_option linter.unusedSectionVars false

namespace RunAlexDb

open Text Platform Windows

-- ---------------------------------------------------------------------------
-- The query
-- ---------------------------------------------------------------------------

/-- A window function. -/
inductive WindowFn
  | rowNumber | rank | denseRank | count
  | sum (x : Expr)

namespace WindowFn

def name : WindowFn → Str
  | .rowNumber => "ROW_NUMBER"
  | .rank => "RANK"
  | .denseRank => "DENSE_RANK"
  | .count => "COUNT"
  | .sum _ => "SUM"

def args : WindowFn → List FunctionArg
  | .count => [.unnamed .wildcard]
  | .sum x => [.unnamed (.expr x)]
  | _ => []

end WindowFn

/-- `SELECT before.., call(..) OVER (PARTITION BY .. ORDER BY ..) [AS label], after.. FROM ..`. -/
structure WindowQuery where
  before : List SelectItem
  after : List SelectItem
  label : Option Ident
  call : ObjectName
  fn : WindowFn
  partitionBy : List Expr
  orderBy : List OrderByExpr

namespace WindowQuery

section Queries

variable [Platform] (q : WindowQuery)

def function : Function :=
  .mk q.call (.list (.mk none q.fn.args [])) (some (.windowSpec q.partitionBy q.orderBy))

def item : SelectItem :=
  match q.label with
  | none => .unnamedExpr (.function q.function)
  | some a => .exprWithAlias (.function q.function) a

def projection : List SelectItem := q.before ++ q.item :: q.after

def query (name : ObjectName) (w : Option Expr) : Query :=
  tableQuery name none q.projection w (.expressions []) none none none none

/-- The items, evaluated on each row. -/
def outputs (cols : List Column) : List (Str × Expr) :=
  projectionOutputs cols Column.name exprToString q.projection

def names (cols : List Column) : List Str := (q.outputs cols).map Prod.fst

/-- The window, as the engine reads it. -/
def winItem : WinItem where
  colIdx := q.before.length
  fname := q.fn.name
  partitionBy := q.partitionBy.map exprToString
  orderBy := q.orderBy.map fun oe => (exprToString oe.expr, oe.asc)

/-- What the clauses look up among the names of the items. -/
def lookups : List Str := q.winItem.partitionBy ++ q.winItem.orderBy.map Prod.fst

/-- No name looked up is that of an earlier window. -/
def Separate (cols : List Column) : Prop :=
  ∀ wi ∈ winItems (q.outputs cols), wi.colIdx < q.before.length → ∀ s ∈ q.lookups,
    ((q.names cols).findIdx? fun n => eqIgnoreAsciiCase n s) ≠ some wi.colIdx

/-- What the items print of a row. -/
def lineOf (now : Nat) (cols : List Column) (row : Row) : TextRow :=
  (evalOutputs now cols (q.outputs cols) row).toOption.getD []

/-- The printed cells of PARTITION BY. -/
def printedKey (now : Nat) (cols : List Column) (row : Row) : Str :=
  q.winItem.key (q.names cols) (q.lineOf now cols row)

/-- The printed cells of ORDER BY let the row stand before the other. -/
def PrintedBefore (now : Nat) (cols : List Column) (a b : Row) : Prop :=
  q.winItem.cmp (q.names cols) (q.lineOf now cols a) (q.lineOf now cols b) ≠ .gt

instance (now : Nat) (cols : List Column) : DecidableRel (q.PrintedBefore now cols) :=
  fun _ _ => inferInstanceAs (Decidable (_ ≠ _))

/-- What the window writes into row `i`. -/
def given (now : Nat) (cols : List Column) (rows : List Row) (i : Nat) : Str :=
  match q.fn with
  | .count => natToString (peersOf (q.printedKey now cols) rows i).length
  | .sum _ => sumText []
  | _ => natToString (placeOf (q.printedKey now cols) (q.PrintedBefore now cols) rows i)

end Queries

-- ---------------------------------------------------------------------------
-- Items evaluated
-- ---------------------------------------------------------------------------

/-- A loop that fails on no element. -/
theorem mapM_eq_ok {ε α β : Type} {f : α → Except ε β} {l : List α} (d : β)
    (h : ∀ a ∈ l, (f a).isOk) : l.mapM f = .ok (l.map fun a => (f a).toOption.getD d) := by
  induction l with
  | nil => rfl
  | cons a l ih =>
    have hHead := h a (List.mem_cons_self ..)
    rw [List.mapM_cons, ih fun b hb => h b (List.mem_cons_of_mem _ hb)]
    cases hValue : f a with
    | error e =>
      rw [hValue] at hHead
      cases hHead
    | ok b =>
      rw [List.map_cons, hValue]
      rfl

section Items

variable [Platform]

/-- Called like a function, a window function has no value. -/
theorem callFunction_window (fn : WindowFn) (now : Nat) (args : List Value) :
    callFunction now fn.name args = .ok .null := by
  cases fn <;> rfl

variable {q : WindowQuery} {now : Nat} {cols : List Column}
  (hCall : toUppercase (ObjectName.toString q.call) = q.fn.name)

include hCall

/-- The window is printed as NULL before it is run. -/
theorem evalRowExpr_function {row : Row} {v : Value}
    (h : evalRowExpr now row cols (.function q.function) = .ok v) : v = .null := by
  have hShape : evalRowExpr now row cols (.function q.function) =
      (evalArgs now row cols q.fn.args).bind fun args => callFunction now q.fn.name args := by
    show evalFunction now row cols (.mk q.call (.list (.mk none q.fn.args [])) _) = _
    unfold evalFunction
    rw [hCall]
    cases q.fn <;> rfl
  rw [hShape] at h
  obtain ⟨args, -, hValue⟩ := ok_of_bind h
  rw [callFunction_window] at hValue
  exact (Except.ok.inj hValue).symm

end Items

-- ---------------------------------------------------------------------------
-- Windows side by side
-- ---------------------------------------------------------------------------

section Lines

variable [Platform]

/-- The same lines but for columns in which `P` fails. -/
structure AgreeOn (P : Nat → Prop) (a b : List TextRow) : Prop where
  lines : a.length = b.length
  widths : ∀ i, (rowAt a i).length = (rowAt b i).length
  cells : ∀ i c, P c → (rowAt a i)[c]? = (rowAt b i)[c]?

theorem AgreeOn.refl (P : Nat → Prop) (a : List TextRow) : AgreeOn P a a :=
  ⟨rfl, fun _ => rfl, fun _ _ _ => rfl⟩

theorem AgreeOn.trans {P : Nat → Prop} {a b c : List TextRow} (h : AgreeOn P a b) (h' : AgreeOn P b c) :
    AgreeOn P a c where
  lines := h.lines.trans h'.lines
  widths i := (h.widths i).trans (h'.widths i)
  cells i k hk := (h.cells i k hk).trans (h'.cells i k hk)

theorem rowAt_eraseColumn (col : Nat) (a : List TextRow) (i : Nat) :
    rowAt (eraseColumn col a) i = (rowAt a i).set col none := by
  unfold rowAt eraseColumn
  rw [List.getD_eq_getElem?_getD, List.getD_eq_getElem?_getD, List.getElem?_map]
  cases a[i]? with
  | none => rfl
  | some r => rfl

theorem agreeOn_of_eraseColumn {col : Nat} {P : Nat → Prop} {a b : List TextRow} (hCol : ¬P col)
    (h : eraseColumn col a = eraseColumn col b) : AgreeOn P a b := by
  have hRow : ∀ i, (rowAt a i).set col none = (rowAt b i).set col none := by
    intro i
    rw [← rowAt_eraseColumn, h, rowAt_eraseColumn]
  refine ⟨?_, fun i => ?_, fun i c hc => ?_⟩
  · have hLength := congrArg List.length h
    rwa [eraseColumn, eraseColumn, List.length_map, List.length_map] at hLength
  · have hLength := congrArg List.length (hRow i)
    rwa [List.length_set, List.length_set] at hLength
  · have hNe : col ≠ c := by
      rintro rfl
      exact hCol hc
    have hCell := congrArg (fun r => r[c]?) (hRow i)
    rwa [List.getElem?_set_ne hNe, List.getElem?_set_ne hNe] at hCell

/-- Windows with other columns keep a column. -/
theorem agreeOn_windows {P : Nat → Prop} {names : List Str} {ws : List WinItem}
    (h : ∀ wi ∈ ws, ¬P wi.colIdx) (lines : List TextRow) :
    AgreeOn P (ws.foldl (applyWindow names) lines) lines := by
  induction ws generalizing lines with
  | nil => exact AgreeOn.refl P lines
  | cons wi ws ih =>
    rw [List.foldl_cons]
    refine (ih (fun wi' hwi => h wi' (List.mem_cons_of_mem _ hwi)) _).trans ?_
    exact agreeOn_of_eraseColumn (h wi (List.mem_cons_self ..)) (eraseColumn_applyWindow names lines wi)

-- ---------------------------------------------------------------------------
-- One window
-- ---------------------------------------------------------------------------

/-- What a window looks up in two lines. -/
theorem outputCell_congr {names : List Str} {a b : TextRow} {s : Str}
    (h : ∀ p, (names.findIdx? fun n => eqIgnoreAsciiCase n s) = some p → a[p]? = b[p]?) :
    outputCell names a s = outputCell names b s := by
  unfold outputCell
  cases hFind : names.findIdx? fun n => eqIgnoreAsciiCase n s with
  | none => rfl
  | some p => rw [Option.bind_some, Option.bind_some, h p hFind]

theorem key_congr {names : List Str} {wi : WinItem} {a b : TextRow}
    (h : ∀ s ∈ wi.partitionBy, outputCell names a s = outputCell names b s) :
    wi.key names a = wi.key names b := by
  unfold WinItem.key
  rw [List.map_congr_left h]

theorem cmp_congr {names : List Str} {wi : WinItem} {a a' b b' : TextRow}
    (ha : ∀ o ∈ wi.orderBy, outputCell names a o.1 = outputCell names a' o.1)
    (hb : ∀ o ∈ wi.orderBy, outputCell names b o.1 = outputCell names b' o.1) :
    wi.cmp names a b = wi.cmp names a' b' := by
  unfold WinItem.cmp
  rw [List.map_congr_left fun o ho => ?_]
  rw [ha o ho, hb o ho]

variable {names : List Str} {wi : WinItem} {lines : List TextRow} {i : Nat}

/-- Where the window writes, the cell is what it writes. -/
theorem cell_of_set {written : List TextRow} {s : Str} (hi : i < lines.length)
    (hWidth : wi.colIdx < (rowAt lines i).length)
    (h : written[i]? = (lines[i]?).map fun r => r.set wi.colIdx (some s)) :
    (rowAt written i)[wi.colIdx]?.join = some s := by
  have hRow : rowAt written i = (rowAt lines i).set wi.colIdx (some s) := by
    rw [rowAt_eq hi]
    unfold rowAt
    rw [List.getD_eq_getElem?_getD, h, List.getElem?_eq_getElem hi]
    rfl
  rw [hRow, List.getElem?_set_self hWidth]
  rfl

theorem applyWindow_places (h : wi.fname = "ROW_NUMBER" ∨ wi.fname = "RANK" ∨ wi.fname = "DENSE_RANK") :
    applyWindow names lines wi = (partitions names wi lines).foldl (setPlaces wi.colIdx) lines := by
  unfold applyWindow
  rcases h with h | h | h
  all_goals
    rw [h]
    rfl

theorem applyWindow_count (h : wi.fname = "COUNT") : applyWindow names lines wi =
    (partitions names wi lines).foldl (setPartition wi.colIdx fun old => natToString old.length)
      lines := by
  unfold applyWindow
  rw [h]
  rfl

theorem applyWindow_sum (h : wi.fname = "SUM") : applyWindow names lines wi =
    (partitions names wi lines).foldl (setPartition wi.colIdx sumText) lines := by
  unfold applyWindow
  rw [h]
  rfl

end Lines

-- ---------------------------------------------------------------------------
-- What is written
-- ---------------------------------------------------------------------------

section Written

variable [Platform] {q : WindowQuery} {now : Nat} {cols : List Column} {rows : List Row}
  {left : List TextRow} (hLength : left.length = rows.length)
  (hCells : ∀ k < rows.length, ∀ s ∈ q.lookups, outputCell (q.names cols) (rowAt left k) s =
    outputCell (q.names cols) (q.lineOf now cols (rowAt rows k)) s)

include hCells in
theorem keyAt_eq {k : Nat} (hk : k < rows.length) :
    q.winItem.keyAt (q.names cols) left k = q.printedKey now cols (rowAt rows k) :=
  key_congr fun s hs => hCells k hk s (List.mem_append_left _ hs)

include hCells in
theorem before_iff {a b : Nat} (ha : a < rows.length) (hb : b < rows.length) :
    q.winItem.Before (q.names cols) left a b ↔
      q.PrintedBefore now cols (rowAt rows a) (rowAt rows b) := by
  have hCmp : q.winItem.cmp (q.names cols) (rowAt left a) (rowAt left b) =
      q.winItem.cmp (q.names cols) (q.lineOf now cols (rowAt rows a))
        (q.lineOf now cols (rowAt rows b)) :=
    cmp_congr (fun o ho => hCells a ha o.1 (List.mem_append_right _ (List.mem_map_of_mem ho)))
      fun o ho => hCells b hb o.1 (List.mem_append_right _ (List.mem_map_of_mem ho))
  exact not_congr (by rw [← hCmp]; rfl)

include hLength hCells

theorem place_eq {i : Nat} (hi : i < rows.length) :
    (q.winItem.group (q.names cols) left i).idxOf i + 1 =
      placeOf (q.printedKey now cols) (q.PrintedBefore now cols) rows i := by
  show place left.length (q.winItem.keyAt (q.names cols) left)
    (q.winItem.Before (q.names cols) left) i = _
  rw [hLength]
  exact place_congr (fun k hk => keyAt_eq hCells hk) (fun a ha b hb => before_iff hCells ha hb) hi

theorem length_group_eq {i : Nat} (hi : i < rows.length) :
    (q.winItem.group (q.names cols) left i).length =
      (peersOf (q.printedKey now cols) rows i).length := by
  have hPeers : peers left.length (q.winItem.keyAt (q.names cols) left) i =
      peersOf (q.printedKey now cols) rows i := by
    rw [hLength]
    exact peers_congr (fun k hk => keyAt_eq hCells hk) hi
  rw [← hPeers]
  exact group_perm.length_eq

/-- **One window** writes by the printed cells of the rows. -/
theorem cell_applyWindow (hNull : ∀ k < rows.length, (rowAt left k)[q.before.length]? = some none)
    {i : Nat} (hi : i < rows.length) :
    (rowAt (applyWindow (q.names cols) left q.winItem) i)[q.before.length]?.join =
      some (q.given now cols rows i) := by
  have hiLeft : i < left.length := hLength ▸ hi
  have hWidth : q.winItem.colIdx < (rowAt left i).length := (List.getElem?_eq_some_iff.1 (hNull i hi)).1
  have hPlaces : q.winItem.fname = "ROW_NUMBER" ∨ q.winItem.fname = "RANK" ∨
      q.winItem.fname = "DENSE_RANK" →
      (rowAt (applyWindow (q.names cols) left q.winItem) i)[q.before.length]?.join =
        some (natToString (placeOf (q.printedKey now cols) (q.PrintedBefore now cols) rows i)) := by
    intro hName
    refine cell_of_set hiLeft hWidth ?_
    rw [applyWindow_places hName, getElem?_foldl_setPlaces hiLeft, place_eq hLength hCells hi]
  unfold given
  cases hFn : q.fn with
  | rowNumber => exact hPlaces (.inl (congrArg WindowFn.name hFn))
  | rank => exact hPlaces (.inr (.inl (congrArg WindowFn.name hFn)))
  | denseRank => exact hPlaces (.inr (.inr (congrArg WindowFn.name hFn)))
  | count =>
    refine cell_of_set hiLeft hWidth ?_
    rw [applyWindow_count (congrArg WindowFn.name hFn), getElem?_foldl_setPartition _ hiLeft]
    unfold oldCells
    rw [List.length_map, length_group_eq hLength hCells hi]
  | sum x =>
    refine cell_of_set hiLeft hWidth ?_
    rw [applyWindow_sum (congrArg WindowFn.name hFn), getElem?_foldl_setPartition _ hiLeft]
    -- there is no number among the cells the column had
    have hOld : (oldCells q.winItem.colIdx left (q.winItem.group (q.names cols) left i)).filterMap
        (fun v => v.bind f64Parse) = [] := by
      refine List.filterMap_eq_nil_iff.2 fun cell hCell => ?_
      obtain ⟨k, hk, rfl⟩ := List.mem_map.1 hCell
      have hkLt : k < rows.length := hLength ▸ (mem_group.1 hk).1
      have hNone : (left.getD k [])[q.winItem.colIdx]?.join = none := congrArg Option.join (hNull k hkLt)
      rw [hNone]
      rfl
    unfold sumText
    rw [hOld]
    rfl

end Written

-- ---------------------------------------------------------------------------
-- The list
-- ---------------------------------------------------------------------------

section Select

variable [Platform] {q : WindowQuery} {now : Nat} {cols : List Column}

theorem item_mem : q.item ∈ q.projection := List.mem_append_right _ (List.mem_cons_self ..)

theorem isPlainCol_item : isPlainCol q.item = false := by
  unfold item
  cases q.label <;> rfl

theorem isWildcard_item : q.item.isWildcard = false := by
  unfold item
  cases q.label <;> rfl

theorem outputItem_item : (outputItem exprToString q.item).2 = .function q.function := by
  unfold item
  cases q.label <;> rfl

theorem outputs_eq (hPlain : q.projection.any SelectItem.isWildcard = false) :
    q.outputs cols = q.before.map (outputItem exprToString) ++
      outputItem exprToString q.item :: q.after.map (outputItem exprToString) := by
  unfold outputs projectionOutputs
  rw [if_neg (by simp [hPlain])]
  exact List.map_append.trans (congrArg _ List.map_cons)

/-- What the items print, item by item. -/
theorem forall₂_lineOf {row : Row} (hEval : (evalOutputs now cols (q.outputs cols) row).isOk) :
    List.Forall₂ (fun o cell => (evalRowExpr now row cols o.2).map Value.toDisplay = .ok cell)
      (q.outputs cols) (q.lineOf now cols row) := by
  unfold lineOf
  cases hLine : evalOutputs now cols (q.outputs cols) row with
  | error fault =>
    rw [hLine] at hEval
    cases hEval
  | ok line => exact forall₂_of_mapM hLine

/-- The window prints nothing in its own column. -/
theorem lineOf_item (hCall : toUppercase (ObjectName.toString q.call) = q.fn.name)
    (hPlain : q.projection.any SelectItem.isWildcard = false) {row : Row}
    (hEval : (evalOutputs now cols (q.outputs cols) row).isOk) :
    (q.lineOf now cols row)[q.before.length]? = some none := by
  have hEach := forall₂_lineOf hEval
  have hItem : (q.outputs cols)[q.before.length]? = some (outputItem exprToString q.item) := by
    rw [outputs_eq hPlain, List.getElem?_append_right (by rw [List.length_map]), List.length_map,
      Nat.sub_self]
    rfl
  obtain ⟨hi, hAt⟩ := List.getElem?_eq_some_iff.1 hItem
  have hi' : q.before.length < (q.lineOf now cols row).length := hEach.length_eq ▸ hi
  have hCell := hEach.get hi hi'
  simp only [List.get_eq_getElem, hAt, outputItem_item] at hCell
  cases hValue : evalRowExpr now row cols (.function q.function) with
  | error fault =>
    rw [hValue] at hCell
    cases hCell
  | ok v =>
    rw [hValue, evalRowExpr_function hCall hValue] at hCell
    rw [List.getElem?_eq_getElem hi', ← Except.ok.inj hCell]
    rfl

/-- The window an output consists of. -/
def windowAt (x : (Str × Expr) × Nat) : Option WinItem :=
  match x.1.2 with
  | .function (.mk name _ (some (.windowSpec partitionBy orderBy))) =>
    some {
      colIdx := x.2
      fname := toUppercase (ObjectName.toString name)
      partitionBy := partitionBy.map exprToString
      orderBy := orderBy.map fun oe => (exprToString oe.expr, oe.asc) }
  | _ => none

theorem winItems_eq_filterMap (outs : List (Str × Expr)) :
    winItems outs = outs.zipIdx.filterMap windowAt := rfl

theorem windowAt_colIdx {x : (Str × Expr) × Nat} {wi : WinItem} (h : windowAt x = some wi) :
    wi.colIdx = x.2 := by
  unfold windowAt at h
  split at h
  · obtain rfl := Option.some.inj h
    rfl
  · cases h

theorem windowAt_item (hCall : toUppercase (ObjectName.toString q.call) = q.fn.name) :
    windowAt (outputItem exprToString q.item, q.before.length) = some q.winItem := by
  unfold windowAt winItem
  rw [outputItem_item, ← hCall]
  rfl

theorem colIdx_mem {outs : List (Str × Expr)} {k : Nat} {wi : WinItem}
    (h : wi ∈ (outs.zipIdx k).filterMap windowAt) : k ≤ wi.colIdx ∧ wi.colIdx < k + outs.length := by
  obtain ⟨⟨o, i⟩, hMem, hSome⟩ := List.mem_filterMap.1 h
  have hAt := List.mem_zipIdx hMem
  rw [windowAt_colIdx hSome]
  exact ⟨hAt.1, hAt.2.1⟩

/-- The windows of the list: earlier ones, this one, later ones. -/
theorem winItems_split (cols : List Column)
    (hCall : toUppercase (ObjectName.toString q.call) = q.fn.name)
    (hPlain : q.projection.any SelectItem.isWildcard = false) :
    ∃ earlier later, winItems (q.outputs cols) = earlier ++ q.winItem :: later ∧
      (∀ wi ∈ earlier, wi.colIdx < q.before.length) ∧ ∀ wi ∈ later, wi.colIdx ≠ q.before.length := by
  have hItem : windowAt (outputItem exprToString q.item,
      0 + (q.before.map (outputItem exprToString)).length) = some q.winItem := by
    rw [Nat.zero_add, List.length_map]
    exact windowAt_item hCall
  rw [winItems_eq_filterMap, outputs_eq hPlain, List.zipIdx_append, List.filterMap_append,
    List.zipIdx_cons, List.filterMap_cons_some hItem]
  refine ⟨_, _, rfl, fun wi hwi => ?_, fun wi hwi => ?_⟩
  · have hLt := (colIdx_mem hwi).2
    rwa [List.length_map, Nat.zero_add] at hLt
  · have hLe := (colIdx_mem hwi).1
    rw [List.length_map] at hLe
    omega

variable {env : QueryEnv} {dbName db table : Str} {name : ObjectName} {t : Table} {w : Option Expr}
  {kept : List Row} (hTarget : resolveName dbName (ObjectName.toString name) = (db, table))
  (hTable : findTable env.databases db table [] [] = .ok t) (hKept : rowsWhere env db t w = .ok kept)

include hTarget hTable hKept

/-- All items are evaluated, and the windows run on what they print. -/
theorem select_query (hOnly : isAggregateOnly q.projection (.expressions []) = false) :
    select env dbName (q.query name w) =
      (kept.mapM (evalOutputs env.now t.columns (q.outputs t.columns))).map fun lines =>
        .rows (q.names t.columns)
          ((winItems (q.outputs t.columns)).foldl (applyWindow (q.names t.columns)) lines) := by
  have hItems : q.projection.all isPlainCol = false :=
    List.all_eq_false.2 ⟨q.item, item_mem, by simp [isPlainCol_item]⟩
  obtain ⟨w', hWhere, hFilter⟩ := ok_of_bind hKept
  rw [query, select_tableQuery hTarget hTable, hWhere]
  show selectTable env.now t none q.projection w' (.expressions []) none none none none = _
  rw [selectTable_exprs _ _ _ _ _ _ hOnly rfl hItems, selectExprs_eq]
  unfold evaluatedRows
  rw [hFilter]
  show Except.map _ ((kept.mapM (evalOutputs env.now t.columns (q.outputs t.columns))).bind _) = _
  cases kept.mapM (evalOutputs env.now t.columns (q.outputs t.columns)) <;> rfl

variable (hOnly : isAggregateOnly q.projection (.expressions []) = false)
  (hCall : toUppercase (ObjectName.toString q.call) = q.fn.name)
  (hPlain : q.projection.any SelectItem.isWildcard = false) (hSeparate : q.Separate t.columns)
  (hEval : ∀ row ∈ kept, (evalOutputs env.now t.columns (q.outputs t.columns) row).isOk)

include hOnly hCall hPlain hSeparate hEval

/-- **The query.** Each row kept has a line, and there the window has written by the
printed cells of the rows. -/
theorem select_window : ∃ lines,
    select env dbName (q.query name w) = .ok (.rows (q.names t.columns) lines) ∧
      lines.length = kept.length ∧ (∀ line ∈ lines, line.length = q.projection.length) ∧
      ∀ i < kept.length,
        (rowAt lines i)[q.before.length]?.join = some (q.given env.now t.columns kept i) := by
  obtain ⟨earlier, later, hItems, hEarlier, hLater⟩ := winItems_split t.columns hCall hPlain
  have hLines : kept.mapM (evalOutputs env.now t.columns (q.outputs t.columns)) =
      .ok (kept.map (q.lineOf env.now t.columns)) := mapM_eq_ok [] hEval
  -- what the earlier windows leave, what this one makes of it, what the later ones do
  generalize hLeft : earlier.foldl (applyWindow (q.names t.columns))
    (kept.map (q.lineOf env.now t.columns)) = left
  generalize hWritten : applyWindow (q.names t.columns) left q.winItem = written
  have hKeep : AgreeOn (fun c => ∀ wi ∈ earlier, wi.colIdx ≠ c) left
      (kept.map (q.lineOf env.now t.columns)) := by
    rw [← hLeft]
    exact agreeOn_windows (fun wi hwi hNot => hNot wi hwi rfl) _
  have hOwn : AgreeOn (fun c => c ≠ q.before.length) written left := by
    rw [← hWritten]
    exact agreeOn_of_eraseColumn (fun hNot => hNot rfl) (eraseColumn_applyWindow _ left q.winItem)
  have hRest : AgreeOn (fun c => c = q.before.length)
      (later.foldl (applyWindow (q.names t.columns)) written) written := agreeOn_windows hLater _
  have hRun : select env dbName (q.query name w) =
      .ok (.rows (q.names t.columns) (later.foldl (applyWindow (q.names t.columns)) written)) := by
    rw [select_query hTarget hTable hKept hOnly, hLines, hItems, ← hWritten, ← hLeft, ← List.foldl_cons,
      ← List.foldl_append]
    rfl
  have hLength : left.length = kept.length := hKeep.lines.trans (List.length_map ..)
  have hLine : ∀ k < kept.length, rowAt (kept.map (q.lineOf env.now t.columns)) k =
      q.lineOf env.now t.columns (rowAt kept k) := fun k hk => rowAt_map hk
  have hCells : ∀ k < kept.length, ∀ s ∈ q.lookups, outputCell (q.names t.columns) (rowAt left k) s =
      outputCell (q.names t.columns) (q.lineOf env.now t.columns (rowAt kept k)) s := by
    intro k hk s hs
    rw [← hLine k hk]
    refine outputCell_congr fun p hp => hKeep.cells k p fun wi hwi hSame => ?_
    have hMem : wi ∈ winItems (q.outputs t.columns) := by
      rw [hItems]
      exact List.mem_append_left _ hwi
    exact hSeparate wi hMem (hEarlier wi hwi) s hs (hSame ▸ hp)
  have hNull : ∀ k < kept.length, (rowAt left k)[q.before.length]? = some none := by
    intro k hk
    rw [hKeep.cells k _ fun wi hwi => Nat.ne_of_lt (hEarlier wi hwi), hLine k hk]
    exact lineOf_item hCall hPlain (hEval _ (rowAt_mem hk))
  have hFinal : (later.foldl (applyWindow (q.names t.columns)) written).length = kept.length :=
    hRest.lines.trans (hOwn.lines.trans hLength)
  refine ⟨_, hRun, hFinal, fun line hLineMem => ?_, fun i hi => ?_⟩
  · obtain ⟨i, hi, rfl⟩ := exists_rowAt_of_mem hLineMem
    have hi' : i < kept.length := hFinal ▸ hi
    rw [hRest.widths, hOwn.widths, hKeep.widths, hLine i hi',
      ← (forall₂_lineOf (hEval _ (rowAt_mem hi'))).length_eq, outputs_eq hPlain]
    simp [projection]
  · rw [hRest.cells i _ rfl, ← hWritten]
    exact cell_applyWindow hLength hCells hNull hi

end Select

end WindowQuery

end RunAlexDb
