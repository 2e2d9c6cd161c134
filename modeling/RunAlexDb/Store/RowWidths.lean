import RunAlexDb.Model.Concrete
import RunAlexDb.Store.ActionSteps
import RunAlexDb.Store.TableRuns

/-!
# RowWidths — rows as wide as their table

UPDATE indexes a row by the position of a column. That is in bounds as long as
the row has a cell for every column, which holds as long as rows come in at
that width: INSERT with a column list brings them to it, INSERT without one and
a prepared INSERT push what they are given, CREATE TABLE AS SELECT what its
query gives.

Main result: `rowWidths_run`.
-/

set_option linter.unusedSectionVars false

namespace RunAlexDb

open Text Platform

section RowWidths

variable [Platform]

/-- Every row has a cell for every column and no more. -/
def Table.FullWidth (t : Table) : Prop := ∀ r ∈ t.rows, r.length = t.columns.length

/-- The rows an action brings in have the width of the table, where nothing
brings them to it. -/
def widthsFit (t : Table) : TableAction → Prop
  | .insert _ names rows =>
    (names.isEmpty || t.columns.isEmpty) = true → ∀ src ∈ rows, src.length = t.columns.length
  | .insertPrepared rows => ∀ r ∈ rows, r.length = t.columns.length
  | _ => True

-- ---------------------------------------------------------------------------
-- Rows coming in
-- ---------------------------------------------------------------------------

theorem length_mapRow (names : List Str) (src : Row) (cols : List Column) (auto : Int64) :
    (mapRow names src cols auto).1.length = cols.length := by
  induction cols generalizing auto with
  | nil => rfl
  | cons c cols ih =>
    rw [mapRow]
    cases names.findIdx? fun n => eqIgnoreAsciiCase n c.name with
    | some si => exact congrArg (· + 1) (ih auto)
    | none =>
      by_cases hKey : c.primaryKey = true
      · simp only [hKey, if_true]
        exact congrArg (· + 1) (ih (auto + 1))
      · simp only [hKey]
        exact congrArg (· + 1) (ih auto)

theorem length_sourceRow {t : Table} {names : List Str} {src : Row}
    (h : (names.isEmpty || t.columns.isEmpty) = true → src.length = t.columns.length) :
    (t.sourceRow names src).1.length = t.columns.length := by
  rw [Table.sourceRow]
  split
  · rename_i hWhole
    exact h hWhole
  · exact length_mapRow _ _ _ _

@[simp] theorem columns_advanceAuto (t : Table) (row : Row) :
    (t.advanceAuto row).columns = t.columns := by
  rw [Table.advanceAuto]
  split
  · split <;> rfl
  · rfl

@[simp] theorem rows_advanceAuto (t : Table) (row : Row) : (t.advanceAuto row).rows = t.rows := by
  rw [Table.advanceAuto]
  split
  · split <;> rfl
  · rfl

theorem fullWidth_push {t : Table} (h : t.FullWidth) {row : Row}
    (hRow : row.length = t.columns.length) : (t.push row).FullWidth := by
  intro r hr
  rcases List.mem_append.1 hr with hOld | hNew
  · exact h r hOld
  · rw [List.mem_singleton.1 hNew]
    exact hRow

theorem fullWidth_insertStep {replaceInto : Bool} {names : List Str} {t : Table} {src : Row}
    (h : t.FullWidth)
    (hSrc : (names.isEmpty || t.columns.isEmpty) = true → src.length = t.columns.length) :
    (insertStep replaceInto names t src).FullWidth ∧
      (insertStep replaceInto names t src).columns = t.columns := by
  have hRow := length_sourceRow hSrc
  have hPush : ∀ t' : Table, t'.FullWidth → t'.columns = t.columns →
      ((t'.advanceAuto (t.sourceRow names src).1).push (t.sourceRow names src).1).FullWidth := by
    intro t' hWidth hCols
    refine fullWidth_push (fun r hr => ?_) ?_
    · rw [rows_advanceAuto] at hr
      rw [columns_advanceAuto]
      exact hWidth r hr
    · rw [columns_advanceAuto, hCols]
      exact hRow
  rw [insertStep_eq]
  simp only
  split
  · exact ⟨hPush _ h rfl, columns_advanceAuto _ _⟩
  · rename_i p i _
    split
    · refine ⟨hPush _ (fun r hr => ?_) rfl, columns_advanceAuto _ _⟩
      exact h r (List.mem_of_mem_eraseIdx hr)
    · exact ⟨h, rfl⟩

-- ---------------------------------------------------------------------------
-- Rows changing
-- ---------------------------------------------------------------------------

/-- Two rows of one width. -/
def SameWidth (r r' : Row) : Prop := r'.length = r.length

instance : Std.Refl SameWidth := ⟨fun _ => rfl⟩

instance : IsTrans Row SameWidth := ⟨fun _ _ _ h h' => h'.trans h⟩

theorem sameWidth_assignRow (cols : List Column) (value : Row → Expr → Rust Value)
    (asgn : Assignment) : Prog.Moves SameWidth (assignRow cols value asgn) := by
  rw [assignRow]
  split
  · exact Prog.Moves.pure _
  · refine Prog.Moves.bind Prog.Moves.get fun row => Prog.Moves.bind (Prog.Moves.ofExcept _) fun v => ?_
    intro r
    rw [assignCell, Prog.exec_get_bind]
    split
    · exact List.length_set
    · rfl

theorem length_updateRow (cols : List Column) (cond : Row → Rust Bool)
    (value : Row → Expr → Rust Value) (assignments : List Assignment) (r : Row) :
    ((updateRow cols cond value assignments).exec r).2.length = r.length := by
  have hMoves : Prog.Moves SameWidth (updateRow cols cond value assignments) := by
    refine Prog.Moves.bind Prog.Moves.get fun row => Prog.Moves.bind (Prog.Moves.ofExcept _) fun b => ?_
    split
    · refine Prog.Moves.bind (Prog.Moves.forEach fun a _ => sameWidth_assignRow cols value a) fun _ => ?_
      exact Prog.Moves.pure _
    · exact Prog.Moves.pure _
  exact hMoves r

theorem length_scanRow (t : Table) (a : TableAction) (r : Row) :
    ((a.scanRow t).exec r).2.length = r.length := by
  cases a with
  | update now assignments selection => exact length_updateRow _ _ _ _ _
  | updatePrepared now assignments selection bound => exact length_updateRow _ _ _ _ _
  | _ => rfl

/-- Rows exchanged for rows of the same width. -/
theorem fullWidth_rows {t : Table} (h : t.FullWidth) {rows : List Row} {f : Row → Row}
    (hf : ∀ r, (f r).length = r.length)
    (hRows : List.Forall₂ (fun r r' => r' = r ∨ r' = f r) t.rows rows) :
    Table.FullWidth { t with rows := rows } := by
  intro r' hr'
  obtain ⟨r, hr, rfl | rfl⟩ := forall₂_mem hRows r' hr'
  · exact h r' hr
  · exact (hf r).trans (h r hr)

theorem fullWidth_assignAt {ri : Nat} (value : Row → Expr → Rust Value) (asgn : Assignment)
    {t : Table} (hIn : ri < t.rows.length) (h : t.FullWidth) :
    ri < ((assignAt ri value asgn).exec t).2.rows.length ∧
      ((assignAt ri value asgn).exec t).2.FullWidth := by
  have hRow := List.getElem?_eq_getElem hIn
  rw [assignAt_eq value asgn hRow]
  split
  · exact ⟨hIn, h⟩
  · split
    · exact ⟨hIn, h⟩
    · rename_i idx _ _ v _
      have hStores : (t.writeStores ri idx v).FullWidth := by
        intro r hr
        rw [rows_writeStores] at hr
        rw [columns_writeStores]
        exact h r hr
      split
      · refine ⟨by rw [List.length_set]; exact hIn, fun r hr => ?_⟩
        rw [columns_writeStores]
        rcases List.mem_or_eq_of_mem_set hr with hOld | rfl
        · exact h r hOld
        · rw [List.length_set]
          exact h _ (List.getElem_mem hIn)
      · exact ⟨by rw [rows_writeStores]; exact hIn, hStores⟩

theorem mem_swapRemove {α : Type} {l : List α} {i : Nat} {x : α} (h : x ∈ swapRemove l i) : x ∈ l := by
  rw [swapRemove] at h
  split at h
  · exact h
  · rename_i y hLast
    split at h
    · rcases List.mem_or_eq_of_mem_set (List.mem_of_mem_dropLast h) with hOld | rfl
      · exact hOld
      · exact List.mem_of_getLast? hLast
    · exact h

@[simp] theorem columns_deleteKey (t : Table) (p : Nat) (key : Str) :
    (t.deleteKey p key).columns = t.columns := by
  rw [Table.deleteKey]
  split
  · rfl
  · simp only
    split <;> rfl

theorem mem_deleteKey {t : Table} {p : Nat} {key : Str} {r : Row}
    (h : r ∈ (t.deleteKey p key).rows) : r ∈ t.rows := by
  rw [Table.deleteKey] at h
  split at h
  · exact h
  · simp only at h
    split at h
    · exact mem_swapRemove h
    · exact h

theorem fullWidth_alterStep {t : Table} (h : t.FullWidth) (op : AlterTableOperation) :
    (alterStep t op).FullWidth := by
  rw [alterStep]
  cases hAlter : t.alter op with
  | error other => exact h
  | ok t' =>
    cases op with
    | addColumn columnDef =>
      simp only [Table.alter] at hAlter
      split at hAlter
      · cases hAlter
      · obtain rfl := Except.ok.inj hAlter
        intro r' hr'
        obtain ⟨r, hr, rfl⟩ := List.mem_map.1 hr'
        show (r ++ [Value.null]).length = (t.columns ++ _).length
        rw [List.length_append, List.length_append, h r hr]
        rfl
    | dropColumn columnName =>
      simp only [Table.alter] at hAlter
      split at hAlter
      · cases hAlter
      · rename_i i hPos
        split at hAlter
        · cases hAlter
        · obtain rfl := Except.ok.inj hAlter
          intro r' hr'
          obtain ⟨r, hr, rfl⟩ := List.mem_map.1 hr'
          show (r.eraseIdx i).length = (t.columns.eraseIdx i).length
          rw [List.length_eraseIdx, List.length_eraseIdx, h r hr]
    | renameColumn oldColumnName newColumnName =>
      simp only [Table.alter] at hAlter
      split at hAlter
      · cases hAlter
      · obtain rfl := Except.ok.inj hAlter
        intro r hr
        show r.length = (t.columns.modify _ _).length
        rw [List.length_modify]
        exact h r hr
    | other text =>
      obtain rfl := Except.ok.inj hAlter
      exact h

-- ---------------------------------------------------------------------------
-- The law
-- ---------------------------------------------------------------------------

theorem fullWidth_result {t : Table} (h : t.FullWidth) {a : TableAction} (hFit : widthsFit t a) :
    (a.result t).FullWidth := by
  have hUpdate : ∀ a : TableAction, ((∃ now assignments selection, a = .update now assignments
      selection) ∨ ∃ now assignments selection bound, a = .updatePrepared now assignments selection
        bound) → (a.result t).FullWidth := by
    intro a hShape
    refine update_keeps hShape h (fun key ri _ _ hIn => ?_) fun _ =>
      fullWidth_rows h (length_scanRow t a) (Prog.exec_iterMut_forall _ _)
    have hLoop := Prog.forEach_keeps (I := fun t => ri < t.rows.length ∧ t.FullWidth)
      (fun t x ht _ => fullWidth_assignAt x.2 x.1 ht.1 ht.2) ⟨hIn, h⟩
      (Trace.along_true t (a.assigns t))
    exact hLoop.2
  have hSub : ∀ rows, rows.Sublist t.rows → Table.FullWidth { t with rows := rows } :=
    fun rows hRows r hr => h r (hRows.subset hr)
  have hDelete : ∀ a : TableAction, ((∃ now selection, a = .delete now selection) ∨
      ∃ now selection bound, a = .deletePrepared now selection bound) → (a.result t).FullWidth := by
    intro a hShape
    refine delete_keeps hShape h (fun key p _ _ => ?_) (fun rows hRows _ => hSub rows hRows)
      fun rows _ hRows _ => hSub rows hRows
    intro r hr
    rw [columns_deleteKey]
    exact h r (mem_deleteKey hr)
  cases a with
  | insert replaceInto names rows =>
    have hAlong : Trace.Along (insertStep replaceInto names) (fun _ src =>
        (names.isEmpty || t.columns.isEmpty) = true → src.length = t.columns.length) t rows :=
      Trace.along_of_forall (fun src hMem _ hWhole => hFit hWhole src hMem) t
    have hStep : ∀ (t' : Table) (src : Row), (t'.FullWidth ∧ t'.columns = t.columns) →
        ((names.isEmpty || t.columns.isEmpty) = true → src.length = t.columns.length) →
          (insertStep replaceInto names t' src).FullWidth ∧
            (insertStep replaceInto names t' src).columns = t.columns := by
      rintro t' src ⟨hWidth, hCols⟩ hSrc
      rw [← hCols] at hSrc ⊢
      exact fullWidth_insertStep hWidth hSrc
    exact (insert_keeps hStep ⟨h, rfl⟩ hAlong).1
  | insertPrepared rows =>
    rw [result_insertPrepared]
    have hAlong : Trace.Along Table.push (fun _ r => r.length = t.columns.length) t rows :=
      Trace.along_of_forall (fun r hMem _ => hFit r hMem) t
    have hStep : ∀ (t' : Table) (r : Row), (t'.FullWidth ∧ t'.columns = t.columns) →
        r.length = t.columns.length → (t'.push r).FullWidth ∧ (t'.push r).columns = t.columns := by
      rintro t' r ⟨hWidth, hCols⟩ hr
      exact ⟨fullWidth_push hWidth (by rw [hCols]; exact hr), hCols⟩
    exact (Trace.invariant_run hStep ⟨h, rfl⟩ hAlong).1
  | update now assignments selection => exact hUpdate _ (.inl ⟨_, _, _, rfl⟩)
  | updatePrepared now assignments selection bound => exact hUpdate _ (.inr ⟨_, _, _, _, rfl⟩)
  | delete now selection => exact hDelete _ (.inl ⟨_, _, rfl⟩)
  | deletePrepared now selection bound => exact hDelete _ (.inr ⟨_, _, _, rfl⟩)
  | truncate => intro r hr; cases hr
  | alter operations =>
    exact alter_keeps (I := Table.FullWidth) (fun t op ht _ => fullWidth_alterStep ht op) h
      (Trace.along_true t operations)

instance decidableWidthsFit (t : Table) : ∀ a, Decidable (widthsFit t a)
  | .insert _ names rows => inferInstanceAs (Decidable
    ((names.isEmpty || t.columns.isEmpty) = true → ∀ src ∈ rows, src.length = t.columns.length))
  | .insertPrepared rows => inferInstanceAs (Decidable (∀ r ∈ rows, r.length = t.columns.length))
  | .update .. | .updatePrepared .. | .delete .. | .deletePrepared .. | .truncate | .alter _ =>
    isTrue trivial

/-- Rows stay as wide as their table, as long as the rows that come in are. -/
def widthsLaw : TableLaw where
  holds := Table.FullWidth
  act := widthsFit
  put columns rows := ∀ r ∈ rows, r.length = columns.length
  holds_act _ _ h hFit := fullWidth_result h hFit
  holds_put _ _ _ _ h := h

instance (t : Table) (a : TableAction) : Decidable (widthsLaw.act t a) := decidableWidthsFit t a

instance (columns : List Column) (rows : List Row) : Decidable (widthsLaw.put columns rows) :=
  inferInstanceAs (Decidable (∀ r ∈ rows, r.length = columns.length))

/-- A column's position is a cell of every row. -/
theorem position_lt {t : Table} (h : t.FullWidth) {name : Str} {idx : Nat}
    (hPos : columnPosition t.columns name = some idx) : ∀ r ∈ t.rows, idx < r.length := by
  intro r hr
  rw [h r hr]
  exact (List.findIdx?_eq_some_iff_findIdx_eq.1 hPos).1

/-- **Row widths.** After every run of calls, logins and transactions from
`Engine::new` in which the rows coming in have the width of their table, every
row has exactly as many values as its table has columns, and the cell that an
assignment to a column indexes is there. -/
theorem rowWidths_run (rootPassword : Str) {moves : List Move}
    (hFits : Trace.Along World.step widthsLaw.Meets (World.fresh rootPassword) moves) :
    World.Each (fun t => (∀ r ∈ t.rows, r.length = t.columns.length) ∧
        ∀ name idx, columnPosition t.columns name = some idx → ∀ r ∈ t.rows, idx < r.length)
      (Trace.run World.step (World.fresh rootPassword) moves) := by
  have hRun := widthsLaw.holds_run rootPassword hFits
  exact hRun.mono fun t ht => ⟨ht, fun name idx hPos => position_lt ht hPos⟩

end RowWidths

-- ---------------------------------------------------------------------------
-- A row that is too long
-- ---------------------------------------------------------------------------

section LongRow

set_option maxRecDepth 2000

/-- `INSERT INTO t VALUES (..)`. -/
def insertNumbers (ns : List Str) : Statement :=
  .insert {
    table := .tableName [⟨"t", none⟩], columns := []
    source := some (.mk (.values [ns.map fun n => .value (.number n false)]) none none none)
    replaceInto := false }

local instance rowWidthsPlatform : Platform := tablePlatform
  [("CREATE TABLE t (a INT)", [.createTable {
      name := [⟨"t", none⟩], columns := [⟨⟨"a", none⟩, .int, []⟩], ifNotExists := false
      query := none }]),
    ("INSERT INTO t VALUES (1)", [insertNumbers ["1"]]),
    ("INSERT INTO t VALUES (1, 2)", [insertNumbers ["1", "2"]])]

/-- Two calls: the table is created, the INSERT executed. -/
def createThen (sql : Str) : List Move :=
  [.call "root" (.text 0 "CREATE TABLE t (a INT)" none), .call "root" (.text 0 sql none)]

theorem rowWidths_run_one :
    World.Each (fun t => (∀ r ∈ t.rows, r.length = t.columns.length) ∧
        ∀ name idx, columnPosition t.columns name = some idx → ∀ r ∈ t.rows, idx < r.length)
      (Trace.run World.step (World.fresh []) (createThen "INSERT INTO t VALUES (1)")) :=
  rowWidths_run [] (by decide +kernel)

/-- Two values go into one column. -/
theorem not_rowWidths_run :
    ¬ ∀ (rootPassword : Str) (moves : List Move),
      World.Each (fun t => ∀ r ∈ t.rows, r.length = t.columns.length)
        (Trace.run World.step (World.fresh rootPassword) moves) := by
  intro hAll
  have hRun := hAll [] (createThen "INSERT INTO t VALUES (1, 2)")
  have hTable : (findTable (Trace.run World.step (World.fresh [])
      (createThen "INSERT INTO t VALUES (1, 2)")).engine.databases "test" "t" [] []).map
        (fun t => decide (∀ r ∈ t.rows, r.length = t.columns.length)) = .ok false := by
    decide +kernel
  cases hFind : findTable (Trace.run World.step (World.fresh [])
      (createThen "INSERT INTO t VALUES (1, 2)")).engine.databases "test" "t" [] [] with
  | error other => rw [hFind] at hTable; cases hTable
  | ok t =>
    rw [hFind] at hTable
    exact absurd (hRun.of_findTable hFind) (of_decide_eq_false (Except.ok.inj hTable))

end LongRow

end RunAlexDb
