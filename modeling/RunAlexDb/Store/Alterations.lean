import RunAlexDb.Lib.Origins
import RunAlexDb.Store.Consistency

/-!
# Alterations — what ALTER TABLE leaves of a table

A layout is a list of columns, each with its position in the table before, or none
for a new one. ADD appends to the layout, DROP takes out, RENAME changes a name;
the first operation that cannot be done ends it. ALTER TABLE does to rows, stores,
index and key column what the operations do to the layout.

Main result: `altered`.
-/

set_option linter.unusedSectionVars false

namespace RunAlexDb

open Text Platform Origins

section Alterations

variable [Platform]

-- ---------------------------------------------------------------------------
-- Layouts
-- ---------------------------------------------------------------------------

abbrev Layout := Origins.Tracked Column

def Layout.position (l : Layout) (name : Str) : Option Nat := columnPosition (elements l) name

/-- The column that ADD COLUMN makes. -/
def newColumn (columnDef : ColumnDef) : Column where
  name := columnDef.name.toString
  colType := sqlTypeToColType columnDef.dataType
  nullable := true
  primaryKey := false

/-- One operation; none when it cannot be done. -/
def Layout.alter (l : Layout) : AlterTableOperation → Option Layout
  | .addColumn columnDef =>
    if (l.position columnDef.name.toString).isSome then none else some (l ++ [(newColumn columnDef, none)])
  | .dropColumn columnName =>
    (l.position columnName.toString).bind fun i =>
      if (elements l)[i]?.elim false Column.primaryKey then none else some (l.eraseIdx i)
  | .renameColumn oldColumnName newColumnName =>
    (l.position oldColumnName.toString).map fun i =>
      change l i fun c => { c with name := newColumnName.toString }
  | .other _ => some l

/-- The operations up to the first that cannot be done. -/
def Layout.run : Layout → List AlterTableOperation → Layout
  | l, [] => l
  | l, op :: rest =>
    match l.alter op with
    | none => l
    | some l' => Layout.run l' rest

def Table.layout (t : Table) : Layout := tag t.columns

/-- The same column, its name apart. -/
def Column.SameKind (c c' : Column) : Prop := c' = { c with name := c'.name }

/-- `t'` has the columns of the layout; each of its rows is one of `t` in the new
layout, NULL in the new columns; its key column is the one of `t`. -/
structure LaidOut (t t' : Table) (l : Layout) : Prop where
  columns : t'.columns = elements l
  rows : t'.rows = t.rows.map (project Value.null l)
  kept : Descends Column.SameKind t.columns l
  key : firstOrigin Column.primaryKey l = t.pkColIdx.map some

-- ---------------------------------------------------------------------------
-- One operation
-- ---------------------------------------------------------------------------

theorem laidOut_self {t : Table} (hLinked : t.Linked) (hWide : t.FullWidth) : LaidOut t t t.layout where
  columns := (elements_tag t.columns).symm
  rows := by
    have hSame : t.rows.map (project Value.null t.layout) = t.rows.map id :=
      List.map_congr_left fun r hr => project_tag Value.null (hWide r hr)
    rw [hSame, List.map_id]
  kept := descends_tag (R := Column.SameKind) (fun _ => rfl) t.columns
  key := by
    rw [hLinked]
    exact firstOrigin_tag Column.primaryKey t.columns

theorem position_isSome (cols : List Column) (name : Str) :
    (columnPosition cols name).isSome = cols.any fun c => eqIgnoreAsciiCase c.name name := by
  unfold columnPosition
  rw [List.findIdx?_isSome]

/-- **One operation** changes the table as it changes the layout, or neither. -/
theorem alter_laidOut {t₀ t : Table} {l : Layout} (h : LaidOut t₀ t l) (op : AlterTableOperation) :
    match t.alter op, l.alter op with
    | .ok t', some l' => LaidOut t₀ t' l'
    | .error _, none => True
    | _, _ => False := by
  have hPosition : ∀ name, l.position name = columnPosition t.columns name := by
    intro name
    unfold Layout.position
    rw [h.columns]
  rcases op with columnDef | columnName | ⟨oldColumnName, newColumnName⟩ | text
  · -- ADD COLUMN
    unfold Table.alter Layout.alter
    simp only [hPosition, position_isSome]
    by_cases hThere : (t.columns.any fun c => eqIgnoreAsciiCase c.name columnDef.name.toString) = true
    · simp only [hThere, if_true]
    · simp only [hThere]
      refine ⟨?_, ?_, h.kept.append _, ?_⟩
      · rw [elements_append, ← h.columns]
        rfl
      · show t.rows.map (· ++ [Value.null]) = _
        rw [h.rows, List.map_map]
        exact List.map_congr_left fun r _ => (project_append Value.null l _ r).symm
      · exact (firstOrigin_append l rfl).trans h.key
  · -- DROP COLUMN
    unfold Table.alter Layout.alter
    simp only [hPosition]
    rcases columnPosition t.columns columnName.toString with _ | i
    · trivial
    · simp only [Option.bind_some, ← h.columns]
      by_cases hKey : t.columns[i]?.elim false Column.primaryKey = true
      · simp only [hKey, if_true]
      · simp only [hKey]
        refine ⟨?_, ?_, h.kept.eraseIdx i, ?_⟩
        · rw [elements_eraseIdx, ← h.columns]
          rfl
        · show t.rows.map (·.eraseIdx i) = _
          rw [h.rows, List.map_map]
          exact List.map_congr_left fun r _ => (project_eraseIdx Value.null l i r).symm
        · refine (firstOrigin_eraseIdx fun e he => ?_).trans h.key
          rw [h.columns, elements, List.getElem?_map, he] at hKey
          exact Bool.eq_false_iff.2 hKey
  · -- RENAME COLUMN
    unfold Table.alter Layout.alter
    simp only [hPosition]
    rcases columnPosition t.columns oldColumnName.toString with _ | i
    · trivial
    · refine ⟨?_, ?_, h.kept.change (fun c₀ c hSame => ?_) i, ?_⟩
      · rw [elements_change, ← h.columns]
      · show t.rows = _
        rw [h.rows]
        exact List.map_congr_left fun r _ => (project_change Value.null l i _ r).symm
      · unfold Column.SameKind at hSame ⊢
        rw [hSame]
      · have hFlag : ∀ c : Column,
            Column.primaryKey { c with name := newColumnName.toString } = c.primaryKey := fun _ => rfl
        exact (firstOrigin_change hFlag l i).trans h.key
  · exact h

-- ---------------------------------------------------------------------------
-- All operations
-- ---------------------------------------------------------------------------

/-- **The operations of ALTER TABLE**, up to the first error. -/
theorem laidOut_alter {t₀ : Table} (operations : List AlterTableOperation) :
    ∀ {t : Table} {l : Layout}, LaidOut t₀ t l →
      LaidOut t₀ ((alterTable operations).exec t).2 (l.run operations) := by
  induction operations with
  | nil => exact fun h => h
  | cons op rest ih =>
    intro t l h
    have hOne := alter_laidOut h op
    rw [alterTable, Prog.exec_get_bind, Layout.run]
    rcases hTable : t.alter op with e | t' <;> rcases hLayout : l.alter op with _ | l' <;>
      rw [hTable, hLayout] at hOne
    · exact h
    · exact hOne.elim
    · exact hOne.elim
    · exact ih hOne

/-- Rows and stores as wide as the columns. -/
structure Table.Even (t : Table) : Prop where
  rows : t.FullWidth
  ints : t.colIntData.length = t.columns.length
  strs : t.colStrData.length = t.columns.length

theorem even_addColumn {t : Table} (h : t.Even) (name : Str) (colType : ColumnType) :
    (t.addColumn name colType).colIntData.length = t.columns.length + 1 ∧
      (t.addColumn name colType).colStrData.length = t.columns.length + 1 := by
  have hInts := h.ints
  have hStrs := h.strs
  unfold Table.addColumn
  constructor
  · dsimp only
    split
    · rw [List.length_set, List.length_append, List.length_replicate]
      omega
    · rw [List.length_append, List.length_replicate]
      omega
  · dsimp only
    split
    · rw [List.length_set, List.length_append, List.length_replicate]
      omega
    · rw [List.length_append, List.length_replicate]
      omega

theorem even_alterStep {t : Table} (h : t.Even) (op : AlterTableOperation) : (alterStep t op).Even := by
  have hRows := fullWidth_alterStep h.rows op
  unfold alterStep at hRows ⊢
  rcases hAlter : t.alter op with e | t'
  · exact h
  · rw [hAlter] at hRows
    unfold Table.alter at hAlter
    rcases op with columnDef | columnName | ⟨oldColumnName, newColumnName⟩ | text
    · dsimp only at hAlter
      split at hAlter
      · cases hAlter
      · obtain rfl := Except.ok.inj hAlter
        obtain ⟨hInts, hStrs⟩ := even_addColumn h columnDef.name.toString
          (sqlTypeToColType columnDef.dataType)
        have hColumns : (t.addColumn columnDef.name.toString
            (sqlTypeToColType columnDef.dataType)).columns.length = t.columns.length + 1 :=
          List.length_append
        exact ⟨hRows, hInts.trans hColumns.symm, hStrs.trans hColumns.symm⟩
    · dsimp only at hAlter
      split at hAlter
      · cases hAlter
      · split at hAlter
        · cases hAlter
        · rename_i i _ _
          obtain rfl := Except.ok.inj hAlter
          refine ⟨hRows, ?_, ?_⟩
          · show (t.colIntData.eraseIdx i).length = (t.columns.eraseIdx i).length
            rw [List.length_eraseIdx, List.length_eraseIdx, h.ints]
          · show (t.colStrData.eraseIdx i).length = (t.columns.eraseIdx i).length
            rw [List.length_eraseIdx, List.length_eraseIdx, h.strs]
    · dsimp only at hAlter
      split at hAlter
      · cases hAlter
      · rename_i i _
        obtain rfl := Except.ok.inj hAlter
        refine ⟨hRows, ?_, ?_⟩
        · show t.colIntData.length = (t.columns.modify i _).length
          rw [List.length_modify, h.ints]
        · show t.colStrData.length = (t.columns.modify i _).length
          rw [List.length_modify, h.strs]
    · obtain rfl := Except.ok.inj hAlter
      exact h

/-- Full rows have no cell in the place of a new column. -/
theorem alterFits_of_fullWidth {t : Table} (h : t.FullWidth) (op : AlterTableOperation) :
    alterFits t op := by
  have hNone : ∀ r ∈ t.rows, r[t.columns.length]? = none := fun r hr =>
    List.getElem?_eq_none (h r hr).le
  unfold alterFits
  split
  · refine ⟨fun _ r hr => ?_, fun _ r hr => ?_⟩
    · rw [hNone r hr]
      rfl
    · rw [hNone r hr]
      rfl
  · trivial

/-- The key column stands where the layout has the old one. -/
theorem LaidOut.pkColIdx {t t' : Table} {l : Layout} (h : LaidOut t t' l) (hLinked : t'.Linked) :
    t'.pkColIdx.map (fun j => (l[j]?).bind Prod.snd) = t.pkColIdx.map some := by
  rw [hLinked, h.columns, origin_findIdx?, h.key]

/-- **ALTER TABLE.** A consistent table, its rows and stores as wide as its columns,
stays so under any list of operations, done up to the first error. Its columns are
those of the layout, each row has its old cells where their columns are and NULL in
the new ones, and `pk_col_idx` is where the old key column is. -/
theorem altered {t : Table} (h : Consistent t) (hEven : t.Even) (operations : List AlterTableOperation) :
    let t' := (TableAction.alter operations).result t
    let l := t.layout.run operations
    Consistent t' ∧ t'.Even ∧ LaidOut t t' l ∧
      t'.pkColIdx.map (fun j => (l[j]?).bind Prod.snd) = t.pkColIdx.map some := by
  obtain ⟨hUnique, hIndex, hStores⟩ := consistent_iff.1 h
  have hSteps : Trace.Along alterStep (fun _ _ => True) t operations := Trace.along_true t operations
  have hFits : Trace.Along alterStep alterFits t operations :=
    Trace.Along.of_invariant (I := Table.FullWidth) (fun _ op ht _ => fullWidth_alterStep ht op)
      (fun _ op ht _ => alterFits_of_fullWidth ht op) hEven.rows hSteps
  have hUnique' : Keyed KeysUnique ((TableAction.alter operations).result t) :=
    keysUnique_result hUnique trivial
  have hLaid : LaidOut t ((TableAction.alter operations).result t) (t.layout.run operations) :=
    laidOut_alter operations (laidOut_self h.linked hEven.rows)
  refine ⟨consistent_iff.2 ⟨hUnique', ?_, ?_⟩, ?_, hLaid, hLaid.pkColIdx hUnique'.linked⟩
  · exact indexExact_result hIndex trivial
  · exact storesExact_result hStores hFits
  · exact alter_keeps (I := Table.Even) (fun _ op ht _ => even_alterStep ht op) hEven hSteps

end Alterations

-- ---------------------------------------------------------------------------
-- An error part-way
-- ---------------------------------------------------------------------------

section PartWay

set_option maxRecDepth 2000

local instance alterationsPlatform : Platform := tablePlatform []

/-- `DROP COLUMN a, ADD COLUMN c INT, RENAME COLUMN b TO k, DROP COLUMN k, ADD COLUMN d INT`:
the key column is not dropped. -/
def partWayOperations : List AlterTableOperation :=
  [.dropColumn ⟨"a", none⟩, .addColumn ⟨⟨"c", none⟩, .int, []⟩,
    .renameColumn ⟨"b", none⟩ ⟨"k", none⟩, .dropColumn ⟨"k", none⟩,
    .addColumn ⟨⟨"d", none⟩, .int, []⟩]

theorem lowestTable_even : lowestTable.Even := by
  refine ⟨fun r hr => ?_, by decide +kernel, by decide +kernel⟩
  rcases List.mem_cons.1 hr with rfl | hr
  · decide +kernel
  · obtain rfl := List.mem_singleton.1 hr
    decide +kernel

theorem altered_partWay :
    Consistent ((TableAction.alter partWayOperations).result lowestTable) ∧
      ((TableAction.alter partWayOperations).result lowestTable).rows =
        [[.int 1, .null], [.int (-1), .null]] := by
  obtain ⟨hConsistent, -, hLaid, -⟩ := altered lowestTable_consistent lowestTable_even partWayOperations
  refine ⟨hConsistent, hLaid.rows.trans ?_⟩
  decide +kernel

end PartWay

end RunAlexDb
