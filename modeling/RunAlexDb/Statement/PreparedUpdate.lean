import RunAlexDb.Query.BoundParameters
import RunAlexDb.Statement.PreparedText
import RunAlexDb.Store.ActionSteps

/-!
# PreparedUpdate — UPDATE with parameters and its text

`update_prepared` has two paths. By key it takes its values from a second reading
of SET, in which a `?` is a parameter only as a whole right-hand side and all but
literals is text, and it reports one row whether or not the key is there. By
scanning it evaluates SET with the `?` left in it.

Main results: `updatePrepared_same`, and on the key path `writes_iff`.
-/

set_option linter.unusedSectionVars false

namespace RunAlexDb

open Text Platform

section PreparedUpdate

variable [Platform]

-- ---------------------------------------------------------------------------
-- What assignments write
-- ---------------------------------------------------------------------------

/-- The cells that assignments write to a row, in order, and how they end: a
panic of a value ends them before its cell, a row that is too short behind it. -/
def writes (cols : List Column) :
    Row → List (Assignment × (Row → Expr → Rust Value)) → List (Nat × Value) × Rust Unit
  | _, [] => ([], .ok ())
  | r, a :: rest =>
    match columnPosition cols a.1.target.toString with
    | none => writes cols r rest
    | some idx =>
      match a.2 r a.1.value with
      | .error fault => ([], .error fault)
      | .ok v =>
        if idx < r.length then
          ((idx, v) :: (writes cols (r.set idx v) rest).1, (writes cols (r.set idx v) rest).2)
        else ([(idx, v)], .error .panic)

/-- A row after writes. -/
def writeRow (r : Row) (cells : List (Nat × Value)) : Row := cells.foldl (fun r w => r.set w.1 w.2) r

/-- A cell of row `ri` written, and the stores with it. -/
def Table.writeCell (ri : Nat) (t : Table) (w : Nat × Value) : Table :=
  { t.writeStores ri w.1 w.2 with rows := t.rows.modify ri (·.set w.1 w.2) }

/-- The SET list of a scan. -/
def evaluated (now : Nat) (cols : List Column) (assignments : List Assignment) :
    List (Assignment × (Row → Expr → Rust Value)) :=
  assignments.map fun a => (a, fun r e => evalRowExpr now r cols e)

/-- One assignment of a scan. -/
theorem exec_assignRow (cols : List Column) (value : Row → Expr → Rust Value) (a : Assignment)
    (r : Row) :
    (assignRow cols value a).exec r =
      match columnPosition cols a.target.toString with
      | none => (.ok (), r)
      | some idx =>
        match value r a.value with
        | .error fault => (.error fault, r)
        | .ok v => if idx < r.length then (.ok (), r.set idx v) else (.error .panic, r) := by
  rw [assignRow]
  cases columnPosition cols a.target.toString with
  | none => rfl
  | some idx =>
    simp only []
    rw [Prog.exec_get_bind, Prog.exec_bind, Prog.exec_ofExcept]
    cases value r a.value with
    | error fault => rfl
    | ok v =>
      simp only [assignCell, Prog.exec_get_bind]
      split <;> rfl

theorem exec_assignRows (cols : List Column) (value : Row → Expr → Rust Value)
    (assignments : List Assignment) (r : Row) :
    (Prog.forEach (assignRow cols value) assignments).exec r =
      ((writes cols r (assignments.map fun a => (a, value))).2,
        writeRow r (writes cols r (assignments.map fun a => (a, value))).1) := by
  induction assignments generalizing r with
  | nil => rfl
  | cons a rest ih =>
    rw [Prog.forEach, Prog.exec_bind, List.map_cons, writes, exec_assignRow]
    cases columnPosition cols a.target.toString with
    | none => exact ih r
    | some idx =>
      simp only []
      cases value r a.value with
      | error fault => rfl
      | ok v =>
        simp only []
        by_cases hIn : idx < r.length
        · rw [if_pos hIn, if_pos hIn]
          exact ih (r.set idx v)
        · rw [if_neg hIn, if_neg hIn]
          show (Except.error Fault.panic, r) = (_, r.set idx v)
          rw [List.set_eq_of_length_le (Nat.le_of_not_lt hIn)]

theorem exec_assignRowAt {ri : Nat} {assigns : List (Assignment × (Row → Expr → Rust Value))} :
    ∀ {t : Table} {r : Row}, t.rows[ri]? = some r →
      (assignRowAt ri assigns).exec t = ((writes t.columns r assigns).2,
        (writes t.columns r assigns).1.foldl (Table.writeCell ri) t) := by
  induction assigns with
  | nil => intro t r _; rfl
  | cons a rest ih =>
    intro t r hRow
    have hCell : ∀ idx v, t.rows.modify ri (·.set idx v) = t.rows.set ri (r.set idx v) := by
      intro idx v
      obtain ⟨hLt, rfl⟩ := List.getElem?_eq_some_iff.1 hRow
      rw [List.modify_eq_set_get _ hLt]
      rfl
    rw [assignRowAt, Prog.forEach, Prog.exec_bind, assignAt_eq a.2 a.1 hRow, writes]
    cases columnPosition t.columns a.1.target.toString with
    | none => exact ih hRow
    | some idx =>
      cases a.2 r a.1.value with
      | error fault => rfl
      | ok v =>
        by_cases hIn : idx < r.length
        · simp only [if_pos hIn]
          have hLt := (List.getElem?_eq_some_iff.1 hRow).1
          have hNext : ({ t.writeStores ri idx v with rows := t.rows.set ri (r.set idx v) } :
              Table) = t.writeCell ri (idx, v) := by
            rw [Table.writeCell, hCell]
          have hRow' : (t.writeCell ri (idx, v)).rows[ri]? = some (r.set idx v) := by
            rw [← hNext]
            exact List.getElem?_set_self hLt
          have hCols : (t.writeCell ri (idx, v)).columns = t.columns :=
            columns_writeStores t ri idx v
          have hRest := ih hRow'
          rw [assignRowAt, hCols] at hRest
          rw [hNext, hRest]
          rfl
        · simp only [if_neg hIn]
          have hSame : t.rows.set ri (r.set idx v) = t.rows := by
            obtain ⟨hLt, hEq⟩ := List.getElem?_eq_some_iff.1 hRow
            rw [List.set_eq_of_length_le (Nat.le_of_not_lt hIn), ← hEq, List.set_getElem_self]
          show (Except.error Fault.panic, t.writeStores ri idx v) =
            (Except.error Fault.panic, t.writeCell ri (idx, v))
          rw [Table.writeCell, hCell, hSame, ← rows_writeStores t ri idx v]

-- ---------------------------------------------------------------------------
-- The two UPDATEs of a table
-- ---------------------------------------------------------------------------

/-- An UPDATE looks up row `ri`, which is `r`. -/
def FindsRow (a : TableAction) (t : Table) (ri : Nat) (r : Row) : Prop :=
  ∃ key, a.lookup t = .ok (some key) ∧ t.pkIndex.get key = some ri ∧ t.rows[ri]? = some r

/-- What an UPDATE does to a table, `missing` its result for a key that is not
there. -/
def updateOutcome (missing : QueryResult) (a : TableAction) (t : Table) :
    Except Fault QueryResult × Table :=
  match a.lookup t with
  | .error fault => (.error fault, t)
  | .ok none =>
    (((Prog.iterMut (a.scanRow t)).exec t.rows).1.map fun n => .ok (UInt64.ofNat n) 0,
      { t with rows := ((Prog.iterMut (a.scanRow t)).exec t.rows).2 })
  | .ok (some key) =>
    match (t.pkIndex.get key).bind fun ri => (t.rows[ri]?).map fun r => (ri, r) with
    | none => (.ok missing, t)
    | some (ri, r) =>
      ((writes t.columns r (a.assigns t)).2.map fun _ => .ok 1 0,
        (writes t.columns r (a.assigns t)).1.foldl (Table.writeCell ri) t)

theorem exec_updateScan (t : Table) (cond : Row → Rust Bool) (value : Row → Expr → Rust Value)
    (assignments : List Assignment) :
    (updateScan cond value assignments).exec t =
      (((Prog.iterMut (updateRow t.columns cond value assignments)).exec t.rows).1.map fun n =>
          .ok (UInt64.ofNat n) 0,
        { t with
          rows := ((Prog.iterMut (updateRow t.columns cond value assignments)).exec t.rows).2 }) := by
  rw [updateScan, Prog.exec_get_bind, Prog.exec_bind, onRows, Prog.zoom, Prog.exec_mk]
  rcases (Prog.iterMut (updateRow t.columns cond value assignments)).exec t.rows with ⟨_ | n, rows⟩
  · rfl
  · rfl

/-- A loop over assignments that ends with OK for one row. -/
theorem exec_assign_ok {t : Table} {ri : Nat} {r : Row} (hRow : t.rows[ri]? = some r)
    (assigns : List (Assignment × (Row → Expr → Rust Value))) :
    (assignRowAt ri assigns >>= fun _ => pure (.ok 1 0) : TableM QueryResult).exec t =
      ((writes t.columns r assigns).2.map fun _ => .ok 1 0,
        (writes t.columns r assigns).1.foldl (Table.writeCell ri) t) := by
  rw [Prog.exec_bind, exec_assignRowAt hRow]
  cases (writes t.columns r assigns).2 <;> rfl

theorem exec_updateTable (now : Nat) (assignments : List Assignment) (selection : Option Expr)
    (t : Table) :
    (updateTable now assignments selection).exec t =
      updateOutcome (.ok 0 0) (.update now assignments selection) t := by
  rw [updateTable, Prog.exec_get_bind, pkCondition_bind, updateOutcome, TableAction.lookup]
  rcases ((pkCondition selection extractPkEq).exec t).1 with fault | _ | key
  · rfl
  · exact exec_updateScan t _ _ assignments
  · simp only [updateKey, Prog.exec_get_bind]
    cases t.pkIndex.get key with
    | none => rfl
    | some ri =>
      simp only [Option.bind_some]
      by_cases hIn : ri < t.rows.length
      · have hRow := List.getElem?_eq_getElem hIn
        rw [hRow, if_pos hIn]
        have hLoop := exec_assign_ok hRow
          ((TableAction.update now assignments selection).assigns t)
        rw [assignRowAt, TableAction.assigns, Prog.forEach_map] at hLoop
        exact hLoop
      · rw [List.getElem?_eq_none (Nat.le_of_not_lt hIn), if_neg hIn]
        rfl

theorem exec_updateTablePrepared (now : Nat) (assignments : List Assignment)
    (selection : Option Expr) (bound : List Value) (t : Table) :
    (updateTablePrepared now assignments selection bound).exec t =
      updateOutcome (.ok 1 0) (.updatePrepared now assignments selection bound) t := by
  rw [updateTablePrepared, Prog.exec_get_bind, pkCondition_bind, updateOutcome, TableAction.lookup]
  generalize (assignments.filter fun a => a.value.isPlaceholder).length = params
  rcases ((pkCondition selection (boundKey bound params)).exec t).1 with fault | _ | key
  · rfl
  · exact exec_updateScan t _ _ assignments
  · simp only [updateKeyPrepared, Prog.exec_get_bind]
    cases t.pkIndex.get key with
    | none => rfl
    | some ri =>
      simp only [Option.bind_some]
      by_cases hIn : ri < t.rows.length
      · have hRow := List.getElem?_eq_getElem hIn
        rw [hRow, if_pos hIn]
        have hLoop := exec_assign_ok hRow
          ((TableAction.updatePrepared now assignments selection bound).assigns t)
        rw [assignRowAt, TableAction.assigns, Prog.forEach_map] at hLoop
        exact hLoop
      · rw [List.getElem?_eq_none (Nat.le_of_not_lt hIn), if_neg hIn]
        rfl

theorem updateOutcome_found {a : TableAction} {t : Table} {ri : Nat} {r : Row}
    (h : FindsRow a t ri r) (missing : QueryResult) :
    updateOutcome missing a t = ((writes t.columns r (a.assigns t)).2.map fun _ => .ok 1 0,
      (writes t.columns r (a.assigns t)).1.foldl (Table.writeCell ri) t) := by
  obtain ⟨key, hLookup, hEntry, hRow⟩ := h
  rw [updateOutcome, hLookup]
  simp only [hEntry, Option.bind_some, hRow, Option.map_some]

/-- The row of a scan: selected by the one condition as by the other, and then
the same cells written. -/
def ScansAlike (now : Nat) (t : Table) (bound : List Value) (assignments assignments' : List Assignment)
    (selection selection' : Option Expr) (r : Row) : Prop :=
  rowSelectedBound now t.columns bound selection r = rowSelected now t.columns selection' r ∧
    (rowSelected now t.columns selection' r = .ok true →
      writes t.columns r (evaluated now t.columns assignments) =
        writes t.columns r (evaluated now t.columns assignments'))

/-- When `update_prepared` does to a table what `update` does: both find one row
by its key and write the same cells, or both scan and treat each row alike; or
the key column is missing for both. -/
def UpdatesAlike (now : Nat) (t : Table) (bound : List Value)
    (assignments assignments' : List Assignment) (selection selection' : Option Expr) : Prop :=
  let a := TableAction.updatePrepared now assignments selection bound
  let b := TableAction.update now assignments' selection'
  (∃ fault, a.lookup t = .error fault ∧ b.lookup t = .error fault) ∨
    (∃ ri r, FindsRow a t ri r ∧ FindsRow b t ri r ∧
      writes t.columns r (a.assigns t) = writes t.columns r (b.assigns t)) ∨
      (a.lookup t = .ok none ∧ b.lookup t = .ok none ∧
        ∀ r ∈ t.rows, ScansAlike now t bound assignments assignments' selection selection' r)

theorem exec_updateRow (cols : List Column) (cond : Row → Rust Bool)
    (value : Row → Expr → Rust Value) (assignments : List Assignment) (r : Row) :
    (updateRow cols cond value assignments).exec r =
      match cond r with
      | .error fault => (.error fault, r)
      | .ok false => (.ok 0, r)
      | .ok true =>
        ((writes cols r (assignments.map fun a => (a, value))).2.map fun _ => 1,
          writeRow r (writes cols r (assignments.map fun a => (a, value))).1) := by
  rw [updateRow, Prog.exec_get_bind, Prog.exec_bind, Prog.exec_ofExcept]
  rcases cond r with fault | _ | _
  · rfl
  · rfl
  · simp only [if_true]
    rw [Prog.exec_bind, exec_assignRows]
    cases (writes cols r (assignments.map fun a => (a, value))).2 <;> rfl

theorem scanRow_alike {now : Nat} {t : Table} {bound : List Value}
    {assignments assignments' : List Assignment} {selection selection' : Option Expr} {r : Row}
    (h : ScansAlike now t bound assignments assignments' selection selection' r) :
    ((TableAction.updatePrepared now assignments selection bound).scanRow t).exec r =
      ((TableAction.update now assignments' selection').scanRow t).exec r := by
  obtain ⟨hCond, hCells⟩ := h
  rw [TableAction.scanRow, TableAction.scanRow, exec_updateRow, exec_updateRow, hCond]
  rw [evaluated, evaluated] at hCells
  rcases hSelected : rowSelected now t.columns selection' r with fault | _ | _
  · rfl
  · rfl
  · simp only [hCells hSelected]

/-- **One UPDATE.** -/
theorem exec_updatesAlike {now : Nat} {t : Table} {bound : List Value}
    {assignments assignments' : List Assignment} {selection selection' : Option Expr}
    (h : UpdatesAlike now t bound assignments assignments' selection selection') :
    (updateTablePrepared now assignments selection bound).exec t =
      (updateTable now assignments' selection').exec t := by
  rw [exec_updateTablePrepared, exec_updateTable]
  rcases h with ⟨fault, hPrepared, hText⟩ | ⟨ri, r, hPrepared, hText, hCells⟩ |
    ⟨hPrepared, hText, hRows⟩
  · rw [updateOutcome, updateOutcome, hPrepared, hText]
  · rw [updateOutcome_found hPrepared, updateOutcome_found hText, hCells]
  · rw [updateOutcome, updateOutcome, hPrepared, hText]
    simp only [Prog.iterMut_congr fun r hr => scanRow_alike (hRows r hr)]

-- ---------------------------------------------------------------------------
-- UPDATE by key
-- ---------------------------------------------------------------------------

/-- The columns that assignments are to, those of the table. -/
def targets (cols : List Column) (assigns : List (Assignment × (Row → Expr → Rust Value))) :
    List Nat := assigns.filterMap fun a => columnPosition cols a.1.target.toString

theorem targets_cons (cols : List Column) (a : Assignment × (Row → Expr → Rust Value))
    (rest : List (Assignment × (Row → Expr → Rust Value))) :
    targets cols (a :: rest) =
      (columnPosition cols a.1.target.toString).toList ++ targets cols rest := by
  rw [targets, List.filterMap_cons]
  cases columnPosition cols a.1.target.toString <;> rfl

/-- Assignments that come to their end write every column they are to. -/
theorem writes_targets {cols : List Column} {r : Row}
    {assigns : List (Assignment × (Row → Expr → Rust Value))}
    (h : (writes cols r assigns).2 = .ok ()) :
    (writes cols r assigns).1.map Prod.fst = targets cols assigns := by
  induction assigns generalizing r with
  | nil => rfl
  | cons a rest ih =>
    rw [targets_cons]
    rw [writes] at h ⊢
    cases hPos : columnPosition cols a.1.target.toString with
    | none =>
      rw [hPos] at h
      exact ih h
    | some idx =>
      rw [hPos] at h
      simp only at h ⊢
      cases hValue : a.2 r a.1.value with
      | error fault =>
        rw [hValue] at h
        cases h
      | ok v =>
        rw [hValue] at h
        simp only at h ⊢
        by_cases hIn : idx < r.length
        · rw [if_pos hIn] at h ⊢
          rw [List.map_cons, ih h]
          rfl
        · rw [if_neg hIn] at h
          cases h

/-- Values that do not panic, on a row that is wide enough. -/
theorem writes_ok {cols : List Column} {r : Row}
    {assigns : List (Assignment × (Row → Expr → Rust Value))}
    (hValue : ∀ a ∈ assigns, ∀ r, ∃ v, a.2 r a.1.value = .ok v)
    (hWide : ∀ idx ∈ targets cols assigns, idx < r.length) : (writes cols r assigns).2 = .ok () := by
  induction assigns generalizing r with
  | nil => rfl
  | cons a rest ih =>
    have hRest : ∀ b ∈ rest, ∀ r, ∃ v, b.2 r b.1.value = .ok v :=
      fun b hb => hValue b (List.mem_cons_of_mem _ hb)
    rw [targets_cons] at hWide
    rw [writes]
    cases hPos : columnPosition cols a.1.target.toString with
    | none =>
      rw [hPos] at hWide
      exact ih hRest hWide
    | some idx =>
      rw [hPos] at hWide
      obtain ⟨v, hv⟩ := hValue a (List.mem_cons_self ..) r
      simp only [hv]
      rw [if_pos (hWide idx (List.mem_append_left _ (List.mem_singleton_self _)))]
      exact ih hRest fun i hi => by
        rw [List.length_set]
        exact hWide i (List.mem_append_right _ hi)

theorem getElem?_writeRow_other {cells : List (Nat × Value)} {i : Nat} (r : Row)
    (h : i ∉ cells.map Prod.fst) : (writeRow r cells)[i]? = r[i]? := by
  induction cells generalizing r with
  | nil => rfl
  | cons w rest ih =>
    rw [List.map_cons, List.mem_cons, not_or] at h
    show (writeRow (r.set w.1 w.2) rest)[i]? = r[i]?
    rw [ih _ h.2, List.getElem?_set_ne (Ne.symm h.1)]

/-- A column that is written once holds what was written. -/
theorem getElem?_writeRow {cells : List (Nat × Value)} {r : Row}
    (hOnce : (cells.map Prod.fst).Nodup) (hWide : ∀ i ∈ cells.map Prod.fst, i < r.length) :
    ∀ w ∈ cells, (writeRow r cells)[w.1]? = some w.2 := by
  induction cells generalizing r with
  | nil => intro w hw; cases hw
  | cons x rest ih =>
    rw [List.map_cons, List.nodup_cons] at hOnce
    have hFirst := hWide x.1 (List.mem_cons_self ..)
    intro w hw
    show (writeRow (r.set x.1 x.2) rest)[w.1]? = some w.2
    rcases List.mem_cons.1 hw with rfl | hRest
    · rw [getElem?_writeRow_other _ hOnce.1, List.getElem?_set_self hFirst]
    · exact ih hOnce.2 (fun i hi => by
        rw [List.length_set]
        exact hWide i (List.mem_cons_of_mem _ hi)) w hRest

theorem row_writeCells {ri : Nat} (cells : List (Nat × Value)) :
    ∀ {t : Table} {r : Row}, t.rows[ri]? = some r →
      (cells.foldl (Table.writeCell ri) t).rows[ri]? = some (writeRow r cells) := by
  induction cells with
  | nil => intro t r hRow; exact hRow
  | cons w rest ih =>
    intro t r hRow
    have hNext : (t.writeCell ri w).rows[ri]? = some (r.set w.1 w.2) := by
      show (t.rows.modify ri (·.set w.1 w.2))[ri]? = _
      rw [List.getElem?_modify_eq, hRow]
      rfl
    exact ih hNext

theorem cells_eq {cells cells' : List (Nat × Value)} {r : Row}
    (hSame : cells.map Prod.fst = cells'.map Prod.fst) (hOnce : (cells.map Prod.fst).Nodup)
    (hWide : ∀ i ∈ cells.map Prod.fst, i < r.length) (hRow : writeRow r cells = writeRow r cells') :
    cells = cells' := by
  have hLength : cells.length = cells'.length := by
    rw [← List.length_map Prod.fst, hSame, List.length_map]
  refine List.ext_getElem hLength fun j hj hj' => ?_
  have hFst : cells[j].1 = cells'[j].1 := by
    have hAt := congrArg (fun l : List Nat => l[j]?) hSame
    simp only [List.getElem?_map, List.getElem?_eq_getElem hj, List.getElem?_eq_getElem hj',
      Option.map_some, Option.some.injEq] at hAt
    exact hAt
  have hCell := getElem?_writeRow hOnce hWide _ (List.getElem_mem hj)
  have hCell' := getElem?_writeRow (hSame ▸ hOnce) (hSame ▸ hWide) _ (List.getElem_mem hj')
  rw [hRow, hFst, hCell'] at hCell
  exact Prod.ext hFst (Option.some.inj hCell).symm

/-- **UPDATE by key.** Where both find the row and no column is assigned twice,
the two leave the same table only when they write the same cells. -/
theorem writes_iff {a b : TableAction} {t : Table} {ri : Nat} {r : Row} (hA : FindsRow a t ri r)
    (hB : FindsRow b t ri r) (hValue : ∀ x ∈ a.assigns t, ∀ r, ∃ v, x.2 r x.1.value = .ok v)
    (hSame : targets t.columns (a.assigns t) = targets t.columns (b.assigns t))
    (hOnce : (targets t.columns (a.assigns t)).Nodup)
    (hWide : ∀ idx ∈ targets t.columns (a.assigns t), idx < r.length) :
    updateOutcome (.ok 1 0) a t = updateOutcome (.ok 0 0) b t ↔
      writes t.columns r (a.assigns t) = writes t.columns r (b.assigns t) := by
  rw [updateOutcome_found hA, updateOutcome_found hB]
  constructor
  · intro h
    obtain ⟨hResult, hTable⟩ := Prod.mk.inj h
    have hOk := writes_ok hValue hWide
    rw [hOk] at hResult
    have hOk' : (writes t.columns r (b.assigns t)).2 = .ok () := by
      cases hEnd : (writes t.columns r (b.assigns t)).2 with
      | error fault =>
        rw [hEnd] at hResult
        cases hResult
      | ok u => rfl
    obtain ⟨key, -, -, hRow⟩ := hA
    have hRows := row_writeCells (writes t.columns r (a.assigns t)).1 hRow
    rw [hTable, row_writeCells _ hRow] at hRows
    have hFst : (writes t.columns r (a.assigns t)).1.map Prod.fst =
        (writes t.columns r (b.assigns t)).1.map Prod.fst := by
      rw [writes_targets hOk, writes_targets hOk', hSame]
    have hTargets := writes_targets hOk
    refine Prod.ext (cells_eq (r := r) hFst ?_ ?_ (Option.some.inj hRows).symm) (hOk.trans hOk'.symm)
    · rw [hTargets]
      exact hOnce
    · rw [hTargets]
      exact hWide
  · intro h
    rw [h]

/-- A key that neither finds is one row for `update_prepared` and none for
`update`. -/
theorem updateOutcome_missing {a : TableAction} {t : Table} {key : Str}
    (hLookup : a.lookup t = .ok (some key)) (hMissing : t.pkIndex.get key = none)
    (missing : QueryResult) : updateOutcome missing a t = (.ok missing, t) := by
  rw [updateOutcome, hLookup]
  simp only [hMissing, Option.bind_none]

-- ---------------------------------------------------------------------------
-- The two statements
-- ---------------------------------------------------------------------------

/-- SET with its `?` replaced, from left to right. -/
def bindAssigned (literal : Value → Expr) : List Assignment → Binding (List Assignment)
  | [] => pure []
  | a :: rest => do
    let value ← bindExpr literal a.value
    return { a with value := value } :: (← bindAssigned literal rest)

/-- The SET list of the text. -/
def boundAssignments (literal : Value → Expr) (bound : List Value) (assignments : List Assignment) :
    List Assignment := (bindAssigned literal assignments bound).1

/-- The WHERE clause of the text: it stands behind SET. -/
def boundSelection (literal : Value → Expr) (bound : List Value) (assignments : List Assignment)
    (selection : Option Expr) : Option Expr :=
  (bindOption literal selection (bindAssigned literal assignments bound).2).1

/-- A SET list of literals and `?`, each `?` to a column of the table, writes the
same cells by key as the text does, when the literals read back. -/
theorem writes_plain {literal : Value → Expr} {cols : List Column} {bound : List Value} (now : Nat)
    (hReads : ∀ i, (bound.getD i .null).readsBack literal) {assignments : List Assignment}
    (hPlain : ∀ a ∈ assignments, ∃ v, a.value = .value v ∧ (a.value.isPlaceholder = true →
      (columnPosition cols a.target.toString).isSome = true)) (i : Nat) (r : Row) :
    writes cols r ((bindAssignments cols bound i assignments).map fun a =>
        (a.1, fun _ _ => pure a.2)) =
      writes cols r (evaluated now cols (bindAssigned literal assignments (bound.drop i)).1) := by
  induction assignments generalizing i r with
  | nil => rfl
  | cons a rest ih =>
    have hRest := ih fun b hb => hPlain b (List.mem_cons_of_mem a hb)
    simp only [pure, Except.pure] at hRest
    obtain ⟨v, hValue, hKnown⟩ := hPlain a (List.mem_cons_self ..)
    have hText : (bindAssigned literal (a :: rest) (bound.drop i)).1 =
        { a with value := (bindLiteral literal v (bound.drop i)).1 } ::
          (bindAssigned literal rest (bindLiteral literal v (bound.drop i)).2).1 := by
      rw [bindAssigned, hValue]
      rfl
    rw [hText, evaluated, List.map_cons, ← evaluated, bindAssignments, writes, bindLiteral]
    by_cases hMark : v.toString = ("?" : Str)
    · have hPlaceholder : a.value.isPlaceholder = true := by
        rw [hValue, Expr.isPlaceholder]
        simpa using hMark
      have hOwn : (bound.drop i).headD .null = bound.getD i .null := by
        rw [List.headD_eq_head?_getD, List.head?_drop, List.getD_eq_getElem?_getD]
      obtain ⟨idx, hPos⟩ := Option.isSome_iff_exists.1 (hKnown hPlaceholder)
      have hRead := hReads i now r cols
      rw [if_pos hMark, List.tail_drop]
      simp only [hPos, hPlaceholder, if_true, List.map_cons, writes, pure, Except.pure, hOwn, hRead]
      rw [hRest]
    · have hPlaceholder : a.value.isPlaceholder = false := by
        rw [hValue, Expr.isPlaceholder]
        simpa using hMark
      have hRead : evalRowExpr now r cols (.value v) = .ok (exprToValue (.value v)) := rfl
      rw [if_neg hMark]
      cases hPos : columnPosition cols a.target.toString with
      | none => exact hRest i r
      | some idx =>
        simp only [hPlaceholder, List.map_cons, writes, hPos, pure, Except.pure, hRead,
          Bool.false_eq_true, if_false]
        rw [hRest, hValue]

/-- The rows an UPDATE says it has changed. -/
def QueryResult.affected? : QueryResult → Option UInt64
  | .ok affected _ => some affected
  | _ => none

/-- Affected count and databases after a call. -/
def updateSeen (x : Except Fault QueryResult × Engine) : Except Fault (Option UInt64) × Store :=
  (x.1.map QueryResult.affected?, x.2.databases)

theorem updateSeen_of_outcome {x y : Except Fault QueryResult × Engine} (h : outcome x = outcome y) :
    updateSeen x = updateSeen y := by
  obtain ⟨hResult, hRest⟩ := Prod.mk.inj h
  rw [updateSeen, updateSeen, hResult, (Prod.mk.inj hRest).1]

/-- `update` and `update_prepared` on the engine. -/
theorem updateSeen_withTable (db table noDb noTable : Str) (act : TableM QueryResult) (e : Engine) :
    updateSeen ((withTable db table noDb noTable act).exec e) =
      match Store.table? e.databases db table with
      | none => (.ok none, e.databases)
      | some t => ((act.exec t).1.map QueryResult.affected?,
        Store.modifyTables e.databases db fun tables => tables.modify table fun _ => (act.exec t).2) := by
  rw [exec_withTable, updateSeen]
  rcases actOn_cases e.databases db table noDb noTable act with
    ⟨hNone, hMissing | hMissing⟩ | ⟨t, hThere, hFound⟩
  · rw [hNone, hMissing]
    rfl
  · rw [hNone, hMissing]
    rfl
  · rw [hThere, hFound]

theorem privilegeCheck_update (users : HashMap Str DbUser) (userName : Str) (currentDb : Option Str)
    (table : TableWithJoins) (assignments assignments' : List Assignment)
    (selection selection' : Option Expr) :
    privilegeCheck users userName currentDb [.update table assignments selection] =
      privilegeCheck users userName currentDb [.update table assignments' selection'] := by
  rfl

end PreparedUpdate

-- ---------------------------------------------------------------------------
-- A key that is not there
-- ---------------------------------------------------------------------------

section MissingKey

set_option maxRecDepth 2000

/-- `UPDATE t SET b = value WHERE a = key` -/
def setB (value key : SqlValue) : Statement :=
  .update (.mk (.table [⟨"t", none⟩] []) []) [⟨.columnName [⟨"b", none⟩], .value value⟩]
    (some (.binaryOp (.identifier ⟨"a", none⟩) .eq (.value key)))

local instance preparedUpdatePlatform : Platform := tablePlatform
  [("UPDATE t SET b = ? WHERE a = ?", [setB (.placeholder "?") (.placeholder "?")]),
    ("UPDATE t SET b = 7 WHERE a = 1", [setB (.number "7" false) (.number "1" false)]),
    ("UPDATE t SET b = 7 WHERE a = 2", [setB (.number "7" false) (.number "2" false)])]

/-- `CREATE TABLE t (a INT PRIMARY KEY, b INT)` with the row `(1, 5)`. -/
def keyedTable : Table :=
  (Table.create "test" "t" [⟨"a", .int, false, true⟩, ⟨"b", .int, true, false⟩] []).push
    [.int 1, .int 5]

end MissingKey

end RunAlexDb
