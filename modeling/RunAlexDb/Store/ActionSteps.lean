import RunAlexDb.Statement.Effects
import RunAlexDb.Store.Invariants

/-!
# ActionSteps — what each table action does

One lemma an action: the table it leaves, panic or not, as a run of small steps
or a change of the rows. The invariants of tables are derived from these.
-/

set_option linter.unusedSectionVars false

namespace RunAlexDb

open Text Platform

variable [Platform]

-- ---------------------------------------------------------------------------
-- INSERT and REPLACE
-- ---------------------------------------------------------------------------

/-- The row an INSERT makes of a source row, and the automatic value after it. -/
def Table.sourceRow (t : Table) (names : List Str) (src : Row) : Row × Int64 :=
  if names.isEmpty || t.columns.isEmpty then (src, t.nextAuto)
  else mapRow names src t.columns t.nextAuto

/-- The table one source row leaves. -/
def insertStep (replaceInto : Bool) (names : List Str) (t : Table) (src : Row) : Table :=
  ((insertRow replaceInto names src).exec t).2

/-- The row that REPLACE takes away. -/
def Table.replaced (t : Table) (row : Row) : Option (Nat × Nat) :=
  t.pkColIdx.bind fun p => (t.pkIndex.get (rowPkKey row p)).map fun i => (p, i)

/-- **One row of an INSERT**: the row is pushed, after REPLACE has removed the
row the index has for its key; an entry past the end stops it before. -/
theorem insertStep_eq (replaceInto : Bool) (names : List Str) (t : Table) (src : Row) :
    insertStep replaceInto names t src =
      let row := (t.sourceRow names src).1
      let t₁ := { t with nextAuto := (t.sourceRow names src).2 }
      match (if replaceInto then t.replaced row else none) with
      | none => (t₁.advanceAuto row).push row
      | some (p, i) =>
        if i < t.rows.length then ((t₁.removeRow p i).advanceAuto row).push row else t₁ := by
  rw [insertStep, insertRow, Prog.exec_get_bind, ← Table.sourceRow]
  rcases hSource : t.sourceRow names src with ⟨row, next⟩
  simp only [Prog.exec_set_bind]
  cases replaceInto with
  | false => rfl
  | true =>
    simp only [if_true, Prog.exec_bind, replaceExisting, Prog.exec_get, Table.replaced]
    cases hPk : t.pkColIdx with
    | none => rfl
    | some p =>
      simp only [Option.bind_some]
      cases hEntry : t.pkIndex.get (rowPkKey row p) with
      | none => rfl
      | some i =>
        simp only [Option.map_some]
        by_cases hIn : i < t.rows.length
        · rw [if_pos hIn, if_pos hIn]
          rfl
        · rw [if_neg hIn, if_neg hIn]
          rfl

/-- The elements of two lists related one by one. -/
theorem forall₂_mem {α β : Type} {R : α → β → Prop} {l : List α} {l' : List β}
    (h : List.Forall₂ R l l') : ∀ y ∈ l', ∃ x ∈ l, R x y := by
  induction h with
  | nil => intro y hy; cases hy
  | cons hR _ ih =>
    intro y hy
    rcases List.mem_cons.1 hy with rfl | hRest
    · exact ⟨_, List.mem_cons_self .., hR⟩
    · obtain ⟨x, hx, hxy⟩ := ih y hRest
      exact ⟨x, List.mem_cons_of_mem _ hx, hxy⟩

theorem map_eq_of_forall₂ {α β : Type} {R : α → α → Prop} {l l' : List α} (h : List.Forall₂ R l l')
    {g : α → β} (hg : ∀ x y, R x y → g y = g x) : l'.map g = l.map g := by
  induction h with
  | nil => rfl
  | cons hR _ ih => rw [List.map_cons, List.map_cons, ih, hg _ _ hR]

theorem insert_keeps {I : Table → Prop} {C : Table → Row → Prop} {replaceInto : Bool}
    {names : List Str} (hStep : ∀ t src, I t → C t src → I (insertStep replaceInto names t src))
    {rows : List Row} {t : Table} (hInit : I t)
    (hAlong : Trace.Along (insertStep replaceInto names) C t rows) :
    I ((TableAction.insert replaceInto names rows).result t) := by
  have hLoop : I ((Prog.forEach (insertRow replaceInto names) rows).exec t).2 :=
    Prog.forEach_keeps hStep hInit hAlong
  rw [TableAction.result, TableAction.run, insertRows, Prog.exec_bind]
  split
  · rename_i hRun
    rw [hRun] at hLoop
    exact hLoop
  · rename_i hRun
    rw [hRun] at hLoop
    exact hLoop

/-- A prepared INSERT pushes its rows. -/
theorem exec_insertRowsPrepared (rows : List Row) (t : Table) :
    (insertRowsPrepared rows).exec t =
      (.ok (.ok (UInt64.ofNat rows.length) 0), Trace.run Table.push t rows) := by
  have hLoop : ∀ t : Table, (Prog.forEach (fun row => modify fun t => t.push row) rows :
      TableM Unit).exec t = (.ok (), Trace.run Table.push t rows) := by
    induction rows with
    | nil => intro t; rfl
    | cons row rows ih => intro t; exact ih (t.push row)
  rw [insertRowsPrepared, Prog.exec_bind_ok (hLoop t)]
  rfl

theorem result_insertPrepared (rows : List Row) (t : Table) :
    (TableAction.insertPrepared rows).result t = Trace.run Table.push t rows := by
  rw [TableAction.result, TableAction.run, exec_insertRowsPrepared]

-- ---------------------------------------------------------------------------
-- UPDATE
-- ---------------------------------------------------------------------------

namespace TableAction

/-- The key an UPDATE or a DELETE looks up in the index. -/
def lookup (t : Table) : TableAction → Rust (Option Str)
  | .update _ _ selection => ((pkCondition selection extractPkEq).exec t).1
  | .updatePrepared _ assignments selection bound =>
    ((pkCondition selection
      (boundKey bound (assignments.filter fun a => a.value.isPlaceholder).length)).exec t).1
  | .delete _ selection => ((pkCondition selection extractPkEq).exec t).1
  | _ => .ok none

/-- The assignments of an UPDATE by key, each with the value it makes of a row. -/
def assigns (t : Table) : TableAction → List (Assignment × (Row → Expr → Rust Value))
  | .update now assignments _ => assignments.map fun a => (a, fun r e => evalRowExpr now r t.columns e)
  | .updatePrepared _ assignments _ bound =>
    (bindAssignments t.columns bound 0 assignments).map fun a => (a.1, fun _ _ => pure a.2)
  | _ => []

/-- What a scanning UPDATE does to a row. -/
def scanRow (t : Table) : TableAction → Prog Row Fault Nat
  | .update now assignments selection =>
    updateRow t.columns (rowSelected now t.columns selection)
      (fun r e => evalRowExpr now r t.columns e) assignments
  | .updatePrepared now assignments selection bound =>
    updateRow t.columns (rowSelectedBound now t.columns bound selection)
      (fun r e => evalRowExpr now r t.columns e) assignments
  | _ => pure 0

/-- Whether a scanning DELETE keeps a row. -/
def keepsRow (t : Table) : TableAction → Row → Rust Bool
  | .delete now selection => rowKept (fun w r => evalWhere now r t.columns w) selection
  | .deletePrepared now selection bound =>
    rowKept (fun w r => evalWhereBound now r t.columns bound w) selection
  | _ => fun _ => pure true

end TableAction

/-- The assignments of an UPDATE to row `ri`, in order. -/
def assignRowAt (ri : Nat) (assigns : List (Assignment × (Row → Expr → Rust Value))) :
    TableM Unit := Prog.forEach (fun a => assignAt ri a.2 a.1) assigns

/-- Looking for a key changes nothing. -/
theorem pkCondition_bind {β : Type} (selection : Option Expr) (extract : Str → Expr → Option Str)
    (k : Option Str → TableM β) (t : Table) :
    (pkCondition selection extract >>= k).exec t =
      match ((pkCondition selection extract).exec t).1 with
      | .ok key => (k key).exec t
      | .error fault => (.error fault, t) := by
  have hSame : ((pkCondition selection extract).exec t).2 = t := by
    rw [pkCondition, Prog.exec_get_bind]
    split
    · rw [Prog.exec_bind_return]
      rfl
    · rfl
  rw [Prog.exec_bind]
  rcases hRun : (pkCondition selection extract).exec t with ⟨_ | key, t'⟩ <;> rw [hRun] at hSame <;>
    obtain rfl := hSame <;> rfl

@[simp] theorem columns_writeStores (t : Table) (ri idx : Nat) (v : Value) :
    (t.writeStores ri idx v).columns = t.columns := by cases v <;> rfl

@[simp] theorem rows_writeStores (t : Table) (ri idx : Nat) (v : Value) :
    (t.writeStores ri idx v).rows = t.rows := by cases v <;> rfl

/-- **One assignment by key**: an unknown target and a panic of the value leave
the table; else the stores are written, and the cell if the row has it. -/
theorem assignAt_eq {ri : Nat} (value : Row → Expr → Rust Value) (asgn : Assignment) {t : Table}
    {r : Row} (hRow : t.rows[ri]? = some r) :
    (assignAt ri value asgn).exec t =
      match columnPosition t.columns asgn.target.toString with
      | none => (.ok (), t)
      | some idx =>
        match value r asgn.value with
        | .error fault => (.error fault, t)
        | .ok v =>
          if idx < r.length then
            (.ok (), { t.writeStores ri idx v with rows := t.rows.set ri (r.set idx v) })
          else (.error .panic, t.writeStores ri idx v) := by
  have hGetD : t.rows.getD ri [] = r := by rw [List.getD_eq_getElem?_getD, hRow, Option.getD_some]
  rw [assignAt, Prog.exec_get_bind]
  cases columnPosition t.columns asgn.target.toString with
  | none => rfl
  | some idx =>
    simp only [hGetD, Prog.exec_bind, Prog.exec_ofExcept]
    cases value r asgn.value with
    | error fault => rfl
    | ok v =>
      simp only [Prog.exec_modify, onRow, Prog.zoom, Prog.exec_mk, rows_writeStores, hGetD, assignCell,
        Prog.exec_get_bind]
      by_cases hIn : idx < r.length
      · rw [if_pos hIn, if_pos hIn]
        rfl
      · rw [if_neg hIn, if_neg hIn]
        have hSame : t.rows.set ri r = t.rows := by
          obtain ⟨hLt, rfl⟩ := List.getElem?_eq_some_iff.1 hRow
          exact List.set_getElem_self hLt
        show (Except.error Fault.panic, { t.writeStores ri idx v with rows := t.rows.set ri r }) = _
        rw [hSame, ← rows_writeStores t ri idx v]

/-- The row that assignments leave: the first panic ends them. -/
def assignedRow (cols : List Column) : Row → List (Assignment × (Row → Expr → Rust Value)) → Row
  | r, [] => r
  | r, a :: rest =>
    match columnPosition cols a.1.target.toString, a.2 r a.1.value with
    | none, _ => assignedRow cols r rest
    | some _, .error _ => r
    | some idx, .ok v => if idx < r.length then assignedRow cols (r.set idx v) rest else r

theorem writeStores_eq (t : Table) (ri idx : Nat) (v : Value) :
    ∃ ints strs, t.writeStores ri idx v = { t with colIntData := ints, colStrData := strs } := by
  cases v <;> exact ⟨_, _, rfl⟩

/-- **Assignments by key** change one row, and the stores. -/
theorem assignRowAt_eq {ri : Nat} (assigns : List (Assignment × (Row → Expr → Rust Value))) :
    ∀ {t : Table} {r : Row}, t.rows[ri]? = some r →
      ∃ ints strs, ((assignRowAt ri assigns).exec t).2 =
        { t with
          rows := t.rows.set ri (assignedRow t.columns r assigns)
          colIntData := ints
          colStrData := strs } := by
  have hSame : ∀ {t : Table} {r : Row}, t.rows[ri]? = some r → t.rows.set ri r = t.rows := by
    intro t r hRow
    obtain ⟨hLt, rfl⟩ := List.getElem?_eq_some_iff.1 hRow
    exact List.set_getElem_self hLt
  induction assigns with
  | nil =>
    intro t r hRow
    refine ⟨t.colIntData, t.colStrData, ?_⟩
    rw [assignedRow, hSame hRow]
    rfl
  | cons a rest ih =>
    intro t r hRow
    rw [assignRowAt, Prog.forEach, Prog.exec_bind, assignAt_eq a.2 a.1 hRow, assignedRow]
    cases hPos : columnPosition t.columns a.1.target.toString with
    | none => exact ih hRow
    | some idx =>
      cases hValue : a.2 r a.1.value with
      | error fault => exact ⟨t.colIntData, t.colStrData, by simp only [hSame hRow]⟩
      | ok v =>
        obtain ⟨ints, strs, hStores⟩ := writeStores_eq t ri idx v
        by_cases hIn : idx < r.length
        · simp only [if_pos hIn, hStores]
          have hLt := (List.getElem?_eq_some_iff.1 hRow).1
          obtain ⟨ints', strs', hRest⟩ := ih (t := { t with
            rows := t.rows.set ri (r.set idx v), colIntData := ints, colStrData := strs })
            (r := r.set idx v) (List.getElem?_set_self hLt)
          refine ⟨ints', strs', ?_⟩
          rw [assignRowAt] at hRest
          rw [hRest]
          simp only [List.set_set]
        · simp only [if_neg hIn, hStores]
          exact ⟨ints, strs, by simp only [hSame hRow]⟩

theorem updateScan_keeps {I : Table → Prop} {t : Table} {cond : Row → Rust Bool}
    {value : Row → Expr → Rust Value} {assignments : List Assignment}
    (hScan : I { t with
      rows := ((Prog.iterMut (updateRow t.columns cond value assignments)).exec t.rows).2 }) :
    I ((updateScan cond value assignments).exec t).2 := by
  rw [updateScan, Prog.exec_get_bind, Prog.exec_bind_return]
  exact hScan

/-- **UPDATE.** What an UPDATE keeps: by key, its assignments to the row the
index has; by scanning, those to one row after the other. -/
theorem update_keeps {I : Table → Prop} {a : TableAction} {t : Table}
    (hUpdate : (∃ now assignments selection, a = .update now assignments selection) ∨
      ∃ now assignments selection bound, a = .updatePrepared now assignments selection bound)
    (hInit : I t)
    (hKey : ∀ key ri, a.lookup t = .ok (some key) → t.pkIndex.get key = some ri →
      ri < t.rows.length → I ((assignRowAt ri (a.assigns t)).exec t).2)
    (hScan : a.lookup t = .ok none →
      I { t with rows := ((Prog.iterMut (a.scanRow t)).exec t.rows).2 }) : I (a.result t) := by
  rcases hUpdate with ⟨now, assignments, selection, rfl⟩ | ⟨now, assignments, selection, bound, rfl⟩
  · rw [TableAction.result, TableAction.run, updateTable, Prog.exec_get_bind, pkCondition_bind]
    rw [TableAction.lookup] at hKey hScan
    rcases hLookup : ((pkCondition selection extractPkEq).exec t).1 with fault | _ | key
    · exact hInit
    · exact updateScan_keeps (hScan hLookup)
    · simp only [updateKey, Prog.exec_get_bind]
      cases hEntry : t.pkIndex.get key with
      | none => exact hInit
      | some ri =>
        simp only
        by_cases hIn : ri < t.rows.length
        · have hAssigned := hKey key ri hLookup hEntry hIn
          rw [assignRowAt, TableAction.assigns, Prog.forEach_map] at hAssigned
          rw [if_pos hIn, Prog.exec_bind_return]
          exact hAssigned
        · rw [if_neg hIn]
          exact hInit
  · rw [TableAction.result, TableAction.run, updateTablePrepared, Prog.exec_get_bind,
      pkCondition_bind]
    rw [TableAction.lookup] at hKey hScan
    generalize hParams : (assignments.filter fun a => a.value.isPlaceholder).length = params at *
    rcases hLookup : ((pkCondition selection (boundKey bound params)).exec t).1 with fault | _ | key
    · exact hInit
    · exact updateScan_keeps (hScan hLookup)
    · simp only [updateKeyPrepared, Prog.exec_get_bind]
      cases hEntry : t.pkIndex.get key with
      | none => exact hInit
      | some ri =>
        simp only
        by_cases hIn : ri < t.rows.length
        · have hAssigned := hKey key ri hLookup hEntry hIn
          rw [assignRowAt, TableAction.assigns, Prog.forEach_map] at hAssigned
          rw [if_pos hIn, Prog.exec_bind_return]
          exact hAssigned
        · rw [if_neg hIn]
          exact hInit

-- ---------------------------------------------------------------------------
-- DELETE, TRUNCATE, ALTER
-- ---------------------------------------------------------------------------

theorem swapRemove_map {α β : Type} (g : α → β) (l : List α) (i : Nat) :
    swapRemove (l.map g) i = (swapRemove l i).map g := by
  rw [swapRemove, swapRemove, List.getLast?_map, List.length_map]
  cases l.getLast? with
  | none => rfl
  | some x =>
    simp only [Option.map_some]
    split
    · rw [List.map_dropLast, List.map_set]
    · rfl

theorem deleteScan_keeps {I : Table → Prop} {t : Table} {keep : Row → Rust Bool}
    (hAll : ∀ rows, rows.Sublist t.rows → (∀ r ∈ t.rows, ∃ b, keep r = .ok b) →
      I (Table.rebuild { t with rows := rows }))
    (hPanic : ∀ rows, rows.Sublist t.rows → (∃ r ∈ t.rows, ∃ fault, keep r = .error fault) →
      I { t with rows := rows }) :
    I ((deleteScan keep).exec t).2 := by
  have hSub := Prog.exec_retain_sublist keep t.rows
  have hOnRows : (onRows (Prog.retain keep)).exec t = (((Prog.retain keep).exec t.rows).1,
      { t with rows := ((Prog.retain keep).exec t.rows).2 }) := rfl
  rw [deleteScan, Prog.exec_bind, hOnRows]
  cases hRun : ((Prog.retain keep).exec t.rows).1 with
  | ok _ => exact hAll _ hSub (Prog.decided_of_retain hRun)
  | error fault =>
    refine hPanic _ hSub ?_
    by_contra hNone
    have hDecided : ∀ r ∈ t.rows, keep r = .ok (decide (keep r = .ok true)) := by
      intro r hr
      cases hKeep : keep r with
      | error fault => exact absurd ⟨r, hr, fault, hKeep⟩ hNone
      | ok b => cases b <;> rfl
    rw [Prog.exec_retain_ok hDecided] at hRun
    cases hRun

/-- **DELETE.** What a DELETE keeps: by key, the removal of the row the index
has; by scanning, the removal of rows and the rebuilding of index and stores,
which a panic leaves out. -/
theorem delete_keeps {I : Table → Prop} {a : TableAction} {t : Table}
    (hDelete : (∃ now selection, a = .delete now selection) ∨
      ∃ now selection bound, a = .deletePrepared now selection bound)
    (hInit : I t)
    (hKey : ∀ key p, a.lookup t = .ok (some key) → t.pkColIdx = some p → I (t.deleteKey p key))
    (hAll : ∀ rows, rows.Sublist t.rows → (∀ r ∈ t.rows, ∃ b, a.keepsRow t r = .ok b) →
      I (Table.rebuild { t with rows := rows }))
    (hPanic : ∀ rows, a.lookup t = .ok none → rows.Sublist t.rows →
      (∃ r ∈ t.rows, ∃ fault, a.keepsRow t r = .error fault) → I { t with rows := rows }) :
    I (a.result t) := by
  rcases hDelete with ⟨now, selection, rfl⟩ | ⟨now, selection, bound, rfl⟩
  · rw [TableAction.result, TableAction.run, deleteTable, Prog.exec_get_bind, pkCondition_bind]
    rw [TableAction.lookup] at hKey hPanic
    have hReturn : ∀ m : TableM Unit, I (m.exec t).2 → I ((m >>= fun _ => do
        let t' ← get
        return QueryResult.ok (UInt64.ofNat (t.rows.length - t'.rows.length)) 0).exec t).2 := by
      intro m hm
      rw [Prog.exec_bind]
      rcases hRun : m.exec t with ⟨_ | _, t'⟩ <;> rw [hRun] at hm <;> exact hm
    rcases hLookup : ((pkCondition selection extractPkEq).exec t).1 with fault | _ | key
    · exact hInit
    · exact hReturn _ (deleteScan_keeps hAll fun rows => hPanic rows hLookup)
    · simp only
      cases hPk : t.pkColIdx with
      | none =>
        simp only [pkCondition, Prog.exec_get_bind, hPk] at hLookup
        cases hLookup
      | some p => exact hKey key p hLookup hPk
  · rw [TableAction.result, TableAction.run, deleteTablePrepared, Prog.exec_get_bind, Prog.exec_bind]
    have hScan := deleteScan_keeps hAll fun rows => hPanic rows rfl
    simp only [TableAction.keepsRow] at hScan
    rcases hRun : (deleteScan (rowKept (fun w r => evalWhereBound now r t.columns bound w)
      selection)).exec t with ⟨_ | _, t'⟩ <;> rw [hRun] at hScan <;> exact hScan

/-- The table one operation of ALTER TABLE leaves. -/
def alterStep (t : Table) (op : AlterTableOperation) : Table :=
  match t.alter op with
  | .ok t' => t'
  | .error _ => t

/-- **ALTER TABLE** performs its operations up to the first error. -/
theorem alter_keeps {I : Table → Prop} {C : Table → AlterTableOperation → Prop}
    (hStep : ∀ t op, I t → C t op → I (alterStep t op)) {operations : List AlterTableOperation}
    {t : Table} (hInit : I t) (hAlong : Trace.Along alterStep C t operations) :
    I ((TableAction.alter operations).result t) := by
  rw [TableAction.result, TableAction.run]
  induction operations generalizing t with
  | nil => exact hInit
  | cons op rest ih =>
    have hOne := hStep t op hInit hAlong.1
    have hRest := hAlong.2
    rw [alterStep] at hOne hRest
    rw [alterTable, Prog.exec_get_bind]
    cases hAlter : t.alter op with
    | error other => exact hInit
    | ok t' =>
      rw [hAlter] at hOne hRest
      exact ih hOne hRest

end RunAlexDb
