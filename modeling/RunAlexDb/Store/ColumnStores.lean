import Mathlib.Data.List.InsertIdx
import RunAlexDb.Store.RowWidths

/-!
# ColumnStores — the column stores repeat the rows

The SIMD scans read the column stores, which every operation maintains by hand.
They stay exact but for three: an UPDATE by scanning writes the rows only, an
UPDATE by key writes an integer to the integer store and a text to the text
store and nothing else, and CREATE TABLE AS SELECT starts with empty stores
under its rows.

Main result: `storesExact_run`.
-/

set_option linter.unusedSectionVars false

namespace RunAlexDb

open Text Platform

section ColumnStores

variable [Platform]

-- ---------------------------------------------------------------------------
-- One kind of store
-- ---------------------------------------------------------------------------

/-- The stores there are hold the images of the rows, column by column. -/
def Repeats {α : Type} (image : Option Value → α) (rows : List Row)
    (data : List (Option (List α))) : Prop :=
  ∀ (ci : Nat) v, data[ci]? = some (some v) → v = rows.map fun r => image r[ci]?

theorem storesExact_iff {t : Table} :
    StoresExact t ↔ Repeats intImage t.rows t.colIntData ∧ Repeats strImage t.rows t.colStrData :=
  ⟨fun h => ⟨h.int, h.str⟩, fun h => ⟨h.1, h.2⟩⟩

section OneKind

variable {α : Type} {image : Option Value → α} {rows : List Row} {data : List (Option (List α))}

theorem repeats_push (h : Repeats image rows data) (row : Row) :
    Repeats image (rows ++ [row]) (pushStores image row data) := by
  intro ci v hGet
  rw [pushStores, List.getElem?_mapIdx] at hGet
  obtain ⟨store, hStore, hMap⟩ := Option.map_eq_some_iff.1 hGet
  obtain ⟨v₀, rfl, rfl⟩ := Option.map_eq_some_iff.1 hMap
  rw [h ci v₀ hStore, List.map_append]
  rfl

/-- Rows and stores changed alike. -/
theorem repeats_mapStores (h : Repeats image rows data) {rows' : List Row} {f : List α → List α}
    (hf : ∀ g : Row → α, f (rows.map g) = rows'.map g) : Repeats image rows' (mapStores f data) := by
  intro ci v hGet
  rw [mapStores, List.getElem?_map] at hGet
  obtain ⟨store, hStore, hMap⟩ := Option.map_eq_some_iff.1 hGet
  obtain ⟨v₀, rfl, rfl⟩ := Option.map_eq_some_iff.1 hMap
  rw [h ci v₀ hStore, hf]

theorem repeats_rebuild (rows : List Row) (data : List (Option (List α))) :
    Repeats image rows (rebuildStores image rows data) := by
  intro ci v hGet
  rw [rebuildStores, List.getElem?_mapIdx] at hGet
  obtain ⟨store, -, hMap⟩ := Option.map_eq_some_iff.1 hGet
  obtain ⟨_, -, rfl⟩ := Option.map_eq_some_iff.1 hMap
  rfl

/-- Other rows with the same images where there are stores. -/
theorem repeats_rows (h : Repeats image rows data) {rows' : List Row}
    (hSame : List.Forall₂ (fun r r' => ∀ (ci : Nat) v, data[ci]? = some (some v) →
      image r'[ci]? = image r[ci]?) rows rows') : Repeats image rows' data := by
  intro ci v hGet
  rw [h ci v hGet]
  exact (map_eq_of_forall₂ hSame fun r r' hr => hr ci v hGet).symm

theorem repeats_dropColumn (h : Repeats image rows data) (i : Nat) :
    Repeats image (rows.map (·.eraseIdx i)) (data.eraseIdx i) := by
  intro ci v hGet
  rw [List.getElem?_eraseIdx] at hGet
  rw [List.map_map]
  split at hGet
  · rename_i hLt
    rw [h ci v hGet]
    refine List.map_congr_left fun r _ => ?_
    rw [Function.comp_apply, List.getElem?_eraseIdx, if_pos hLt]
  · rename_i hLt
    rw [h (ci + 1) v hGet]
    refine List.map_congr_left fun r _ => ?_
    rw [Function.comp_apply, List.getElem?_eraseIdx, if_neg hLt]

/-- A new last column of NULLs. -/
theorem getElem?_append_null (image : Option Value → α) (hNone : image (some .null) = image none)
    (r : Row) (ci : Nat) : image (r ++ [.null])[ci]? = image r[ci]? := by
  rw [List.getElem?_append]
  split
  · rfl
  · rename_i hLe
    rw [List.getElem?_eq_none (Nat.le_of_not_lt hLe)]
    cases hIdx : ci - r.length with
    | zero => exact hNone
    | succ n => rfl

theorem repeats_pad (h : Repeats image rows data) (hNone : image (some .null) = image none)
    (n : Nat) : Repeats image (rows.map (· ++ [.null])) (data ++ List.replicate n none) := by
  intro ci v hGet
  have hOld : data[ci]? = some (some v) := by
    rw [List.getElem?_append] at hGet
    split at hGet
    · exact hGet
    · rw [List.getElem?_replicate] at hGet
      split at hGet
      · cases hGet
      · cases hGet
  rw [h ci v hOld, List.map_map]
  exact List.map_congr_left fun r _ => (getElem?_append_null image hNone r ci).symm

/-- One store set to the images of its column. -/
theorem repeats_set (h : Repeats image rows data) {ci : Nat} {v : List α}
    (hv : v = rows.map fun r => image r[ci]?) : Repeats image rows (data.set ci (some v)) := by
  intro ci' v' hGet
  rw [List.getElem?_set] at hGet
  split at hGet
  · rename_i hSame
    split at hGet
    · obtain rfl := Option.some.inj (Option.some.inj hGet)
      rw [← hSame]
      exact hv
    · cases hGet
  · exact h ci' v' hGet

/-- One cell written to row and store. -/
theorem repeats_write (h : Repeats image rows data) {ri idx : Nat} {r : Row} {x : Value}
    (hRow : rows[ri]? = some r) (hIn : idx < r.length) :
    Repeats image (rows.set ri (r.set idx x))
      (data.modify idx (Option.map (·.set ri (image (some x))))) := by
  intro ci v hGet
  rw [List.map_set]
  rw [List.getElem?_modify] at hGet
  obtain ⟨store, hStore, hMap⟩ := Option.map_eq_some_iff.1 hGet
  by_cases hSame : idx = ci
  · subst hSame
    rw [if_pos rfl] at hMap
    obtain ⟨v₀, rfl, rfl⟩ := Option.map_eq_some_iff.1 hMap
    rw [h idx v₀ hStore, List.getElem?_set_self hIn]
  · rw [if_neg hSame] at hMap
    obtain rfl := hMap
    rw [h ci v hStore, List.getElem?_set_ne hSame]
    have hOld : (rows.map fun r => image r[ci]?)[ri]? = some (image r[ci]?) := by
      rw [List.getElem?_map, hRow]
      rfl
    obtain ⟨hLt, hEq⟩ := List.getElem?_eq_some_iff.1 hOld
    rw [← hEq, List.set_getElem_self]

/-- One cell written to the row alone: a value with the image of the old one. -/
theorem repeats_cell (h : Repeats image rows data) {ri idx : Nat} {r : Row} {x : Value}
    (hRow : rows[ri]? = some r) (hIn : idx < r.length)
    (hSame : ∀ v, data[idx]? = some (some v) → image (some x) = image r[idx]?) :
    Repeats image (rows.set ri (r.set idx x)) data := by
  intro ci v hGet
  rw [h ci v hGet, List.map_set]
  have hOld : (rows.map fun r => image r[ci]?)[ri]? = some (image (r.set idx x)[ci]?) := by
    rw [List.getElem?_map, hRow, Option.map_some]
    by_cases hAt : idx = ci
    · subst hAt
      rw [List.getElem?_set_self hIn, hSame v hGet]
    · rw [List.getElem?_set_ne hAt]
  obtain ⟨hLt, hEq⟩ := List.getElem?_eq_some_iff.1 hOld
  rw [← hEq, List.set_getElem_self]

end OneKind

-- ---------------------------------------------------------------------------
-- What the stores demand of an action
-- ---------------------------------------------------------------------------

/-- Column `ci` has an integer store. -/
def Table.hasInt (t : Table) (ci : Nat) : Prop := ∃ v, t.colIntData[ci]? = some (some v)

/-- Column `ci` has a text store. -/
def Table.hasStr (t : Table) (ci : Nat) : Prop := ∃ v, t.colStrData[ci]? = some (some v)

/-- The stores hold the same of two rows. -/
structure SameImages (t : Table) (r r' : Row) : Prop where
  int : ∀ ci, t.hasInt ci → intImage r'[ci]? = intImage r[ci]?
  str : ∀ ci, t.hasStr ci → strImage r'[ci]? = strImage r[ci]?

/-- Writing `v` through to the stores of column `idx` is enough: an integer
store gets an integer, or held 0 for the row and still does; a text store gets a
text, or held the empty one. -/
structure WriteFits (t : Table) (r : Row) (idx : Nat) (v : Value) : Prop where
  inRow : idx < r.length
  int : t.hasInt idx → (∃ n, v = .int n) ∨ intImage r[idx]? = 0
  str : t.hasStr idx → (∃ s, v = .text s) ∨ strImage r[idx]? = []

/-- The assignments of an UPDATE by key, each on the row the ones before it
leave. -/
def AssignsFit (t : Table) : Row → List (Assignment × (Row → Expr → Rust Value)) → Prop
  | _, [] => True
  | r, a :: rest =>
    match columnPosition t.columns a.1.target.toString, a.2 r a.1.value with
    | none, _ => AssignsFit t r rest
    | some _, .error _ => True
    | some idx, .ok v => WriteFits t r idx v ∧ AssignsFit t (r.set idx v) rest

/-- What an UPDATE may do: by key, assignments that the stores take; by
scanning, nothing that the stores would have to follow. -/
def updateFits (t : Table) (a : TableAction) : Prop :=
  (∀ key ri r, a.lookup t = .ok (some key) → t.pkIndex.get key = some ri → t.rows[ri]? = some r →
    AssignsFit t r (a.assigns t)) ∧
  (a.lookup t = .ok none → ∀ r ∈ t.rows, SameImages t r ((a.scanRow t).exec r).2)

/-- A DELETE by scanning decides its condition on every row. -/
def deleteFits (t : Table) (a : TableAction) : Prop :=
  a.lookup t = .ok none → ∀ r ∈ t.rows, ∃ b, a.keepsRow t r = .ok b

/-- A new column with a store finds no cell with an image in its place. -/
def alterFits (t : Table) : AlterTableOperation → Prop
  | .addColumn columnDef =>
    ((sqlTypeToColType columnDef.dataType).isInt = true →
      ∀ r ∈ t.rows, intImage r[t.columns.length]? = 0) ∧
    ((sqlTypeToColType columnDef.dataType).isStr = true →
      ∀ r ∈ t.rows, strImage r[t.columns.length]? = [])
  | _ => True

def storesFit (t : Table) (a : TableAction) : Prop :=
  match a with
  | .update .. | .updatePrepared .. => updateFits t a
  | .delete .. | .deletePrepared .. => deleteFits t a
  | .alter operations => Trace.Along alterStep alterFits t operations
  | .insert .. | .insertPrepared _ | .truncate => True

-- ---------------------------------------------------------------------------
-- Actions
-- ---------------------------------------------------------------------------

theorem storesExact_push {t : Table} (h : StoresExact t) (row : Row) : StoresExact (t.push row) :=
  ⟨repeats_push h.int row, repeats_push h.str row⟩

theorem storesExact_advanceAuto {t : Table} (h : StoresExact t) (row : Row) :
    StoresExact (t.advanceAuto row) := by
  rw [Table.advanceAuto]
  split
  · split
    · exact ⟨h.int, h.str⟩
    · exact h
  · exact h

theorem storesExact_insertStep {t : Table} (h : StoresExact t) (replaceInto : Bool)
    (names : List Str) (src : Row) : StoresExact (insertStep replaceInto names t src) := by
  have hAuto : StoresExact { t with nextAuto := (t.sourceRow names src).2 } := ⟨h.int, h.str⟩
  rw [insertStep_eq]
  simp only
  split
  · exact storesExact_push (storesExact_advanceAuto hAuto _) _
  · rename_i p i _
    split
    · refine storesExact_push (storesExact_advanceAuto ⟨?_, ?_⟩ _) _
      · exact repeats_mapStores h.int fun g => List.eraseIdx_map ..
      · exact repeats_mapStores h.str fun g => List.eraseIdx_map ..
    · exact hAuto

theorem storesExact_write {t : Table} (h : StoresExact t) {ri idx : Nat} {r : Row} {v : Value}
    (hRow : t.rows[ri]? = some r) (hFit : WriteFits t r idx v) :
    StoresExact { t.writeStores ri idx v with rows := t.rows.set ri (r.set idx v) } := by
  have hInt : (∀ n, v ≠ .int n) → Repeats intImage (t.rows.set ri (r.set idx v)) t.colIntData := by
    intro hNot
    refine repeats_cell h.int hRow hFit.inRow fun w hw => ?_
    rcases hFit.int ⟨w, hw⟩ with ⟨n, rfl⟩ | hZero
    · exact absurd rfl (hNot n)
    · rw [hZero]
      cases v with
      | int n => exact absurd rfl (hNot n)
      | _ => rfl
  have hStr : (∀ s, v ≠ .text s) → Repeats strImage (t.rows.set ri (r.set idx v)) t.colStrData := by
    intro hNot
    refine repeats_cell h.str hRow hFit.inRow fun w hw => ?_
    rcases hFit.str ⟨w, hw⟩ with ⟨s, rfl⟩ | hEmpty
    · exact absurd rfl (hNot s)
    · rw [hEmpty]
      cases v with
      | text s => exact absurd rfl (hNot s)
      | _ => rfl
  cases v with
  | int n => exact ⟨repeats_write (x := .int n) h.int hRow hFit.inRow, hStr (by intro s hs; cases hs)⟩
  | text s => exact ⟨hInt (by intro n hn; cases hn), repeats_write (x := .text s) h.str hRow hFit.inRow⟩
  | null => exact ⟨hInt (by intro n hn; cases hn), hStr (by intro s hs; cases hs)⟩
  | float f => exact ⟨hInt (by intro n hn; cases hn), hStr (by intro s hs; cases hs)⟩
  | bytes b => exact ⟨hInt (by intro n hn; cases hn), hStr (by intro s hs; cases hs)⟩

/-- Tables with the same columns and the same stores, whatever is in them. -/
structure SameShape (t t' : Table) : Prop where
  columns : t'.columns = t.columns
  int : ∀ ci, t'.hasInt ci ↔ t.hasInt ci
  str : ∀ ci, t'.hasStr ci ↔ t.hasStr ci

theorem stored_modify {α : Type} (data : List (Option (List α))) (idx ci : Nat) (f : List α → List α) :
    (∃ v, (data.modify idx (Option.map f))[ci]? = some (some v)) ↔
      ∃ v, data[ci]? = some (some v) := by
  rw [List.getElem?_modify]
  rcases data[ci]? with _ | _ | v
  · simp
  · by_cases hAt : idx = ci <;> simp [hAt]
  · by_cases hAt : idx = ci <;> simp [hAt]

theorem sameShape_write (t : Table) (ri idx : Nat) (v : Value) (rows : List Row) :
    SameShape t { t.writeStores ri idx v with rows := rows } := by
  cases v with
  | int n => exact ⟨rfl, fun ci => stored_modify _ _ _ _, fun ci => Iff.rfl⟩
  | text s => exact ⟨rfl, fun ci => Iff.rfl, fun ci => stored_modify _ _ _ _⟩
  | _ => exact ⟨rfl, fun ci => Iff.rfl, fun ci => Iff.rfl⟩

theorem AssignsFit.congr {t t' : Table} (hShape : SameShape t t')
    {assigns : List (Assignment × (Row → Expr → Rust Value))} :
    ∀ {r : Row}, AssignsFit t r assigns → AssignsFit t' r assigns := by
  induction assigns with
  | nil => intro r h; trivial
  | cons a rest ih =>
    intro r h
    rw [AssignsFit] at h ⊢
    rw [hShape.columns]
    split
    · rename_i hPos
      rw [hPos] at h
      exact ih h
    · trivial
    · rename_i idx v hPos hValue
      rw [hPos, hValue] at h
      refine ⟨⟨h.1.inRow, fun hHas => h.1.int ((hShape.int idx).1 hHas), fun hHas =>
        h.1.str ((hShape.str idx).1 hHas)⟩, ih h.2⟩

/-- UPDATE by key. -/
theorem storesExact_assignRowAt {ri : Nat} {assigns : List (Assignment × (Row → Expr → Rust Value))} :
    ∀ {t : Table} {r : Row}, StoresExact t → t.rows[ri]? = some r → AssignsFit t r assigns →
      StoresExact ((assignRowAt ri assigns).exec t).2 := by
  induction assigns with
  | nil => intro t r h _ _; exact h
  | cons a rest ih =>
    intro t r h hRow hFit
    rw [AssignsFit] at hFit
    rw [assignRowAt, Prog.forEach, Prog.exec_bind, assignAt_eq a.2 a.1 hRow]
    cases hPos : columnPosition t.columns a.1.target.toString with
    | none =>
      rw [hPos] at hFit
      exact ih h hRow hFit
    | some idx =>
      rw [hPos] at hFit
      cases hValue : a.2 r a.1.value with
      | error fault => exact h
      | ok v =>
        rw [hValue] at hFit
        obtain ⟨hWrite, hRest⟩ := hFit
        simp only [if_pos hWrite.inRow]
        have hLt := (List.getElem?_eq_some_iff.1 hRow).1
        exact ih (storesExact_write h hRow hWrite) (List.getElem?_set_self hLt)
          (hRest.congr (sameShape_write t ri idx v _))

theorem storesExact_addColumn {t : Table} (h : StoresExact t) (name : Str) {colType : ColumnType}
    (hInt : colType.isInt = true → ∀ r ∈ t.rows, intImage r[t.columns.length]? = 0)
    (hStr : colType.isStr = true → ∀ r ∈ t.rows, strImage r[t.columns.length]? = []) :
    StoresExact (t.addColumn name colType) := by
  have hZeros : ∀ {α : Type} {image : Option Value → α} {zero : α},
      image (some .null) = image none → (∀ r ∈ t.rows, image r[t.columns.length]? = zero) →
        (t.rows.map fun _ => zero) =
          (t.rows.map (· ++ [Value.null])).map fun r => image r[t.columns.length]? := by
    intro α image zero hNone hZero
    rw [List.map_map]
    refine List.map_congr_left fun r hr => ?_
    rw [Function.comp_apply, getElem?_append_null image hNone, hZero r hr]
  have hPadInt := repeats_pad h.int rfl (t.columns.length + 1 - t.colIntData.length)
  have hPadStr := repeats_pad h.str rfl (t.columns.length + 1 - t.colStrData.length)
  refine storesExact_iff.2 ⟨?_, ?_⟩
  · simp only [Table.addColumn]
    split
    · rename_i hKind
      exact repeats_set hPadInt (hZeros rfl (hInt hKind))
    · exact hPadInt
  · simp only [Table.addColumn]
    split
    · rename_i hKind
      exact repeats_set hPadStr (hZeros rfl (hStr hKind))
    · exact hPadStr

theorem storesExact_alterStep {t : Table} (h : StoresExact t) {op : AlterTableOperation}
    (hFit : alterFits t op) : StoresExact (alterStep t op) := by
  rw [alterStep]
  cases hAlter : t.alter op with
  | error other => exact h
  | ok t' =>
    cases op with
    | addColumn columnDef =>
      simp only [Table.alter] at hAlter
      split at hAlter
      · cases hAlter
      · obtain rfl := Except.ok.inj hAlter
        exact storesExact_addColumn h _ hFit.1 hFit.2
    | dropColumn columnName =>
      simp only [Table.alter] at hAlter
      split at hAlter
      · cases hAlter
      · split at hAlter
        · cases hAlter
        · obtain rfl := Except.ok.inj hAlter
          exact ⟨repeats_dropColumn h.int _, repeats_dropColumn h.str _⟩
    | renameColumn oldColumnName newColumnName =>
      simp only [Table.alter] at hAlter
      split at hAlter
      · cases hAlter
      · obtain rfl := Except.ok.inj hAlter
        exact ⟨h.int, h.str⟩
    | other text =>
      obtain rfl := Except.ok.inj hAlter
      exact h

theorem storesExact_deleteKey {t : Table} (h : StoresExact t) (p : Nat) (key : Str) :
    StoresExact (t.deleteKey p key) := by
  rw [Table.deleteKey]
  split
  · exact h
  · simp only
    split
    · exact ⟨repeats_mapStores h.int fun g => swapRemove_map g _ _,
        repeats_mapStores h.str fun g => swapRemove_map g _ _⟩
    · exact ⟨h.int, h.str⟩

-- ---------------------------------------------------------------------------
-- The law
-- ---------------------------------------------------------------------------

theorem storesExact_result {t : Table} (h : StoresExact t) {a : TableAction} (hFit : storesFit t a) :
    StoresExact (a.result t) := by
  have hUpdate : ∀ a : TableAction, ((∃ now assignments selection, a = .update now assignments
      selection) ∨ ∃ now assignments selection bound, a = .updatePrepared now assignments selection
        bound) → updateFits t a → StoresExact (a.result t) := by
    intro a hShape hFit
    refine update_keeps hShape h (fun key ri hLookup hEntry hIn => ?_) fun hLookup => ?_
    · have hRow := List.getElem?_eq_getElem hIn
      exact storesExact_assignRowAt h hRow (hFit.1 key ri _ hLookup hEntry hRow)
    · have hRows := Prog.exec_iterMut_forall (a.scanRow t) t.rows
      have hSame : List.Forall₂ (SameImages t) t.rows
          ((Prog.iterMut (a.scanRow t)).exec t.rows).2 := by
        have hIn := (List.forall₂_and_left (p := (· ∈ t.rows)) _ _).2 ⟨fun _ hr => hr, hRows⟩
        refine hIn.imp ?_
        rintro r r' ⟨hr, rfl | rfl⟩
        · exact ⟨fun _ _ => rfl, fun _ _ => rfl⟩
        · exact hFit.2 hLookup r hr
      exact ⟨repeats_rows h.int (hSame.imp fun r r' hr ci v hv => hr.int ci ⟨v, hv⟩),
        repeats_rows h.str (hSame.imp fun r r' hr ci v hv => hr.str ci ⟨v, hv⟩)⟩
  have hDelete : ∀ a : TableAction, ((∃ now selection, a = .delete now selection) ∨
      ∃ now selection bound, a = .deletePrepared now selection bound) → deleteFits t a →
        StoresExact (a.result t) := by
    intro a hShape hFit
    refine delete_keeps hShape h (fun key p _ _ => storesExact_deleteKey h p key)
      (fun rows _ _ => ⟨repeats_rebuild _ _, repeats_rebuild _ _⟩) fun rows hLookup _ hPanic => ?_
    obtain ⟨r, hr, fault, hFault⟩ := hPanic
    obtain ⟨b, hb⟩ := hFit hLookup r hr
    rw [hFault] at hb
    cases hb
  cases a with
  | insert replaceInto names rows =>
    exact insert_keeps (I := StoresExact) (fun t src ht _ => storesExact_insertStep ht replaceInto names src) h
      (Trace.along_true t rows)
  | insertPrepared rows =>
    rw [result_insertPrepared]
    exact Trace.invariant_run_all (I := StoresExact) (fun t row ht => storesExact_push ht row) h rows
  | update now assignments selection => exact hUpdate _ (.inl ⟨_, _, _, rfl⟩) hFit
  | updatePrepared now assignments selection bound => exact hUpdate _ (.inr ⟨_, _, _, _, rfl⟩) hFit
  | delete now selection => exact hDelete _ (.inl ⟨_, _, rfl⟩) hFit
  | deletePrepared now selection bound => exact hDelete _ (.inr ⟨_, _, _, rfl⟩) hFit
  | truncate =>
    exact ⟨repeats_mapStores h.int fun _ => rfl, repeats_mapStores h.str fun _ => rfl⟩
  | alter operations =>
    exact alter_keeps (I := StoresExact) (fun t op ht hOp => storesExact_alterStep ht hOp) h hFit

/-- The stores of every table repeat its rows, as long as no operation leaves
them behind. A table made with rows has no stores. -/
def storesLaw : TableLaw where
  holds := StoresExact
  act := storesFit
  put columns rows := rows = [] ∨ ∀ c ∈ columns, c.colType.isInt = false ∧ c.colType.isStr = false
  holds_act _ _ h hFit := storesExact_result h hFit
  holds_put schema name columns rows h := by
    have hEmpty : ∀ {α : Type} {image : Option Value → α} {kind : ColumnType → Bool},
        (rows = [] ∨ ∀ c ∈ columns, kind c.colType = false) →
          Repeats image rows (columns.map fun c => if kind c.colType then some [] else none) := by
      intro α image kind hCase ci v hGet
      rw [List.getElem?_map] at hGet
      obtain ⟨c, hc, hStore⟩ := Option.map_eq_some_iff.1 hGet
      split at hStore
      · rename_i hKind
        obtain rfl := Option.some.inj hStore
        rcases hCase with rfl | hNone
        · rfl
        · rw [hNone c (List.mem_of_getElem? hc)] at hKind
          cases hKind
      · cases hStore
    exact storesExact_iff.2 ⟨hEmpty (h.imp_right fun hNone c hc => (hNone c hc).1),
      hEmpty (h.imp_right fun hNone c hc => (hNone c hc).2)⟩

/-- **Column stores.** After every run of calls, logins and transactions from
`Engine::new` in which no operation leaves the stores behind, every store of
every table has one entry a row: the integer of the cell, or 0, and the text of
the cell, or the empty one. -/
theorem storesExact_run (rootPassword : Str) {moves : List Move}
    (hFits : Trace.Along World.step storesLaw.Meets (World.fresh rootPassword) moves) :
    (Trace.run World.step (World.fresh rootPassword) moves).Each StoresExact :=
  storesLaw.holds_run rootPassword hFits

end ColumnStores

-- ---------------------------------------------------------------------------
-- A store left behind
-- ---------------------------------------------------------------------------

section LeftBehind

set_option maxRecDepth 2000

/-- `UPDATE t SET a = n` -/
def setA (n : Str) : Statement :=
  .update (.mk (.table [⟨"t", none⟩] []) [])
    [⟨.columnName [⟨"a", none⟩], .value (.number n false)⟩] none

local instance columnStoresPlatform : Platform := tablePlatform
  [("CREATE TABLE t (a INT)", [.createTable {
      name := [⟨"t", none⟩], columns := [⟨⟨"a", none⟩, .int, []⟩], ifNotExists := false
      query := none }]),
    ("INSERT INTO t VALUES (1)", [insertNumbers ["1"]]),
    ("UPDATE t SET a = 2", [setA "2"])]

noncomputable instance (t : Table) : ∀ a, Decidable (storesLaw.act t a)
  | .insert .. | .insertPrepared _ | .truncate => isTrue trivial
  | .update .. | .updatePrepared .. | .delete .. | .deletePrepared .. | .alter _ =>
    Classical.propDecidable _

instance (columns : List Column) (rows : List Row) : Decidable (storesLaw.put columns rows) :=
  inferInstanceAs (Decidable (rows = [] ∨
    ∀ c ∈ columns, c.colType.isInt = false ∧ c.colType.isStr = false))

theorem storesExact_run_one :
    (Trace.run World.step (World.fresh []) (createThen "INSERT INTO t VALUES (1)")).Each
      StoresExact :=
  storesExact_run [] (by decide +kernel)

/-- An UPDATE without a condition scans: the row holds 2, the store 1. -/
theorem not_storesExact_run :
    ¬ ∀ (rootPassword : Str) (moves : List Move),
      (Trace.run World.step (World.fresh rootPassword) moves).Each StoresExact := by
  intro hAll
  have hRun := hAll [] (createThen "INSERT INTO t VALUES (1)" ++
    [.call "root" (.text 0 "UPDATE t SET a = 2" none)])
  have hTable : (findTable (Trace.run World.step (World.fresh [])
      (createThen "INSERT INTO t VALUES (1)" ++ [.call "root" (.text 0 "UPDATE t SET a = 2" none)])
        ).engine.databases "test" "t" [] []).map (fun t => (t.rows, t.colIntData[0]?)) =
          .ok ([[.int 2]], some (some [1])) := by
    decide +kernel
  cases hFind : findTable (Trace.run World.step (World.fresh [])
      (createThen "INSERT INTO t VALUES (1)" ++ [.call "root" (.text 0 "UPDATE t SET a = 2" none)])
        ).engine.databases "test" "t" [] [] with
  | error other => rw [hFind] at hTable; cases hTable
  | ok t =>
    rw [hFind] at hTable
    obtain ⟨hRows, hStore⟩ := Prod.mk.inj (Except.ok.inj hTable)
    have hExact := (hRun.of_findTable hFind).int 0 [1] hStore
    rw [hRows] at hExact
    revert hExact
    decide

end LeftBehind

end RunAlexDb
