import RunAlexDb.Lib.Index
import RunAlexDb.Store.RowWidths

/-!
# RowKeys — the keys of the rows through the table actions

What each table action does to the list of the keys of the rows: INSERT appends
one key a row, REPLACE takes one away before, UPDATE by key sets one, DELETE by
key moves the last one, ALTER TABLE changes none. The laws of the key column
(index, uniqueness, automatic values) are about this list.
-/

set_option linter.unusedSectionVars false

namespace RunAlexDb

open Text Platform

variable [Platform]

/-- The keys of the rows, `p` the primary-key column. -/
def Table.keys (t : Table) (p : Nat) : List Str := t.rows.map fun r => rowPkKey r p

/-- The key column is the first one that is declared so. -/
def Table.Linked (t : Table) : Prop := t.pkColIdx = t.columns.findIdx? Column.primaryKey

/-- A table with its key column linked, which obeys `K` if it has one. -/
structure Keyed (K : Table → Nat → Prop) (t : Table) : Prop where
  linked : t.Linked
  law : ∀ p, t.pkColIdx = some p → K t p

/-- A condition on the key column, if there is one. -/
instance decidableAtKey (pk : Option Nat) (P : Nat → Prop) [∀ p, Decidable (P p)] :
    Decidable (∀ p, pk = some p → P p) :=
  match pk with
  | none => isTrue fun p hp => by cases hp
  | some q => decidable_of_iff (P q) ⟨fun hq p hp => Option.some.inj hp ▸ hq, fun hAll => hAll q rfl⟩

theorem keys_length (t : Table) (p : Nat) : (t.keys p).length = t.rows.length := List.length_map ..

theorem mem_keys {t : Table} {p : Nat} {k : Str} : k ∈ t.keys p ↔ ∃ r ∈ t.rows, rowPkKey r p = k :=
  List.mem_map

theorem keys_mono {t t' : Table} {p : Nat} (h : ∀ r ∈ t'.rows, r ∈ t.rows) :
    ∀ k ∈ t'.keys p, k ∈ t.keys p := by
  intro k hk
  obtain ⟨r, hr, hKey⟩ := mem_keys.1 hk
  exact mem_keys.2 ⟨r, h r hr, hKey⟩

-- ---------------------------------------------------------------------------
-- INSERT and REPLACE
-- ---------------------------------------------------------------------------

theorem keys_push (t : Table) (row : Row) (p : Nat) :
    (t.push row).keys p = t.keys p ++ [rowPkKey row p] := List.map_append ..

theorem pkIndex_push {t : Table} {p : Nat} (hPk : t.pkColIdx = some p) (row : Row) :
    (t.push row).pkIndex = t.pkIndex.insert (rowPkKey row p) (t.keys p).length := by
  rw [Table.push, hPk, keys_length]
  rfl

/-- Moving `nextAuto` touches nothing else. -/
theorem advanceAuto_eq (t : Table) (row : Row) :
    t.advanceAuto row = { t with nextAuto := (t.advanceAuto row).nextAuto } := by
  rw [Table.advanceAuto]
  split
  · split <;> rfl
  · rfl

@[simp] theorem keys_advanceAuto (t : Table) (row : Row) (p : Nat) :
    (t.advanceAuto row).keys p = t.keys p := by
  rw [advanceAuto_eq]
  rfl

@[simp] theorem pkColIdx_advanceAuto (t : Table) (row : Row) :
    (t.advanceAuto row).pkColIdx = t.pkColIdx := by
  rw [advanceAuto_eq]

@[simp] theorem pkIndex_advanceAuto (t : Table) (row : Row) :
    (t.advanceAuto row).pkIndex = t.pkIndex := by
  rw [advanceAuto_eq]

/-- The index of the rows is the index of their keys. -/
theorem indexes_buildPkIndex (p : Nat) (rows : List Row) :
    Indexes (buildPkIndex p rows) (rows.map fun r => rowPkKey r p) := by
  have hZip : (rows.zipIdx.map fun x => (rowPkKey x.1 p, x.2)) =
      (rows.map fun r => rowPkKey r p).zipIdx := by
    rw [List.zipIdx_map]
    rfl
  rw [buildPkIndex, hZip]
  exact indexes_ofList _

/-- The rows an INSERT or REPLACE of `row` leaves before it pushes it. -/
def Table.remaining (t : Table) (replaceInto : Bool) (row : Row) : List Row :=
  match if replaceInto then t.replaced row else none with
  | none => t.rows
  | some (_, i) => t.rows.eraseIdx i

/-- The table before `row` is pushed: REPLACE has removed a row and made the
index anew, or nothing has changed. -/
structure RoomFor (replaceInto : Bool) (row : Row) (next : Int64) (t t' : Table) : Prop where
  rows : t'.rows = t.remaining replaceInto row
  columns : t'.columns = t.columns
  pkColIdx : t'.pkColIdx = t.pkColIdx
  nextAuto : t'.nextAuto = next
  index : t'.rows = t.rows ∧ t'.pkIndex = t.pkIndex ∨
    ∃ p, t.pkColIdx = some p ∧ t'.pkIndex = buildPkIndex p t'.rows

/-- **One row of an INSERT**, told by what becomes of the keys: the row is pushed
on the table that has room for it, unless a stale entry of the index stops it. -/
theorem insertStep_cases (replaceInto : Bool) (names : List Str) (t : Table) (src : Row) :
    insertStep replaceInto names t src = { t with nextAuto := (t.sourceRow names src).2 } ∨
      ∃ t', RoomFor replaceInto (t.sourceRow names src).1 (t.sourceRow names src).2 t t' ∧
        insertStep replaceInto names t src =
          (t'.advanceAuto (t.sourceRow names src).1).push (t.sourceRow names src).1 := by
  rw [insertStep_eq]
  rcases hSource : t.sourceRow names src with ⟨row, next⟩
  simp only
  cases hReplaced : (if replaceInto then t.replaced row else none) with
  | none =>
    have hRows : t.remaining replaceInto row = t.rows := by rw [Table.remaining, hReplaced]
    exact .inr ⟨{ t with nextAuto := next }, ⟨hRows.symm, rfl, rfl, rfl, .inl ⟨rfl, rfl⟩⟩, rfl⟩
  | some pi =>
    obtain ⟨p, i⟩ := pi
    have hRows : t.remaining replaceInto row = t.rows.eraseIdx i := by
      rw [Table.remaining, hReplaced]
    have hPk : t.pkColIdx = some p := by
      cases replaceInto with
      | false => cases hReplaced
      | true =>
        rw [if_pos rfl, Table.replaced, Option.bind_eq_some_iff] at hReplaced
        obtain ⟨p', hp', hMap⟩ := hReplaced
        obtain ⟨_, -, hPair⟩ := Option.map_eq_some_iff.1 hMap
        rw [hp', (Prod.mk.inj hPair).1]
    simp only
    by_cases hIn : i < t.rows.length
    · rw [if_pos hIn]
      exact .inr ⟨Table.removeRow { t with nextAuto := next } p i,
        ⟨hRows.symm, rfl, rfl, rfl, .inr ⟨p, hPk, rfl⟩⟩, rfl⟩
    · rw [if_neg hIn]
      exact .inl rfl

/-- The rows that stay were there. -/
theorem mem_of_remaining {t : Table} {replaceInto : Bool} {row r : Row}
    (h : r ∈ t.remaining replaceInto row) : r ∈ t.rows := by
  rw [Table.remaining] at h
  split at h
  · exact h
  · exact List.mem_of_mem_eraseIdx h

-- ---------------------------------------------------------------------------
-- UPDATE and DELETE
-- ---------------------------------------------------------------------------

/-- The row that an action makes of row `ri`, by key. -/
theorem keys_assigned {t : Table} {ri p : Nat} {r' : Row} {ints : List (Option (List Int64))}
    {strs : List (Option (List Str))} :
    Table.keys { t with rows := t.rows.set ri r', colIntData := ints, colStrData := strs } p =
      (t.keys p).set ri (rowPkKey r' p) := List.map_set ..

/-- An UPDATE by key that leaves the key of its row leaves the keys. -/
theorem keys_assigned_self {t : Table} {ri p : Nat} {r r' : Row} (hRow : t.rows[ri]? = some r)
    (hKey : rowPkKey r' p = rowPkKey r p) : (t.keys p).set ri (rowPkKey r' p) = t.keys p := by
  have hOld : (t.keys p)[ri]? = some (rowPkKey r p) := by
    rw [Table.keys, List.getElem?_map, hRow]
    rfl
  obtain ⟨hLt, hEq⟩ := List.getElem?_eq_some_iff.1 hOld
  rw [hKey, ← hEq, List.set_getElem_self]

/-- A scan that leaves the key of each row leaves the keys, also when it panics. -/
theorem keys_scanned_self {t : Table} {p : Nat} {body : Prog Row Fault Nat}
    (hKey : ∀ r ∈ t.rows, rowPkKey (body.exec r).2 p = rowPkKey r p) :
    Table.keys { t with rows := ((Prog.iterMut body).exec t.rows).2 } p = t.keys p := by
  have hIn := (List.forall₂_and_left (p := (· ∈ t.rows)) _ _).2
    ⟨fun _ hr => hr, Prog.exec_iterMut_forall body t.rows⟩
  refine map_eq_of_forall₂ hIn ?_
  rintro r r' ⟨hr, rfl | rfl⟩
  · rfl
  · exact hKey r hr

/-- **UPDATE**, told by what becomes of the rows. -/
theorem update_rows {I : Table → Prop} {a : TableAction} {t : Table}
    (hUpdate : (∃ now assignments selection, a = .update now assignments selection) ∨
      ∃ now assignments selection bound, a = .updatePrepared now assignments selection bound)
    (hInit : I t)
    (hKey : ∀ key ri r ints strs, a.lookup t = .ok (some key) → t.pkIndex.get key = some ri →
      t.rows[ri]? = some r →
        I { t with
          rows := t.rows.set ri (assignedRow t.columns r (a.assigns t))
          colIntData := ints
          colStrData := strs })
    (hScan : a.lookup t = .ok none →
      I { t with rows := ((Prog.iterMut (a.scanRow t)).exec t.rows).2 }) : I (a.result t) := by
  refine update_keeps hUpdate hInit (fun key ri hLookup hEntry hIn => ?_) hScan
  have hRow := List.getElem?_eq_getElem hIn
  obtain ⟨ints, strs, hEq⟩ := assignRowAt_eq (a.assigns t) hRow
  rw [hEq]
  exact hKey key ri _ ints strs hLookup hEntry hRow

/-- DELETE by key takes the key out of the list, the last one moving there. -/
theorem deleteKey_cases (t : Table) (p : Nat) (key : Str) :
    (t.pkIndex.get key = none ∧ t.deleteKey p key = t) ∨
      ∃ ri, t.pkIndex.get key = some ri ∧
        ((t.rows.length ≤ ri ∧ t.deleteKey p key = { t with pkIndex := t.pkIndex.remove key }) ∨
          ∃ last ints strs, t.rows.getLast? = some last ∧ ri < t.rows.length ∧
            t.deleteKey p key =
              { t with
                pkIndex := if ri = t.rows.length - 1 then t.pkIndex.remove key
                  else (t.pkIndex.remove key).insert (rowPkKey last p) ri
                rows := (t.rows.set ri last).dropLast
                colIntData := ints
                colStrData := strs }) := by
  cases hEntry : t.pkIndex.get key with
  | none => exact .inl ⟨rfl, by rw [Table.deleteKey, hEntry]⟩
  | some ri =>
    refine .inr ⟨ri, rfl, ?_⟩
    by_cases hIn : ri < t.rows.length
    · have hNe : t.rows ≠ [] := by
        rintro hNil
        rw [hNil] at hIn
        exact absurd hIn (Nat.not_lt_zero _)
      have hLast := List.getLast?_eq_some_getLast hNe
      refine .inr ⟨_, mapStores (swapRemove · ri) t.colIntData, mapStores (swapRemove · ri) t.colStrData,
        hLast, hIn, ?_⟩
      simp only [Table.deleteKey, hEntry, if_pos hIn, swapRemove, hLast, List.getLastD_eq_getLast?,
        Option.getD_some]
    · exact .inl ⟨Nat.le_of_not_lt hIn, by simp only [Table.deleteKey, hEntry, if_neg hIn]⟩

-- ---------------------------------------------------------------------------
-- ALTER TABLE and CREATE TABLE
-- ---------------------------------------------------------------------------

theorem rowPkKey_append_null (r : Row) (p : Nat) : rowPkKey (r ++ [.null]) p = rowPkKey r p := by
  by_cases hIn : p < r.length
  · rw [rowPkKey, rowPkKey, List.getElem?_append_left hIn]
  · have hLe := Nat.le_of_not_lt hIn
    rw [rowPkKey, rowPkKey, List.getElem?_append_right hLe, List.getElem?_eq_none hLe]
    cases p - r.length <;> rfl

/-- Dropping a column moves the key column, not the key. -/
theorem rowPkKey_eraseIdx (r : Row) {i p : Nat} (hNe : i ≠ p) :
    rowPkKey (r.eraseIdx i) (if i < p then p - 1 else p) = rowPkKey r p := by
  have hCell : (r.eraseIdx i)[if i < p then p - 1 else p]? = r[p]? := by
    rw [List.getElem?_eraseIdx]
    split
    · rename_i hLt
      rw [if_neg (by omega), Nat.sub_add_cancel (by omega)]
    · rw [if_pos (by omega)]
  rw [rowPkKey, rowPkKey, hCell]

/-- The first declared key column, where another column is dropped. -/
theorem findIdx?_eraseIdx {columns : List Column} {i p : Nat} (hNot : columns[i]?.elim false Column.primaryKey = false) :
    ((columns.eraseIdx i).findIdx? Column.primaryKey = some p →
      ∃ p', columns.findIdx? Column.primaryKey = some p' ∧ i ≠ p' ∧
        p = if i < p' then p' - 1 else p') := by
  intro h
  induction columns generalizing i p with
  | nil => cases h
  | cons c columns ih =>
    cases i with
    | zero =>
      have hc : c.primaryKey = false := hNot
      refine ⟨p + 1, ?_, by omega, by rw [if_pos (by omega)]; rfl⟩
      rw [List.eraseIdx_zero, List.tail_cons] at h
      rw [List.findIdx?_cons, hc, h]
      rfl
    | succ i =>
      rw [List.eraseIdx_cons_succ, List.findIdx?_cons] at h
      rw [List.findIdx?_cons]
      by_cases hc : c.primaryKey = true
      · rw [if_pos hc] at h ⊢
        obtain rfl := Option.some.inj h
        exact ⟨0, rfl, by omega, by rw [if_neg (by omega)]⟩
      · rw [if_neg hc] at h ⊢
        obtain ⟨q, hq, rfl⟩ := Option.map_eq_some_iff.1 h
        obtain ⟨p', hp', hNe, hEq⟩ := ih hNot hq
        refine ⟨p' + 1, by rw [hp']; rfl, by omega, ?_⟩
        rw [hEq]
        split <;> split <;> omega

/-- **ALTER TABLE** keeps the keys, the index and the automatic value. -/
theorem alterStep_keys {t : Table} (hLinked : t.Linked) (op : AlterTableOperation) :
    (alterStep t op).Linked ∧ (alterStep t op).pkIndex = t.pkIndex ∧
      (alterStep t op).nextAuto = t.nextAuto ∧
        ∀ p', (alterStep t op).pkColIdx = some p' →
          ∃ p, t.pkColIdx = some p ∧ (alterStep t op).keys p' = t.keys p := by
  have hSelf : t.Linked ∧ t.pkIndex = t.pkIndex ∧ t.nextAuto = t.nextAuto ∧
      ∀ p', t.pkColIdx = some p' → ∃ p, t.pkColIdx = some p ∧ t.keys p' = t.keys p :=
    ⟨hLinked, rfl, rfl, fun p' hp' => ⟨p', hp', rfl⟩⟩
  rw [alterStep]
  cases hAlter : t.alter op with
  | error other => exact hSelf
  | ok t' =>
    cases op with
    | addColumn columnDef =>
      simp only [Table.alter] at hAlter
      split at hAlter
      · cases hAlter
      · obtain rfl := Except.ok.inj hAlter
        refine ⟨?_, rfl, rfl, fun p' hp' => ⟨p', hp', ?_⟩⟩
        · show t.pkColIdx = (t.columns ++ [_]).findIdx? Column.primaryKey
          rw [hLinked, List.findIdx?_append]
          cases t.columns.findIdx? Column.primaryKey <;> rfl
        · show (t.rows.map (· ++ [Value.null])).map _ = _
          rw [List.map_map]
          exact List.map_congr_left fun r _ => rowPkKey_append_null r p'
    | dropColumn columnName =>
      simp only [Table.alter] at hAlter
      split at hAlter
      · cases hAlter
      · split at hAlter
        · cases hAlter
        · rename_i i _ hNot
          obtain rfl := Except.ok.inj hAlter
          refine ⟨rfl, rfl, rfl, fun p' hp' => ?_⟩
          obtain ⟨p, hp, hNe, rfl⟩ := findIdx?_eraseIdx (Bool.eq_false_iff.2 hNot) hp'
          refine ⟨p, hLinked.trans hp, ?_⟩
          show (t.rows.map (·.eraseIdx i)).map _ = _
          rw [List.map_map]
          exact List.map_congr_left fun r _ => rowPkKey_eraseIdx r hNe
    | renameColumn oldColumnName newColumnName =>
      simp only [Table.alter] at hAlter
      split at hAlter
      · cases hAlter
      · rename_i i _
        obtain rfl := Except.ok.inj hAlter
        refine ⟨?_, rfl, rfl, fun p' hp' => ⟨p', hp', rfl⟩⟩
        show t.pkColIdx = (t.columns.modify i _).findIdx? Column.primaryKey
        have hFlags : (t.columns.modify i fun c => { c with name := newColumnName.toString }).map
            Column.primaryKey = t.columns.map Column.primaryKey := by
          refine List.ext_getElem? fun j => ?_
          rw [List.getElem?_map, List.getElem?_modify, List.getElem?_map]
          split
          · cases t.columns[j]? <;> rfl
          · cases t.columns[j]? <;> rfl
        have hFirst := congrArg (List.findIdx? id) hFlags
        rw [List.findIdx?_map, List.findIdx?_map, Function.id_comp] at hFirst
        rw [hLinked, hFirst]
    | other text =>
      obtain rfl := Except.ok.inj hAlter
      exact hSelf

end RunAlexDb
