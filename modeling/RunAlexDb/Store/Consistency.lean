import Mathlib.Data.List.Perm.Subperm
import RunAlexDb.Model.Concrete
import RunAlexDb.Store.KeyUniqueness
import RunAlexDb.Store.PkIndex

/-!
# Consistency — tables whose parts agree, and DELETE

In a consistent table no two rows have one key, the index has the position of
every key, and the column stores repeat the rows. A DELETE by key, which moves
the last row into the gap, keeps that; so do a DELETE that scans and TRUNCATE. A
condition that panics on a row ends the scan: rows are gone by then, and index and
stores are not made anew.

Main result: `removesRows_iff`.
-/

set_option linter.unusedSectionVars false

namespace RunAlexDb

open Text Platform

section Consistency

variable [Platform]

/-- Unique keys, an exact index and exact stores; `pk_col_idx` is the index of the
primary-key column. -/
structure Consistent (t : Table) : Prop where
  linked : t.Linked
  unique : ∀ p, t.pkColIdx = some p → KeysUnique t p
  index : ∀ p, t.pkColIdx = some p → IndexExact t p
  stores : StoresExact t

theorem consistent_iff {t : Table} :
    Consistent t ↔ Keyed KeysUnique t ∧ Keyed IndexExact t ∧ StoresExact t := by
  constructor
  · intro h
    exact ⟨⟨h.linked, h.unique⟩, ⟨h.linked, h.index⟩, h.stores⟩
  · rintro ⟨hUnique, hIndex, hStores⟩
    exact ⟨hUnique.linked, hUnique.law, hIndex.law, hStores⟩

/-- With unique keys an exact index has the position of every row. -/
theorem Consistent.position {t : Table} (h : Consistent t) {p : Nat} (hPk : t.pkColIdx = some p)
    {i : Nat} {r : Row} (hRow : t.rows[i]? = some r) : t.pkIndex.get (rowPkKey r p) = some i := by
  obtain ⟨j, hEntry⟩ := Option.isSome_iff_exists.1
    ((h.index p hPk).indexed r (List.mem_of_getElem? hRow))
  obtain ⟨r', hRow', hKey⟩ := (h.index p hPk).entry _ j hEntry
  have hKeyI : (t.keys p)[i]? = some (rowPkKey r p) := by
    rw [Table.keys, List.getElem?_map, hRow]
    rfl
  have hKeyJ : (t.keys p)[j]? = some (rowPkKey r p) := by
    rw [Table.keys, List.getElem?_map, hRow', ← hKey]
    rfl
  have hLt : i < (t.keys p).length := (List.getElem?_eq_some_iff.1 hKeyI).1
  have hSame : i = j := (List.getElem?_inj hLt (h.unique p hPk)).1 (hKeyI.trans hKeyJ.symm)
  rw [hEntry, hSame]

/-- A key of the index stands at its position only. -/
theorem Consistent.alone {t : Table} (h : Consistent t) {p : Nat} (hPk : t.pkColIdx = some p)
    {key : Str} {i : Nat} (hEntry : t.pkIndex.get key = some i) :
    ∀ j, (t.keys p)[j]? = some key → j = i := by
  intro j hj
  rw [Table.keys, List.getElem?_map] at hj
  obtain ⟨r, hRow, rfl⟩ := Option.map_eq_some_iff.1 hj
  exact Option.some.inj ((h.position hPk hRow).symm.trans hEntry)

-- ---------------------------------------------------------------------------
-- Deletions
-- ---------------------------------------------------------------------------

/-- The statements that take rows out of a table. -/
inductive Deletion
  | delete (now : Nat) (selection : Option Expr)
  | deletePrepared (now : Nat) (selection : Option Expr) (bound : List Value)
  | truncate

def Deletion.action : Deletion → TableAction
  | .delete now selection => .delete now selection
  | .deletePrepared now selection bound => .deletePrepared now selection bound
  | .truncate => .truncate

/-- The table stays consistent, its rows are some of the old ones, and the answer
counts those that are gone. -/
structure Deletion.RemovesRows (d : Deletion) (t : Table) : Prop where
  consistent : Consistent (d.action.result t)
  rows : (d.action.result t).rows.Subperm t.rows
  affected : (d.action.run.exec t).1 =
    .ok (.ok (UInt64.ofNat (t.rows.length - (d.action.result t).rows.length)) 0)

-- ---------------------------------------------------------------------------
-- Rows
-- ---------------------------------------------------------------------------

/-- The last element in the place of another one: some of the old elements. -/
theorem subperm_swapLast {α : Type} {l : List α} {i : Nat} {x : α} (hLast : l.getLast? = some x) :
    ((l.set i x).dropLast).Subperm l := by
  rcases List.eq_nil_or_concat l with rfl | ⟨init, last, rfl⟩
  · cases hLast
  · rw [List.concat_eq_append] at hLast ⊢
    rw [List.getLast?_append, List.getLast?_singleton] at hLast
    obtain rfl := Option.some.inj hLast
    by_cases hIn : i < init.length
    · rw [List.set_append_left _ _ hIn, List.dropLast_concat, List.set_eq_take_append_cons_drop,
        if_pos hIn]
      have hMoved : (init.take i ++ last :: init.drop (i + 1)).Perm
          (last :: (init.take i ++ init.drop (i + 1))) := List.perm_middle
      have hRest : (init.take i ++ init.drop (i + 1)).Sublist init := by
        rw [← List.eraseIdx_eq_take_drop_succ]
        exact List.eraseIdx_sublist ..
      have hEnd : (init ++ [last]).Perm (last :: init) := List.perm_append_singleton ..
      exact (hMoved.subperm.trans (hRest.cons_cons last).subperm).trans hEnd.symm.subperm
    · have hSame : ∀ n : Nat, ([last] : List α).set n last = [last] := by
        intro n
        cases n <;> rfl
      rw [List.set_append_right _ _ (Nat.le_of_not_lt hIn), hSame, List.dropLast_concat]
      exact (List.sublist_append_left ..).subperm

theorem subperm_deleteKey (t : Table) (p : Nat) (key : Str) :
    (t.deleteKey p key).rows.Subperm t.rows := by
  rcases deleteKey_cases t p key with ⟨-, hSame⟩ | ⟨ri, -, ⟨-, hEq⟩ | ⟨last, _, _, hLast, -, hEq⟩⟩
  · rw [hSame]
  · rw [hEq]
  · rw [hEq]
    exact subperm_swapLast hLast

theorem subperm_result (d : Deletion) (t : Table) : (d.action.result t).rows.Subperm t.rows := by
  have hDelete : ∀ a : TableAction, ((∃ now selection, a = .delete now selection) ∨
      ∃ now selection bound, a = .deletePrepared now selection bound) →
        (a.result t).rows.Subperm t.rows := fun a hShape =>
    delete_keeps (I := fun t' => t'.rows.Subperm t.rows) hShape (List.Subperm.refl _)
      (fun key p _ _ => subperm_deleteKey t p key) (fun _ hSub _ => hSub.subperm)
      fun _ _ hSub _ => hSub.subperm
  rcases d with ⟨now, selection⟩ | ⟨now, selection, bound⟩ | _
  · exact hDelete _ (.inl ⟨_, _, rfl⟩)
  · exact hDelete _ (.inr ⟨_, _, _, rfl⟩)
  · exact List.nil_subperm

-- ---------------------------------------------------------------------------
-- Answers
-- ---------------------------------------------------------------------------

/-- What a deletion answers when its rows are gone. -/
theorem exec_countGone (m : TableM Unit) (t : Table) :
    (m >>= fun _ => do
      let t' ← get
      return QueryResult.ok (UInt64.ofNat (t.rows.length - t'.rows.length)) 0).exec t =
    ((m.exec t).1.map fun _ =>
      QueryResult.ok (UInt64.ofNat (t.rows.length - (m.exec t).2.rows.length)) 0, (m.exec t).2) := by
  rw [Prog.exec_bind]
  rcases m.exec t with ⟨_ | _, t'⟩ <;> rfl

theorem deleteScan_ok_iff {keep : Row → Rust Bool} {t : Table} :
    ((deleteScan keep).exec t).1 = .ok () ↔ ∀ r ∈ t.rows, ∃ b, keep r = .ok b := by
  have hOnRows : (onRows (Prog.retain keep)).exec t = (((Prog.retain keep).exec t.rows).1,
      { t with rows := ((Prog.retain keep).exec t.rows).2 }) := rfl
  rw [deleteScan, Prog.exec_bind, hOnRows]
  constructor
  · intro h
    rcases hRun : ((Prog.retain keep).exec t.rows).1 with fault | _
    · rw [hRun] at h
      cases h
    · exact Prog.decided_of_retain hRun
  · intro h
    have hDecided : ∀ r ∈ t.rows, keep r = .ok (decide (keep r = .ok true)) := by
      intro r hr
      obtain ⟨b, hb⟩ := h r hr
      rw [hb]
      cases b <;> rfl
    rw [Prog.exec_retain_ok hDecided]
    rfl

/-- A table with its key column linked has that column. -/
theorem Table.Linked.column {t : Table} (h : t.Linked) {p : Nat} (hPk : t.pkColIdx = some p) :
    ∃ c, t.columns[p]? = some c := by
  have hFind : t.columns.findIdx? Column.primaryKey = some p := h.symm.trans hPk
  have hLt : p < t.columns.length := (List.findIdx?_eq_some_iff_getElem.1 hFind).1
  exact ⟨_, List.getElem?_eq_getElem hLt⟩

theorem pkCondition_ok {t : Table} (h : t.Linked) (selection : Option Expr)
    (extract : Str → Expr → Option Str) : ∃ key, ((pkCondition selection extract).exec t).1 = .ok key := by
  rw [pkCondition, Prog.exec_get_bind]
  cases hPk : t.pkColIdx with
  | none => exact ⟨none, rfl⟩
  | some p =>
    obtain ⟨c, hc⟩ := h.column hPk
    cases selection with
    | none => exact ⟨none, rfl⟩
    | some w =>
      refine ⟨extract c.name w, ?_⟩
      simp only [hc]
      rfl

/-- **The answer.** A deletion counts the rows that are gone, unless its scan
panics. -/
theorem affected_iff {t : Table} (h : t.Linked) (d : Deletion) :
    (d.action.run.exec t).1 =
      .ok (.ok (UInt64.ofNat (t.rows.length - (d.action.result t).rows.length)) 0) ↔
        deleteFits t d.action := by
  have hScan : ∀ keep : Row → Rust Bool, (((deleteScan keep).exec t).1.map fun _ =>
      QueryResult.ok (UInt64.ofNat (t.rows.length - ((deleteScan keep).exec t).2.rows.length)) 0) =
        .ok (.ok (UInt64.ofNat (t.rows.length - ((deleteScan keep).exec t).2.rows.length)) 0) ↔
          ∀ r ∈ t.rows, ∃ b, keep r = .ok b := by
    intro keep
    rw [← deleteScan_ok_iff]
    rcases ((deleteScan keep).exec t).1 with fault | _
    · constructor <;> intro hEq <;> cases hEq
    · exact ⟨fun _ => rfl, fun _ => rfl⟩
  unfold deleteFits TableAction.result
  rcases d with ⟨now, selection⟩ | ⟨now, selection, bound⟩ | _
  · -- DELETE, by key or by scanning
    simp only [Deletion.action, TableAction.run, TableAction.lookup, TableAction.keepsRow, deleteTable,
      Prog.exec_get_bind, pkCondition_bind]
    obtain ⟨key, hKey⟩ := pkCondition_ok h selection extractPkEq
    simp only [hKey]
    rcases key with _ | key
    · simp only [exec_countGone, hScan, true_imp_iff]
    · cases hPk : t.pkColIdx with
      | none =>
        simp only [pkCondition, Prog.exec_get_bind, hPk] at hKey
        cases hKey
      | some p =>
        simp only [exec_countGone]
        constructor
        · intro _ hNone
          cases hNone
        · intro _
          rfl
  · -- a prepared DELETE scans
    simp only [Deletion.action, TableAction.run, TableAction.lookup, TableAction.keepsRow,
      deleteTablePrepared, Prog.exec_get_bind, exec_countGone, hScan, true_imp_iff]
  · exact ⟨fun _ _ _ _ => ⟨true, rfl⟩, fun _ => rfl⟩

-- ---------------------------------------------------------------------------
-- Consistency
-- ---------------------------------------------------------------------------

/-- **Deletions keep tables consistent**, as long as the scan decides its condition
on every row. -/
theorem consistent_result {t : Table} (h : Consistent t) {d : Deletion}
    (hFits : deleteFits t d.action) : Consistent (d.action.result t) := by
  obtain ⟨hUnique, hIndex, hStores⟩ := consistent_iff.1 h
  have hAlone : ∀ p, t.pkColIdx = some p → deleteKeyFits t p d.action :=
    fun p hPk key ri _ hEntry => .inl (h.alone hPk hEntry)
  refine consistent_iff.2 ?_
  rcases d with ⟨now, selection⟩ | ⟨now, selection, bound⟩ | _
  · exact ⟨keysUnique_result hUnique trivial, indexExact_result hIndex ⟨hAlone, hFits⟩,
      storesExact_result hStores hFits⟩
  · exact ⟨keysUnique_result hUnique trivial, indexExact_result hIndex ⟨hAlone, hFits⟩,
      storesExact_result hStores hFits⟩
  · exact ⟨keysUnique_result hUnique trivial, indexExact_result hIndex trivial,
      storesExact_result hStores trivial⟩

/-- **Deletions.** DELETE, by key or by scanning, the prepared DELETE and TRUNCATE
leave a consistent table with some of its rows, and count the others, just when no
row that is scanned makes the condition panic. -/
theorem removesRows_iff {t : Table} (h : Consistent t) (d : Deletion) :
    d.RemovesRows t ↔ deleteFits t d.action := by
  constructor
  · intro hRemoves
    exact (affected_iff h.linked d).1 hRemoves.affected
  · intro hFits
    exact ⟨consistent_result h hFits, subperm_result d t, (affected_iff h.linked d).2 hFits⟩

end Consistency

-- ---------------------------------------------------------------------------
-- A condition that panics
-- ---------------------------------------------------------------------------

section PanickingCondition

set_option maxRecDepth 2000

local instance consistencyPlatform : Platform := tablePlatform []

/-- Rows `(i64::MIN, 1)` and `(i64::MIN, -1)`, the second column the key. -/
def lowestTable : Table :=
  Table.rebuild {
    name := "t", schema := "test"
    columns := [{ name := "a", colType := .bigInt, nullable := true, primaryKey := false },
      { name := "b", colType := .bigInt, nullable := false, primaryKey := true }]
    rows := [[.int Int64.minValue, .int 1], [.int Int64.minValue, .int (-1)]]
    pkColIdx := some 1, pkIndex := HashMap.empty
    colIntData := [some [], some []], colStrData := [none, none], nextAuto := 0 }

theorem lowestTable_consistent : Consistent lowestTable := by
  have hLinked : lowestTable.pkColIdx = lowestTable.columns.findIdx? Column.primaryKey := by
    decide +kernel
  refine ⟨hLinked, fun p hPk => ?_, fun p hPk => ?_, repeats_rebuild _ _, repeats_rebuild _ _⟩
  · obtain rfl := Option.some.inj hPk
    show (List.map _ _).Nodup
    decide +kernel
  · obtain rfl := Option.some.inj hPk
    exact indexExact_iff.2 (indexes_buildPkIndex 1 _)

/-- `a / b < 0` -/
def quotientNegative : Expr :=
  .binaryOp (.binaryOp (.identifier ⟨"a", none⟩) .divide (.identifier ⟨"b", none⟩)) .lt
    (.value (.number "0" false))

/-- `a = 0` -/
def aIsZero : Expr :=
  .binaryOp (.identifier ⟨"a", none⟩) .eq (.value (.number "0" false))

theorem removesRows_iff_lowest : (Deletion.delete 0 (some aIsZero)).RemovesRows lowestTable := by
  refine (removesRows_iff lowestTable_consistent _).2 fun _ r hr => ⟨true, ?_⟩
  rcases List.mem_cons.1 hr with rfl | hr
  · decide +kernel
  · obtain rfl := List.mem_singleton.1 hr
    decide +kernel

/-- `DELETE FROM t WHERE a / b < 0`: the first row goes, the second makes the
division overflow. The index still has the first row's key. -/
theorem not_removesRows :
    ¬∀ (t : Table), Consistent t → ∀ d : Deletion, d.RemovesRows t := by
  intro hAll
  have hRemoves := hAll lowestTable lowestTable_consistent (.delete 0 (some quotientNegative))
  have hRows : ((Deletion.delete 0 (some quotientNegative)).action.result lowestTable).rows =
      [[.int Int64.minValue, .int (-1)]] := by
    decide +kernel
  have hEntry : ((Deletion.delete 0 (some quotientNegative)).action.result lowestTable).pkIndex.get
      "1" = some 0 := by
    decide +kernel
  have hPk : ((Deletion.delete 0 (some quotientNegative)).action.result lowestTable).pkColIdx =
      some 1 := by
    decide +kernel
  obtain ⟨r, hRow, hKey⟩ := (hRemoves.consistent.index 1 hPk).entry "1" 0 hEntry
  rw [hRows] at hRow
  obtain rfl := Option.some.inj hRow
  revert hKey
  decide

end PanickingCondition

end RunAlexDb
