import RunAlexDb.Store.ColumnStores
import RunAlexDb.Store.RowKeys

/-!
# PkIndex — the primary-key index names the rows

`pk_index` sends the key of a row to its position. Inserting, truncating and
altering keep it right, and a scanning DELETE makes it anew. It goes wrong when
an UPDATE gives a row another key, when a DELETE by key takes out the entry of a
key that another row has too, and when CREATE TABLE AS SELECT puts rows under an
empty index.

Main result: `indexExact_run`.
-/

set_option linter.unusedSectionVars false

namespace RunAlexDb

open Text Platform

section PkIndex

variable [Platform]

theorem indexExact_iff {t : Table} {p : Nat} : IndexExact t p ↔ Indexes t.pkIndex (t.keys p) := by
  constructor
  · intro h
    refine ⟨fun k hk => ?_, fun k i hGet => ?_⟩
    · obtain ⟨r, hr, rfl⟩ := mem_keys.1 hk
      exact h.indexed r hr
    · obtain ⟨r, hr, rfl⟩ := h.entry k i hGet
      rw [Table.keys, List.getElem?_map, hr]
      rfl
  · intro h
    refine ⟨fun r hr => h.indexed _ (mem_keys.2 ⟨r, hr, rfl⟩), fun k i hGet => ?_⟩
    have hKey := h.entry k i hGet
    rw [Table.keys, List.getElem?_map] at hKey
    exact Option.map_eq_some_iff.1 hKey

/-- An entry of an exact index is a position. -/
theorem IndexExact.lt_length {t : Table} {p : Nat} (h : IndexExact t p) {k : Str} {i : Nat}
    (hEntry : t.pkIndex.get k = some i) : i < t.rows.length := by
  rw [← keys_length t p]
  exact (indexExact_iff.1 h).lt_length hEntry

-- ---------------------------------------------------------------------------
-- What the index demands of an action
-- ---------------------------------------------------------------------------

/-- An UPDATE leaves the key of each row it assigns to. -/
def updateKeepsKeys (t : Table) (p : Nat) (a : TableAction) : Prop :=
  (∀ key ri r, a.lookup t = .ok (some key) → t.pkIndex.get key = some ri → t.rows[ri]? = some r →
    rowPkKey (assignedRow t.columns r (a.assigns t)) p = rowPkKey r p) ∧
  (a.lookup t = .ok none → ∀ r ∈ t.rows, rowPkKey ((a.scanRow t).exec r).2 p = rowPkKey r p)

/-- A DELETE by key finds its key at no other row, or at the last one, which
takes the place of the row removed. -/
def deleteKeyFits (t : Table) (p : Nat) (a : TableAction) : Prop :=
  ∀ key ri, a.lookup t = .ok (some key) → t.pkIndex.get key = some ri →
    (∀ j, (t.keys p)[j]? = some key → j = ri) ∨
      (ri ≠ (t.keys p).length - 1 ∧ (t.keys p).getLast? = some key)

def indexFits (t : Table) (a : TableAction) : Prop :=
  match a with
  | .update .. | .updatePrepared .. => ∀ p, t.pkColIdx = some p → updateKeepsKeys t p a
  | .delete .. | .deletePrepared .. =>
    (∀ p, t.pkColIdx = some p → deleteKeyFits t p a) ∧ deleteFits t a
  | .insert .. | .insertPrepared _ | .truncate | .alter _ => True

-- ---------------------------------------------------------------------------
-- Actions
-- ---------------------------------------------------------------------------

theorem indexExact_push {t : Table} (h : Keyed IndexExact t) (row : Row) :
    Keyed IndexExact (t.push row) where
  linked := h.linked
  law p hPk := by
    have hOld := indexExact_iff.1 (h.law p hPk)
    rw [indexExact_iff, keys_push, pkIndex_push (show t.pkColIdx = some p from hPk)]
    exact indexes_push hOld _

theorem indexExact_insertStep {t : Table} (h : Keyed IndexExact t) (replaceInto : Bool)
    (names : List Str) (src : Row) : Keyed IndexExact (insertStep replaceInto names t src) := by
  rcases insertStep_cases replaceInto names t src with hStop | ⟨t', hRoom, hPush⟩
  · rw [hStop]
    exact ⟨h.linked, fun p hPk => ⟨(h.law p hPk).indexed, (h.law p hPk).entry⟩⟩
  · rw [hPush]
    refine indexExact_push ⟨?_, fun p hPk => ?_⟩ _
    · rw [Table.Linked, pkColIdx_advanceAuto, columns_advanceAuto, hRoom.pkColIdx, hRoom.columns]
      exact h.linked
    · rw [pkColIdx_advanceAuto, hRoom.pkColIdx] at hPk
      rw [indexExact_iff, keys_advanceAuto, pkIndex_advanceAuto]
      rcases hRoom.index with ⟨hRows, hIndex⟩ | ⟨p', hPk', hIndex⟩
      · rw [hIndex, Table.keys, hRows]
        exact indexExact_iff.1 (h.law p hPk)
      · obtain rfl := Option.some.inj (hPk.symm.trans hPk')
        rw [hIndex]
        exact indexes_buildPkIndex p t'.rows

theorem indexExact_deleteKey {t : Table} (h : Keyed IndexExact t) {p : Nat} (hPk : t.pkColIdx = some p)
    {key : Str}
    (hAlone : ∀ ri, t.pkIndex.get key = some ri → (∀ j, (t.keys p)[j]? = some key → j = ri) ∨
      (ri ≠ (t.keys p).length - 1 ∧ (t.keys p).getLast? = some key)) :
    Keyed IndexExact (t.deleteKey p key) := by
  have hExact := indexExact_iff.1 (h.law p hPk)
  rcases deleteKey_cases t p key with
    ⟨-, hSame⟩ | ⟨ri, hEntry, ⟨hPast, -⟩ | ⟨last, ints, strs, hLast, hIn, hEq⟩⟩
  · rw [hSame]
    exact h
  · -- an exact index has no entry past the end
    have := (h.law p hPk).lt_length hEntry
    omega
  · rw [hEq]
    refine ⟨h.linked, fun p' hPk' => ?_⟩
    obtain rfl := Option.some.inj (hPk.symm.trans hPk')
    have hLastKey : (t.keys p).getLast? = some (rowPkKey last p) := by
      rw [Table.keys, List.getLast?_map, hLast]
      rfl
    have hSwap := indexes_swapRemove hExact hEntry hLastKey <| (hAlone ri hEntry).imp_right
      fun hMoved => ⟨hMoved.1, Option.some.inj (hLastKey.symm.trans hMoved.2)⟩
    rw [keys_length] at hSwap
    rw [indexExact_iff]
    have hKeys : ((t.rows.set ri last).dropLast.map fun r => rowPkKey r p) =
        ((t.keys p).set ri (rowPkKey last p)).dropLast := by
      rw [List.map_dropLast, List.map_set]
      rfl
    show Indexes _ ((t.rows.set ri last).dropLast.map fun r => rowPkKey r p)
    rw [hKeys]
    exact hSwap

theorem indexExact_result {t : Table} (h : Keyed IndexExact t) {a : TableAction}
    (hFit : indexFits t a) : Keyed IndexExact (a.result t) := by
  have hUpdate : ∀ a : TableAction, ((∃ now assignments selection, a = .update now assignments
      selection) ∨ ∃ now assignments selection bound, a = .updatePrepared now assignments selection
        bound) → (∀ p, t.pkColIdx = some p → updateKeepsKeys t p a) →
          Keyed IndexExact (a.result t) := by
    intro a hShape hFit
    refine update_rows hShape h (fun key ri r ints strs hLookup hEntry hRow => ?_) fun hLookup => ?_
    · refine ⟨h.linked, fun p hPk => ?_⟩
      have hKey := (hFit p hPk).1 key ri r hLookup hEntry hRow
      rw [indexExact_iff, keys_assigned, keys_assigned_self hRow hKey]
      exact indexExact_iff.1 (h.law p hPk)
    · refine ⟨h.linked, fun p hPk => ?_⟩
      rw [indexExact_iff, keys_scanned_self ((hFit p hPk).2 hLookup)]
      exact indexExact_iff.1 (h.law p hPk)
  have hDelete : ∀ a : TableAction, ((∃ now selection, a = .delete now selection) ∨
      ∃ now selection bound, a = .deletePrepared now selection bound) →
        (∀ p, t.pkColIdx = some p → deleteKeyFits t p a) → deleteFits t a →
          Keyed IndexExact (a.result t) := by
    intro a hShape hKeyFits hFit
    refine delete_keeps hShape h (fun key p hLookup hPk => ?_) (fun rows _ _ => ?_)
      fun rows hLookup _ hPanic => ?_
    · exact indexExact_deleteKey h hPk fun ri => hKeyFits p hPk key ri hLookup
    · refine ⟨h.linked, fun p hPk => ?_⟩
      rw [indexExact_iff]
      show Indexes (t.pkColIdx.elim t.pkIndex fun p => buildPkIndex p rows)
        (rows.map fun r => rowPkKey r p)
      rw [show t.pkColIdx = some p from hPk]
      exact indexes_buildPkIndex p rows
    · obtain ⟨r, hr, fault, hFault⟩ := hPanic
      obtain ⟨b, hb⟩ := hFit hLookup r hr
      rw [hFault] at hb
      cases hb
  cases a with
  | insert replaceInto names rows =>
    exact insert_keeps (I := Keyed IndexExact)
      (fun t src ht _ => indexExact_insertStep ht replaceInto names src) h (Trace.along_true t rows)
  | insertPrepared rows =>
    rw [result_insertPrepared]
    exact Trace.invariant_run_all (I := Keyed IndexExact) (fun t row ht => indexExact_push ht row) h rows
  | update now assignments selection => exact hUpdate _ (.inl ⟨_, _, _, rfl⟩) hFit
  | updatePrepared now assignments selection bound => exact hUpdate _ (.inr ⟨_, _, _, _, rfl⟩) hFit
  | delete now selection => exact hDelete _ (.inl ⟨_, _, rfl⟩) hFit.1 hFit.2
  | deletePrepared now selection bound => exact hDelete _ (.inr ⟨_, _, _, rfl⟩) hFit.1 hFit.2
  | truncate => exact ⟨h.linked, fun p _ => indexExact_iff.2 indexes_empty⟩
  | alter operations =>
    have hStep : ∀ (t : Table) (op : AlterTableOperation), Keyed IndexExact t → True →
        Keyed IndexExact (alterStep t op) := by
      intro t op ht _
      obtain ⟨hLinked, hIndex, -, hKeys⟩ := alterStep_keys ht.linked op
      refine ⟨hLinked, fun p' hPk' => ?_⟩
      obtain ⟨p, hPk, hSame⟩ := hKeys p' hPk'
      rw [indexExact_iff, hIndex, hSame]
      exact indexExact_iff.1 (ht.law p hPk)
    exact alter_keeps (I := Keyed IndexExact) hStep h (Trace.along_true t operations)

/-- The index of every table stays exact, as long as no operation leaves it
behind. A table made with rows has an empty one. -/
def indexLaw : TableLaw where
  holds := Keyed IndexExact
  act := indexFits
  put columns rows := rows = [] ∨ columns.findIdx? Column.primaryKey = none
  holds_act _ _ h hFit := indexExact_result h hFit
  holds_put schema name columns rows h := by
    refine ⟨rfl, fun p hPk => indexExact_iff.2 ?_⟩
    rcases h with rfl | hNone
    · exact indexes_empty
    · rw [show columns.findIdx? Column.primaryKey = some p from hPk] at hNone
      cases hNone

/-- **The primary-key index.** After every run of calls, logins and transactions
from `Engine::new` in which no operation leaves the index behind, `pk_index` of
every table with a key column has the key of every row, and each of its entries
names a row with its key. -/
theorem indexExact_run (rootPassword : Str) {moves : List Move}
    (hFits : Trace.Along World.step indexLaw.Meets (World.fresh rootPassword) moves) :
    (Trace.run World.step (World.fresh rootPassword) moves).Each
      fun t => ∀ p, t.pkColIdx = some p → IndexExact t p := by
  have hRun := indexLaw.holds_run rootPassword hFits
  exact hRun.mono fun t ht => ht.law

end PkIndex

-- ---------------------------------------------------------------------------
-- A key that changes
-- ---------------------------------------------------------------------------

section ChangedKey

set_option maxRecDepth 2000

/-- `CREATE TABLE t (a INT PRIMARY KEY)` -/
def createKeyed : Statement :=
  .createTable {
    name := [⟨"t", none⟩], columns := [⟨⟨"a", none⟩, .int, [.unique true]⟩], ifNotExists := false
    query := none }

local instance pkIndexPlatform : Platform := tablePlatform
  [("CREATE TABLE t (a INT PRIMARY KEY)", [createKeyed]),
    ("INSERT INTO t VALUES (1)", [insertNumbers ["1"]]),
    ("UPDATE t SET a = 2", [setA "2"])]

noncomputable instance (t : Table) : ∀ a, Decidable (indexLaw.act t a)
  | .insert .. | .insertPrepared _ | .truncate | .alter _ => isTrue trivial
  | .update .. | .updatePrepared .. | .delete .. | .deletePrepared .. => Classical.propDecidable _

instance (columns : List Column) (rows : List Row) : Decidable (indexLaw.put columns rows) :=
  inferInstanceAs (Decidable (rows = [] ∨ columns.findIdx? Column.primaryKey = none))

/-- The table is created, then the statements are executed. -/
def createKeyedThen (sqls : List Str) : List Move :=
  (("CREATE TABLE t (a INT PRIMARY KEY)" : Str) :: sqls).map fun sql =>
    .call "root" (.text 0 sql none)

theorem indexExact_run_one :
    (Trace.run World.step (World.fresh []) (createKeyedThen ["INSERT INTO t VALUES (1)"])).Each
      fun t => ∀ p, t.pkColIdx = some p → IndexExact t p :=
  indexExact_run [] (by decide +kernel)

/-- The row has key 2, the index has an entry for 1. -/
theorem not_indexExact_run :
    ¬ ∀ (rootPassword : Str) (moves : List Move),
      (Trace.run World.step (World.fresh rootPassword) moves).Each
        fun t => ∀ p, t.pkColIdx = some p → IndexExact t p := by
  intro hAll
  have hRun := hAll [] (createKeyedThen ["INSERT INTO t VALUES (1)", "UPDATE t SET a = 2"])
  have hTable : (findTable (Trace.run World.step (World.fresh []) (createKeyedThen
      ["INSERT INTO t VALUES (1)", "UPDATE t SET a = 2"])).engine.databases "test" "t" [] []).map
        (fun t => (t.rows, t.pkColIdx, t.pkIndex.get "2")) = .ok ([[.int 2]], some 0, none) := by
    decide +kernel
  cases hFind : findTable (Trace.run World.step (World.fresh []) (createKeyedThen
      ["INSERT INTO t VALUES (1)", "UPDATE t SET a = 2"])).engine.databases "test" "t" [] [] with
  | error other => rw [hFind] at hTable; cases hTable
  | ok t =>
    rw [hFind] at hTable
    obtain ⟨hRows, hRest⟩ := Prod.mk.inj (Except.ok.inj hTable)
    obtain ⟨hPk, hNone⟩ := Prod.mk.inj hRest
    have hExact := hRun.of_findTable hFind 0 hPk
    have hIndexed := hExact.indexed [.int 2] (by rw [hRows]; exact List.mem_singleton_self _)
    rw [show rowPkKey [.int 2] 0 = "2" by decide, hNone] at hIndexed
    cases hIndexed

end ChangedKey

end RunAlexDb
