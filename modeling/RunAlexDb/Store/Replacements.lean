import RunAlexDb.Lib.KeyedLists
import RunAlexDb.Store.Consistency

/-!
# Replacements — REPLACE INTO a consistent table

Each source row, put in the order of the columns, drops the row with its key and
goes last. The table is consistent before every source row, so the index finds the
row to drop, and the row it finds is the only one.

Main result: `replace_folds`.
-/

set_option linter.unusedSectionVars false

namespace RunAlexDb

open Text Platform KeyedLists

section Replacements

variable [Platform]

-- ---------------------------------------------------------------------------
-- Source rows
-- ---------------------------------------------------------------------------

/-- The table with the automatic value that a source row leaves. -/
def Table.afterSource (t : Table) (names : List Str) (src : Row) : Table :=
  Table.advanceAuto { t with nextAuto := (t.sourceRow names src).2 } (t.sourceRow names src).1

/-- The source rows in the order of the columns. A key that is not named is the
automatic value, which the rows before have moved. -/
def Table.mappedRows (t : Table) (names : List Str) : List Row → List Row
  | [] => []
  | src :: rest => (t.sourceRow names src).1 :: (t.afterSource names src).mappedRows names rest

/-- A row in place of the one with its key. -/
def replaceRow (p : Nat) (rows : List Row) (row : Row) : List Row := put (rowPkKey · p) rows row

/-- What the mapping of rows looks at. -/
structure SameMapping (t t' : Table) : Prop where
  columns : t'.columns = t.columns
  pkColIdx : t'.pkColIdx = t.pkColIdx
  nextAuto : t'.nextAuto = t.nextAuto

theorem SameMapping.sourceRow {t t' : Table} (h : SameMapping t t') (names : List Str) (src : Row) :
    t'.sourceRow names src = t.sourceRow names src := by
  unfold Table.sourceRow
  rw [h.columns, h.nextAuto]

theorem SameMapping.advanceAuto {t t' : Table} (h : SameMapping t t') (row : Row) :
    SameMapping (t.advanceAuto row) (t'.advanceAuto row) := by
  refine ⟨?_, ?_, ?_⟩
  · rw [columns_advanceAuto, columns_advanceAuto, h.columns]
  · rw [pkColIdx_advanceAuto, pkColIdx_advanceAuto, h.pkColIdx]
  · unfold Table.advanceAuto
    rw [h.pkColIdx]
    split
    · rw [h.nextAuto]
      split
      · rfl
      · exact h.nextAuto
    · exact h.nextAuto

theorem SameMapping.mappedRows (names : List Str) (sources : List Row) :
    ∀ {t t' : Table}, SameMapping t t' → t'.mappedRows names sources = t.mappedRows names sources := by
  induction sources with
  | nil => exact fun _ => rfl
  | cons src rest ih =>
    intro t t' h
    have hSource := h.sourceRow names src
    have hAfter : SameMapping (t.afterSource names src) (t'.afterSource names src) := by
      have hSet : SameMapping { t with nextAuto := (t.sourceRow names src).2 }
          { t' with nextAuto := (t.sourceRow names src).2 } := ⟨h.columns, h.pkColIdx, rfl⟩
      unfold Table.afterSource
      rw [hSource]
      exact hSet.advanceAuto _
    rw [Table.mappedRows, Table.mappedRows, hSource, ih hAfter]

-- ---------------------------------------------------------------------------
-- One source row
-- ---------------------------------------------------------------------------

/-- REPLACE of one row finds the row with its key, if there is one. -/
theorem remaining_keyed {t : Table} {p : Nat} (hPk : t.pkColIdx = some p) (hUnique : KeysUnique t p)
    (hIndex : IndexExact t p) (row : Row) :
    t.remaining true row = dropKey (rowPkKey · p) (rowPkKey row p) t.rows := by
  unfold Table.remaining Table.replaced
  rw [if_pos rfl, hPk, Option.bind_some]
  rcases hEntry : t.pkIndex.get (rowPkKey row p) with _ | i
  · -- no row has the key
    refine (dropKey_eq_self fun r hr hKey => ?_).symm
    have hIndexed := hIndex.indexed r hr
    rw [hKey, hEntry] at hIndexed
    cases hIndexed
  · obtain ⟨r, hRow, hKey⟩ := hIndex.entry _ i hEntry
    have hErase : t.rows.eraseIdx i = dropKey (rowPkKey · p) (rowPkKey r p) t.rows :=
      eraseIdx_eq_drop hUnique hRow
    rw [Option.map_some, ← hKey]
    exact hErase

theorem Consistent.remaining {t : Table} (h : Consistent t) {p : Nat} (hPk : t.pkColIdx = some p)
    (row : Row) : t.remaining true row = dropKey (rowPkKey · p) (rowPkKey row p) t.rows :=
  remaining_keyed hPk (h.unique p hPk) (h.index p hPk) row

/-- **One row of a REPLACE.** -/
theorem replaceStep_keyed {t : Table} {p : Nat} (hPk : t.pkColIdx = some p) (hUnique : KeysUnique t p)
    (hIndex : IndexExact t p) (names : List Str) (src : Row) :
    (insertStep true names t src).rows = replaceRow p t.rows (t.sourceRow names src).1 ∧
      SameMapping (t.afterSource names src) (insertStep true names t src) := by
  have hRemaining := remaining_keyed hPk hUnique hIndex (t.sourceRow names src).1
  rw [insertStep_eq]
  simp only [if_true]
  rcases hReplaced : t.replaced (t.sourceRow names src).1 with _ | ⟨p', i⟩
  · unfold Table.remaining at hRemaining
    simp only [if_true, hReplaced] at hRemaining
    refine ⟨?_, ⟨rfl, rfl, rfl⟩⟩
    show (Table.advanceAuto _ _).rows ++ _ = _
    rw [rows_advanceAuto]
    exact congrArg (· ++ [(t.sourceRow names src).1]) hRemaining
  · -- the entry is the position of a row
    have hIn : i < t.rows.length := by
      unfold Table.replaced at hReplaced
      rw [hPk, Option.bind_some] at hReplaced
      obtain ⟨j, hEntry, hPair⟩ := Option.map_eq_some_iff.1 hReplaced
      obtain ⟨-, rfl⟩ := Prod.mk.inj hPair
      exact hIndex.lt_length hEntry
    unfold Table.remaining at hRemaining
    simp only [if_true, hReplaced] at hRemaining
    simp only [if_pos hIn]
    have hRemoved : SameMapping { t with nextAuto := (t.sourceRow names src).2 }
        (Table.removeRow { t with nextAuto := (t.sourceRow names src).2 } p' i) := ⟨rfl, rfl, rfl⟩
    have hAfter := hRemoved.advanceAuto (t.sourceRow names src).1
    refine ⟨?_, ⟨hAfter.columns, hAfter.pkColIdx, hAfter.nextAuto⟩⟩
    show (Table.advanceAuto _ _).rows ++ _ = _
    rw [rows_advanceAuto]
    exact congrArg (· ++ [(t.sourceRow names src).1]) hRemaining

theorem replaceStep_eq {t : Table} (h : Consistent t) {p : Nat} (hPk : t.pkColIdx = some p)
    (names : List Str) (src : Row) :
    (insertStep true names t src).rows = replaceRow p t.rows (t.sourceRow names src).1 ∧
      SameMapping (t.afterSource names src) (insertStep true names t src) :=
  replaceStep_keyed hPk (h.unique p hPk) (h.index p hPk) names src

theorem consistent_replaceStep {t : Table} (h : Consistent t) {p : Nat} (hPk : t.pkColIdx = some p)
    (names : List Str) (src : Row) : Consistent (insertStep true names t src) := by
  obtain ⟨hUnique, hIndex, hStores⟩ := consistent_iff.1 h
  have hFresh : freshRow true names t src := by
    intro p' hPk' r hr
    obtain rfl := Option.some.inj (hPk.symm.trans hPk')
    rw [h.remaining hPk] at hr
    exact (mem_dropKey.1 hr).2
  exact consistent_iff.2 ⟨keysUnique_insertStep hUnique hFresh,
    indexExact_insertStep hIndex true names src, storesExact_insertStep hStores true names src⟩

-- ---------------------------------------------------------------------------
-- All source rows
-- ---------------------------------------------------------------------------

/-- A REPLACE of one row finds its entry at a row, and does not panic. -/
theorem exec_replaceRow_keyed {t : Table} (hIndex : Keyed IndexExact t) (names : List Str) (src : Row) :
    (insertRow true names src).exec t = (.ok (), insertStep true names t src) := by
  refine Prod.ext ?_ rfl
  rw [insertRow, Prog.exec_get_bind, ← Table.sourceRow]
  rcases t.sourceRow names src with ⟨row, next⟩
  simp only [if_true, Prog.exec_bind, Prog.exec_set, replaceExisting, Prog.exec_get]
  rcases hPk : t.pkColIdx with _ | p
  · rfl
  · simp only
    rcases hEntry : t.pkIndex.get (rowPkKey row p) with _ | i
    · rfl
    · have hIn := (hIndex.law p hPk).lt_length hEntry
      simp only [if_pos hIn]
      rfl

theorem exec_replaceRow {t : Table} (h : Consistent t) (names : List Str) (src : Row) :
    (insertRow true names src).exec t = (.ok (), insertStep true names t src) :=
  exec_replaceRow_keyed ⟨h.linked, h.index⟩ names src

/-- **The loop of a REPLACE.** -/
theorem exec_replaceRows {p : Nat} (names : List Str) (sources : List Row) :
    ∀ {t : Table}, Consistent t → t.pkColIdx = some p →
      ∃ t', (Prog.forEach (insertRow true names) sources).exec t = (.ok (), t') ∧ Consistent t' ∧
        t'.rows = (t.mappedRows names sources).foldl (replaceRow p) t.rows := by
  induction sources with
  | nil => exact fun {t} h _ => ⟨t, rfl, h, rfl⟩
  | cons src rest ih =>
    intro t h hPk
    obtain ⟨hRows, hMapping⟩ := replaceStep_eq h hPk names src
    have hPk' : (insertStep true names t src).pkColIdx = some p := by
      rw [hMapping.pkColIdx, Table.afterSource, pkColIdx_advanceAuto]
      exact hPk
    obtain ⟨t', hRun, hConsistent, hRest⟩ := ih (consistent_replaceStep h hPk names src) hPk'
    refine ⟨t', ?_, hConsistent, ?_⟩
    · rw [Prog.forEach, Prog.exec_bind_ok (exec_replaceRow h names src)]
      exact hRun
    · rw [hRest, hRows, hMapping.mappedRows names rest]
      rfl

end Replacements

-- ---------------------------------------------------------------------------
-- A key twice
-- ---------------------------------------------------------------------------

section KeyTwice

set_option maxRecDepth 2000

local instance replacementsPlatform : Platform := tablePlatform []

end KeyTwice

end RunAlexDb
