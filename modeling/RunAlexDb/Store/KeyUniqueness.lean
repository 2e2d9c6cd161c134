import RunAlexDb.Store.PkIndex

/-!
# KeyUniqueness — no two rows with one primary key

The engine refuses no key. Keys stay different as long as the statements bring
in no key twice: a REPLACE removes only the row the index names, an INSERT none,
and UPDATE and CREATE TABLE AS SELECT compare nothing.

Main result: `keysUnique_run`.
-/

set_option linter.unusedSectionVars false

namespace RunAlexDb

open Text Platform

section KeyUniqueness

variable [Platform]

-- ---------------------------------------------------------------------------
-- Lists without repetition
-- ---------------------------------------------------------------------------

/-- One element exchanged for one that stands nowhere else. -/
theorem nodup_set {α : Type} {l : List α} (h : l.Nodup) {i : Nat} {x : α}
    (hNew : ∀ j, j ≠ i → l[j]? ≠ some x) : (l.set i x).Nodup := by
  rw [List.nodup_iff_getElem?_ne_getElem?] at h ⊢
  intro j k hjk hk hEq
  rw [List.length_set] at hk
  have hOld : ∀ m, (l.set i x)[m]? = if i = m then (if i < l.length then some x else none) else l[m]? :=
    fun m => List.getElem?_set
  rw [hOld, hOld] at hEq
  split at hEq
  · rename_i hij
    rw [if_pos (show i < l.length by omega), if_neg (show i ≠ k by omega)] at hEq
    exact hNew k (by omega) hEq.symm
  · split at hEq
    · rw [if_pos (show i < l.length by omega)] at hEq
      exact hNew j (by omega) hEq
    · exact h j k hjk hk hEq

/-- The last element moved into another's place. -/
theorem nodup_swapLast {α : Type} {l : List α} (h : l.Nodup) {i : Nat} {x : α}
    (hLast : l.getLast? = some x) : ((l.set i x).dropLast).Nodup := by
  rcases List.eq_nil_or_concat l with rfl | ⟨init, last, rfl⟩
  · cases hLast
  · rw [List.concat_eq_append] at h hLast ⊢
    rw [List.getLast?_append, List.getLast?_singleton] at hLast
    obtain rfl := Option.some.inj hLast
    have hApart := List.nodup_append.1 h
    by_cases hIn : i < init.length
    · rw [List.set_append_left _ _ hIn, List.dropLast_concat]
      refine hApart.1.set fun hMem => ?_
      exact hApart.2.2 last hMem last (List.mem_singleton_self _) rfl
    · rw [List.set_append_right _ _ (Nat.le_of_not_lt hIn)]
      cases i - init.length with
      | zero => rw [List.set_cons_zero, List.dropLast_concat]; exact hApart.1
      | succ n => rw [List.set_cons_succ, List.set_nil, List.dropLast_concat]; exact hApart.1

-- ---------------------------------------------------------------------------
-- What uniqueness demands of an action
-- ---------------------------------------------------------------------------

/-- The row an INSERT or REPLACE makes of `src` has a key that none of the rows
it leaves has. -/
def freshRow (replaceInto : Bool) (names : List Str) (t : Table) (src : Row) : Prop :=
  ∀ p, t.pkColIdx = some p →
    ∀ r ∈ t.remaining replaceInto (t.sourceRow names src).1,
      rowPkKey r p ≠ rowPkKey (t.sourceRow names src).1 p

/-- An UPDATE by key gives its row a key that no other row has. A scanning one
leaves the key of every row, or it panics on none and the keys the rows have
afterwards are pairwise different. -/
def updateSeparates (t : Table) (p : Nat) (a : TableAction) : Prop :=
  (∀ key ri r, a.lookup t = .ok (some key) → t.pkIndex.get key = some ri → t.rows[ri]? = some r →
    ∀ j, j ≠ ri → (t.keys p)[j]? ≠ some (rowPkKey (assignedRow t.columns r (a.assigns t)) p)) ∧
  (a.lookup t = .ok none →
    (∀ r ∈ t.rows, rowPkKey ((a.scanRow t).exec r).2 p = rowPkKey r p) ∨
      (∀ r ∈ t.rows, ∃ n, ((a.scanRow t).exec r).1 = .ok n) ∧
        (t.rows.map fun r => rowPkKey ((a.scanRow t).exec r).2 p).Nodup)

def uniqueFits (t : Table) (a : TableAction) : Prop :=
  match a with
  | .insert replaceInto names rows =>
    Trace.Along (insertStep replaceInto names) (freshRow replaceInto names) t rows
  | .insertPrepared rows =>
    Trace.Along Table.push (fun t row => ∀ p, t.pkColIdx = some p → rowPkKey row p ∉ t.keys p) t rows
  | .update .. | .updatePrepared .. => ∀ p, t.pkColIdx = some p → updateSeparates t p a
  | .delete .. | .deletePrepared .. | .truncate | .alter _ => True

-- ---------------------------------------------------------------------------
-- Actions
-- ---------------------------------------------------------------------------

theorem nodup_push {ks : List Str} (h : ks.Nodup) {k : Str} (hFresh : k ∉ ks) :
    (ks ++ [k]).Nodup :=
  List.nodup_append.2 ⟨h, List.nodup_singleton k, fun x hx y hy hEq =>
    hFresh (by rw [← List.mem_singleton.1 hy, ← hEq]; exact hx)⟩

/-- The rows an INSERT or REPLACE leaves have their keys still. -/
theorem nodup_remaining {t : Table} {p : Nat} (h : KeysUnique t p) (replaceInto : Bool) (row : Row) :
    ((t.remaining replaceInto row).map fun r => rowPkKey r p).Nodup := by
  rw [Table.remaining]
  split
  · exact h
  · rw [← List.eraseIdx_map]
    exact h.eraseIdx _

theorem keysUnique_insertStep {t : Table} (h : Keyed KeysUnique t) {replaceInto : Bool}
    {names : List Str} {src : Row} (hFresh : freshRow replaceInto names t src) :
    Keyed KeysUnique (insertStep replaceInto names t src) := by
  rcases insertStep_cases replaceInto names t src with hStop | ⟨t', hRoom, hPush⟩
  · rw [hStop]
    exact ⟨h.linked, h.law⟩
  · rw [hPush]
    refine ⟨?_, fun p hPk => ?_⟩
    · show (t'.advanceAuto _).pkColIdx = (t'.advanceAuto _).columns.findIdx? _
      rw [pkColIdx_advanceAuto, columns_advanceAuto, hRoom.pkColIdx, hRoom.columns]
      exact h.linked
    · have hPk : t.pkColIdx = some p := by
        rw [← hRoom.pkColIdx, ← pkColIdx_advanceAuto t' (t.sourceRow names src).1]
        exact hPk
      show (Table.keys _ p).Nodup
      rw [keys_push, keys_advanceAuto, Table.keys, hRoom.rows]
      refine nodup_push (nodup_remaining (h.law p hPk) _ _) fun hMem => ?_
      obtain ⟨r, hr, hKey⟩ := List.mem_map.1 hMem
      exact hFresh p hPk r hr hKey

instance decidableFreshRow (replaceInto : Bool) (names : List Str) (t : Table) (src : Row) :
    Decidable (freshRow replaceInto names t src) := decidableAtKey _ _

theorem keysUnique_result {t : Table} (h : Keyed KeysUnique t) {a : TableAction}
    (hFit : uniqueFits t a) : Keyed KeysUnique (a.result t) := by
  have hUpdate : ∀ a : TableAction, ((∃ now assignments selection, a = .update now assignments
      selection) ∨ ∃ now assignments selection bound, a = .updatePrepared now assignments selection
        bound) → (∀ p, t.pkColIdx = some p → updateSeparates t p a) →
          Keyed KeysUnique (a.result t) := by
    intro a hShape hFit
    refine update_rows hShape h (fun key ri r ints strs hLookup hEntry hRow => ?_) fun hLookup => ?_
    · refine ⟨h.linked, fun p hPk => ?_⟩
      show (Table.keys _ p).Nodup
      rw [keys_assigned]
      exact nodup_set (h.law p hPk) ((hFit p hPk).1 key ri r hLookup hEntry hRow)
    · refine ⟨h.linked, fun p hPk => ?_⟩
      show (Table.keys _ p).Nodup
      rcases (hFit p hPk).2 hLookup with hKeys | ⟨hOk, hApart⟩
      · rw [keys_scanned_self hKeys]
        exact h.law p hPk
      · have hAll := Prog.exec_iterMut_of_ok hOk
        rw [Table.keys, hAll, List.map_map]
        exact hApart
  have hDelete : ∀ a : TableAction, ((∃ now selection, a = .delete now selection) ∨
      ∃ now selection bound, a = .deletePrepared now selection bound) →
        Keyed KeysUnique (a.result t) := by
    intro a hShape
    have hSub : ∀ rows : List Row, rows.Sublist t.rows → ∀ p, t.pkColIdx = some p →
        (rows.map fun r => rowPkKey r p).Nodup :=
      fun rows hRows p hPk => (hRows.map _).nodup (h.law p hPk)
    refine delete_keeps hShape h (fun key p _ hPk => ?_)
      (fun rows hRows _ => ⟨h.linked, hSub rows hRows⟩)
      fun rows _ hRows _ => ⟨h.linked, hSub rows hRows⟩
    rcases deleteKey_cases t p key with
      ⟨-, hSame⟩ | ⟨ri, -, ⟨-, hEq⟩ | ⟨last, ints, strs, hLast, -, hEq⟩⟩
    · rw [hSame]
      exact h
    · rw [hEq]
      exact ⟨h.linked, h.law⟩
    · rw [hEq]
      refine ⟨h.linked, fun p' hPk' => ?_⟩
      show ((t.rows.set ri last).dropLast.map fun r => rowPkKey r p').Nodup
      rw [List.map_dropLast, List.map_set]
      refine nodup_swapLast (h.law p' hPk') ?_
      rw [List.getLast?_map, hLast]
      rfl
  cases a with
  | insert replaceInto names rows =>
    exact insert_keeps (I := Keyed KeysUnique) (fun t src ht hFresh => keysUnique_insertStep ht hFresh)
      h hFit
  | insertPrepared rows =>
    have hStep : ∀ (t : Table) (row : Row), Keyed KeysUnique t →
        (∀ p, t.pkColIdx = some p → rowPkKey row p ∉ t.keys p) → Keyed KeysUnique (t.push row) := by
      intro t row ht hFresh
      refine ⟨ht.linked, fun p hPk => ?_⟩
      show (Table.keys _ p).Nodup
      rw [keys_push]
      exact nodup_push (ht.law p hPk) (hFresh p hPk)
    rw [result_insertPrepared]
    exact Trace.invariant_run hStep h hFit
  | update now assignments selection => exact hUpdate _ (.inl ⟨_, _, _, rfl⟩) hFit
  | updatePrepared now assignments selection bound => exact hUpdate _ (.inr ⟨_, _, _, _, rfl⟩) hFit
  | delete now selection => exact hDelete _ (.inl ⟨_, _, rfl⟩)
  | deletePrepared now selection bound => exact hDelete _ (.inr ⟨_, _, _, rfl⟩)
  | truncate => exact ⟨h.linked, fun p _ => List.nodup_nil⟩
  | alter operations =>
    have hStep : ∀ (t : Table) (op : AlterTableOperation), Keyed KeysUnique t → True →
        Keyed KeysUnique (alterStep t op) := by
      intro t op ht _
      obtain ⟨hLinked, -, -, hKeys⟩ := alterStep_keys ht.linked op
      refine ⟨hLinked, fun p' hPk' => ?_⟩
      obtain ⟨p, hPk, hSame⟩ := hKeys p' hPk'
      show (Table.keys _ p').Nodup
      rw [hSame]
      exact ht.law p hPk
    exact alter_keeps (I := Keyed KeysUnique) hStep h (Trace.along_true t operations)

/-- Keys stay different, as long as no statement brings one in twice. -/
def uniqueLaw : TableLaw where
  holds := Keyed KeysUnique
  act := uniqueFits
  put columns rows := ∀ p, columns.findIdx? Column.primaryKey = some p →
    (rows.map fun r => rowPkKey r p).Nodup
  holds_act _ _ h hFit := keysUnique_result h hFit
  holds_put _ _ _ _ h := ⟨rfl, h⟩

/-- **Key uniqueness.** After every run of calls, logins and transactions from
`Engine::new` in which no statement brings a key in twice, no two rows of a
table with a key column have the same key. -/
theorem keysUnique_run (rootPassword : Str) {moves : List Move}
    (hFits : Trace.Along World.step uniqueLaw.Meets (World.fresh rootPassword) moves) :
    (Trace.run World.step (World.fresh rootPassword) moves).Each
      fun t => ∀ p, t.pkColIdx = some p → KeysUnique t p := by
  have hRun := uniqueLaw.holds_run rootPassword hFits
  exact hRun.mono fun t ht => ht.law

end KeyUniqueness

-- ---------------------------------------------------------------------------
-- A key twice
-- ---------------------------------------------------------------------------

section KeyTwice

set_option maxRecDepth 2000

local instance keyUniquenessPlatform : Platform := tablePlatform
  [("CREATE TABLE t (a INT PRIMARY KEY)", [createKeyed]),
    ("INSERT INTO t VALUES (1)", [insertNumbers ["1"]]),
    ("INSERT INTO t VALUES (2)", [insertNumbers ["2"]])]

noncomputable instance (t : Table) : ∀ a, Decidable (uniqueLaw.act t a)
  | .insert replaceInto names rows =>
    inferInstanceAs (Decidable (Trace.Along (insertStep replaceInto names)
      (freshRow replaceInto names) t rows))
  | .delete .. | .deletePrepared .. | .truncate | .alter _ => isTrue trivial
  | .insertPrepared _ | .update .. | .updatePrepared .. => Classical.propDecidable _

instance (columns : List Column) (rows : List Row) : Decidable (uniqueLaw.put columns rows) :=
  decidableAtKey _ _

theorem keysUnique_run_two :
    (Trace.run World.step (World.fresh [])
        (createKeyedThen ["INSERT INTO t VALUES (1)", "INSERT INTO t VALUES (2)"])).Each
      fun t => ∀ p, t.pkColIdx = some p → KeysUnique t p :=
  keysUnique_run [] (by decide +kernel)

/-- The same INSERT twice. -/
theorem not_keysUnique_run :
    ¬ ∀ (rootPassword : Str) (moves : List Move),
      (Trace.run World.step (World.fresh rootPassword) moves).Each
        fun t => ∀ p, t.pkColIdx = some p → KeysUnique t p := by
  intro hAll
  have hRun := hAll [] (createKeyedThen ["INSERT INTO t VALUES (1)", "INSERT INTO t VALUES (1)"])
  have hTable : (findTable (Trace.run World.step (World.fresh []) (createKeyedThen
      ["INSERT INTO t VALUES (1)", "INSERT INTO t VALUES (1)"])).engine.databases "test" "t" [] []).map
        (fun t => (t.rows, t.pkColIdx)) = .ok ([[.int 1], [.int 1]], some 0) := by
    decide +kernel
  cases hFind : findTable (Trace.run World.step (World.fresh []) (createKeyedThen
      ["INSERT INTO t VALUES (1)", "INSERT INTO t VALUES (1)"])).engine.databases "test" "t" [] [] with
  | error other => rw [hFind] at hTable; cases hTable
  | ok t =>
    rw [hFind] at hTable
    obtain ⟨hRows, hPk⟩ := Prod.mk.inj (Except.ok.inj hTable)
    have hUnique := hRun.of_findTable hFind 0 hPk
    rw [KeysUnique, hRows] at hUnique
    revert hUnique
    decide

end KeyTwice

end RunAlexDb
