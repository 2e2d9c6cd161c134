import RunAlexDb.Store.KeyUniqueness

/-!
# AutoIncrement — generated keys are new

An INSERT that does not name the primary-key column takes its value from
`next_auto`. The value is new as long as every integer that the rows have as
key lies below `next_auto`; only an INSERT as text moves `next_auto`, past the
integers it inserts as such.

Main result: `generated_fresh_run`.
-/

set_option linter.unusedSectionVars false

namespace RunAlexDb

open Text Platform

section AutoIncrement

variable [Platform]

/-- No column name of the statement is that of the column. -/
def isOmitted (names : List Str) (c : Column) : Bool :=
  (names.findIdx? fun n => eqIgnoreAsciiCase n c.name).isNone

/-- How many values an INSERT with these column names takes from `next_auto`
for a row. -/
def omittedKeys (t : Table) (names : List Str) : Nat :=
  if names.isEmpty || t.columns.isEmpty then 0
  else (t.columns.filter fun c => c.primaryKey && isOmitted names c).length

/-- The values taken for a row, in order. -/
def takeAuto (names : List Str) : List Column → Int64 → List Int64
  | [], _ => []
  | c :: cols, auto =>
    if c.primaryKey && isOmitted names c then auto :: takeAuto names cols (auto + 1)
    else takeAuto names cols auto

/-- The values that an INSERT with these column names generates for a row. -/
def generated (t : Table) (names : List Str) : List Int64 :=
  if names.isEmpty || t.columns.isEmpty then [] else takeAuto names t.columns t.nextAuto

-- ---------------------------------------------------------------------------
-- Generation
-- ---------------------------------------------------------------------------

/-- The generated values are the cells of the omitted key columns, and
`next_auto` goes past them. -/
theorem mapRow_takeAuto (names : List Str) (src : Row) (cols : List Column) (auto : Int64) :
    ((cols.zip (mapRow names src cols auto).1).filter fun x =>
        x.1.primaryKey && isOmitted names x.1).map Prod.snd = (takeAuto names cols auto).map .int ∧
      (mapRow names src cols auto).2 = auto + Int64.ofNat (takeAuto names cols auto).length := by
  induction cols generalizing auto with
  | nil => exact ⟨rfl, (Int64.add_zero auto).symm⟩
  | cons c cols ih =>
    rw [mapRow, takeAuto]
    cases hNamed : names.findIdx? fun n => eqIgnoreAsciiCase n c.name with
    | some si =>
      have hOmitted : isOmitted names c = false := by rw [isOmitted, hNamed]; rfl
      simp only [hOmitted, Bool.and_false, Bool.false_eq_true, if_false, List.zip_cons_cons,
        List.filter_cons]
      exact ih auto
    | none =>
      have hOmitted : isOmitted names c = true := by rw [isOmitted, hNamed]; rfl
      by_cases hKey : c.primaryKey = true
      · obtain ⟨hCells, hNext⟩ := ih (auto + 1)
        simp only [hOmitted, hKey, Bool.and_true, if_true, List.zip_cons_cons, List.filter_cons,
          List.map_cons, List.length_cons]
        refine ⟨congrArg _ hCells, ?_⟩
        rw [hNext, Int64.add_assoc, Int64.ofNat_add, Int64.add_comm 1]
        rfl
      · simp only [hOmitted, hKey, Bool.and_true, Bool.false_eq_true, if_false, List.zip_cons_cons,
          List.filter_cons]
        exact ih auto

theorem length_takeAuto (names : List Str) (cols : List Column) (auto : Int64) :
    (takeAuto names cols auto).length =
      (cols.filter fun c => c.primaryKey && isOmitted names c).length := by
  induction cols generalizing auto with
  | nil => rfl
  | cons c cols ih =>
    rw [takeAuto, List.filter_cons]
    split
    · rw [List.length_cons, List.length_cons, ih]
    · exact ih auto

theorem toInt_add_nat {auto : Int64} {n : Nat} (h : auto.toInt + n < 2 ^ 63) :
    (auto + Int64.ofNat n).toInt = auto.toInt + n := by
  have hLow := auto.le_toInt
  have hSize : Int64.size = 2 ^ 64 := rfl
  rw [Int64.toInt_add, Int64.toInt_ofNat', hSize, Int.add_bmod_bmod]
  exact Int.bmod_eq_of_le (by omega) (by omega)

/-- Without a wrap, the values taken are none below the first. -/
theorem le_of_mem_takeAuto {names : List Str} {cols : List Column} {auto n : Int64}
    (hRoom : auto.toInt + (takeAuto names cols auto).length < 2 ^ 63)
    (hMem : n ∈ takeAuto names cols auto) : auto.toInt ≤ n.toInt := by
  induction cols generalizing auto with
  | nil => cases hMem
  | cons c cols ih =>
    rw [takeAuto] at hRoom hMem
    split at hMem
    · rename_i hTaken
      rw [if_pos hTaken, List.length_cons] at hRoom
      have hOne : (auto + 1).toInt = auto.toInt + 1 := toInt_add_nat (n := 1) (by omega)
      rcases List.mem_cons.1 hMem with rfl | hRest
      · exact Int.le_refl _
      · have := ih (by rw [hOne]; omega) hRest
        omega
    · rename_i hNot
      rw [if_neg hNot] at hRoom
      exact ih hRoom hMem

/-- `next_auto` once a row is made, without a wrap. -/
theorem toInt_sourceRow {t : Table} {names : List Str} {src : Row}
    (hRoom : t.nextAuto.toInt + omittedKeys t names < 2 ^ 63) :
    (t.sourceRow names src).2.toInt = t.nextAuto.toInt + omittedKeys t names := by
  rw [Table.sourceRow, omittedKeys] at *
  split
  · exact (Int.add_zero _).symm
  · rename_i hNamed
    rw [if_neg hNamed] at hRoom
    rw [(mapRow_takeAuto names src t.columns t.nextAuto).2, toInt_add_nat] <;>
      rw [length_takeAuto]
    exact hRoom

theorem le_of_mem_generated {t : Table} {names : List Str} {n : Int64}
    (hRoom : t.nextAuto.toInt + omittedKeys t names < 2 ^ 63) (hMem : n ∈ generated t names) :
    t.nextAuto.toInt ≤ n.toInt := by
  rw [generated] at hMem
  split at hMem
  · cases hMem
  · rename_i hNamed
    refine le_of_mem_takeAuto ?_ hMem
    rw [omittedKeys, if_neg hNamed] at hRoom
    rw [length_takeAuto]
    exact hRoom

-- ---------------------------------------------------------------------------
-- The law and its conditions
-- ---------------------------------------------------------------------------

/-- The integers that the key reads as all meet `P`. -/
def KeyInt (k : Str) (P : Int64 → Prop) : Prop := ∀ n : Int64, k = i64ToString n → P n

instance (k : Str) (P : Int64 → Prop) [DecidablePred P] : Decidable (KeyInt k P) :=
  match h : parseI64 k with
  | none => isTrue fun n hn => by rw [hn, parseI64_i64ToString] at h; cases h
  | some m =>
    decidable_of_iff (k = i64ToString m → P m)
      ⟨fun hm n hn => by
        have hSame := h
        rw [hn, parseI64_i64ToString] at hSame
        obtain rfl := Option.some.inj hSame
        exact hm hn, fun hAll => hAll m⟩

/-- Every integer that a row has as key lies below `next_auto`. -/
def AutoAhead (t : Table) (p : Nat) : Prop :=
  ∀ k ∈ t.keys p, KeyInt k fun n => n.toInt < t.nextAuto.toInt

/-- A row of an INSERT leaves `next_auto` ahead: the values it takes do not reach
the end of the type, and its key, if it is the text of an integer, is this
integer and not the last one, or lies below `next_auto` already. -/
def insertAhead (names : List Str) (t : Table) (src : Row) : Prop :=
  ∀ p, t.pkColIdx = some p →
    t.nextAuto.toInt + omittedKeys t names < 2 ^ 63 ∧
      KeyInt (rowPkKey (t.sourceRow names src).1 p) fun n =>
        ((t.sourceRow names src).1[p]? = some (.int n) ∧ n.toInt + 1 < 2 ^ 63) ∨
          n.toInt < (t.sourceRow names src).2.toInt

/-- An UPDATE gives no row an integer key from `next_auto` on. -/
def updateAhead (t : Table) (p : Nat) (a : TableAction) : Prop :=
  (∀ key ri r, a.lookup t = .ok (some key) → t.pkIndex.get key = some ri → t.rows[ri]? = some r →
    KeyInt (rowPkKey (assignedRow t.columns r (a.assigns t)) p) fun n =>
      n.toInt < t.nextAuto.toInt) ∧
  (a.lookup t = .ok none → ∀ r ∈ t.rows,
    KeyInt (rowPkKey ((a.scanRow t).exec r).2 p) fun n => n.toInt < t.nextAuto.toInt)

def autoFits (t : Table) (a : TableAction) : Prop :=
  match a with
  | .insert replaceInto names rows =>
    Trace.Along (insertStep replaceInto names) (insertAhead names) t rows
  | .insertPrepared rows => ∀ p, t.pkColIdx = some p → ∀ row ∈ rows,
      KeyInt (rowPkKey row p) fun n => n.toInt < t.nextAuto.toInt
  | .update .. | .updatePrepared .. => ∀ p, t.pkColIdx = some p → updateAhead t p a
  | .delete .. | .deletePrepared .. | .truncate | .alter _ => True

-- ---------------------------------------------------------------------------
-- Actions
-- ---------------------------------------------------------------------------

/-- Fewer keys and a `next_auto` no smaller. -/
theorem AutoAhead.mono {t t' : Table} {p : Nat} (h : AutoAhead t p)
    (hKeys : ∀ k ∈ t'.keys p, k ∈ t.keys p) (hNext : t.nextAuto.toInt ≤ t'.nextAuto.toInt) :
    AutoAhead t' p := fun k hk n hn => Int.lt_of_lt_of_le (h k (hKeys k hk) n hn) hNext

theorem autoAhead_push {t : Table} {row : Row} {p : Nat} (h : AutoAhead t p)
    (hRow : KeyInt (rowPkKey row p) fun n => n.toInt < t.nextAuto.toInt) :
    AutoAhead (t.push row) p := by
  intro k hk n hn
  rw [keys_push] at hk
  rcases List.mem_append.1 hk with hOld | hNew
  · exact h k hOld n hn
  · rw [List.mem_singleton.1 hNew] at hn
    exact hRow n hn

/-- Moving `next_auto` past a row that is not the end of the type. -/
theorem advanceAuto_ahead {t : Table} {row : Row} {p : Nat} (hPk : t.pkColIdx = some p)
    (hRow : KeyInt (rowPkKey row p) fun n =>
      (row[p]? = some (.int n) ∧ n.toInt + 1 < 2 ^ 63) ∨ n.toInt < t.nextAuto.toInt) :
    t.nextAuto.toInt ≤ (t.advanceAuto row).nextAuto.toInt ∧
      KeyInt (rowPkKey row p) fun n => n.toInt < (t.advanceAuto row).nextAuto.toInt := by
  have hCell : ∀ m, row[p]? = some (.int m) → rowPkKey row p = i64ToString m := by
    intro m hm
    rw [rowPkKey, hm]
  rw [Table.advanceAuto, hPk, Option.bind_some]
  split
  · rename_i m hm
    by_cases hLe : t.nextAuto ≤ m
    · -- the integer key is at or past `next_auto`, and not the last integer
      have hLe' : t.nextAuto.toInt ≤ m.toInt := Int64.le_iff_toInt_le.1 hLe
      have hEnd : m.toInt + 1 < 2 ^ 63 := by
        rcases hRow m (hCell m hm) with ⟨-, hEnd⟩ | hBelow
        · exact hEnd
        · omega
      have hNext : (m + 1).toInt = m.toInt + 1 := toInt_add_nat (n := 1) hEnd
      simp only [if_pos hLe, hNext]
      refine ⟨by omega, fun n hn => ?_⟩
      obtain rfl := i64ToString_inj.1 ((hCell m hm).symm.trans hn)
      omega
    · have hLt : m.toInt < t.nextAuto.toInt := Int64.lt_iff_toInt_lt.1 (Int64.not_le.1 hLe)
      simp only [if_neg hLe]
      refine ⟨Int.le_refl _, fun n hn => ?_⟩
      obtain rfl := i64ToString_inj.1 ((hCell m hm).symm.trans hn)
      exact hLt
  · rename_i hNotInt
    refine ⟨Int.le_refl _, fun n hn => ?_⟩
    rcases hRow n hn with ⟨hInt, -⟩ | hBelow
    · exact absurd hInt (hNotInt n)
    · exact hBelow

theorem autoAhead_insertStep {t : Table} (h : Keyed AutoAhead t) {replaceInto : Bool}
    {names : List Str} {src : Row} (hAhead : insertAhead names t src) :
    Keyed AutoAhead (insertStep replaceInto names t src) := by
  have hNext : ∀ p, t.pkColIdx = some p →
      t.nextAuto.toInt ≤ (t.sourceRow names src).2.toInt := by
    intro p hPk
    have hMoved : (t.sourceRow names src).2.toInt = t.nextAuto.toInt + omittedKeys t names :=
      toInt_sourceRow (hAhead p hPk).1
    omega
  rcases insertStep_cases replaceInto names t src with hStop | ⟨t', hRoom, hPush⟩
  · rw [hStop]
    exact ⟨h.linked, fun p hPk => (h.law p hPk).mono (fun _ hk => hk) (hNext p hPk)⟩
  · rw [hPush]
    refine ⟨?_, fun p hPk => ?_⟩
    · show (t'.advanceAuto _).pkColIdx = (t'.advanceAuto _).columns.findIdx? _
      rw [pkColIdx_advanceAuto, columns_advanceAuto, hRoom.pkColIdx, hRoom.columns]
      exact h.linked
    · have hPk' : t'.pkColIdx = some p := by
        rw [← pkColIdx_advanceAuto t' (t.sourceRow names src).1]
        exact hPk
      have hPkOld : t.pkColIdx = some p := by rw [← hRoom.pkColIdx, hPk']
      have hRow := (hAhead p hPkOld).2
      rw [← hRoom.nextAuto] at hRow
      obtain ⟨hMore, hBelow⟩ := advanceAuto_ahead hPk' hRow
      refine autoAhead_push ((h.law p hPkOld).mono (fun k hk => ?_) ?_) hBelow
      · rw [keys_advanceAuto] at hk
        refine keys_mono (fun r hr => ?_) k hk
        rw [hRoom.rows] at hr
        exact mem_of_remaining hr
      · have hStart := hNext p hPkOld
        rw [hRoom.nextAuto] at hMore
        omega

theorem autoAhead_result {t : Table} (h : Keyed AutoAhead t) {a : TableAction}
    (hFit : autoFits t a) : Keyed AutoAhead (a.result t) := by
  have hUpdate : ∀ a : TableAction, ((∃ now assignments selection, a = .update now assignments
      selection) ∨ ∃ now assignments selection bound, a = .updatePrepared now assignments selection
        bound) → (∀ p, t.pkColIdx = some p → updateAhead t p a) →
          Keyed AutoAhead (a.result t) := by
    intro a hShape hFit
    refine update_rows hShape h (fun key ri r ints strs hLookup hEntry hRow => ?_) fun hLookup => ?_
    · refine ⟨h.linked, fun p hPk k hk n hn => ?_⟩
      rw [keys_assigned] at hk
      rcases List.mem_or_eq_of_mem_set hk with hOld | rfl
      · exact h.law p hPk k hOld n hn
      · exact (hFit p hPk).1 key ri r hLookup hEntry hRow n hn
    · refine ⟨h.linked, fun p hPk k hk n hn => ?_⟩
      obtain ⟨r', hr', rfl⟩ := mem_keys.1 hk
      obtain ⟨r, hr, rfl | rfl⟩ := forall₂_mem (Prog.exec_iterMut_forall (a.scanRow t) t.rows) r' hr'
      · exact h.law p hPk _ (mem_keys.2 ⟨r', hr, rfl⟩) n hn
      · exact (hFit p hPk).2 hLookup r hr n hn
  have hDelete : ∀ a : TableAction, ((∃ now selection, a = .delete now selection) ∨
      ∃ now selection bound, a = .deletePrepared now selection bound) →
        Keyed AutoAhead (a.result t) := by
    intro a hShape
    refine delete_keeps hShape h (fun key p _ hPk => ?_)
      (fun rows hRows _ => ⟨h.linked, fun p hPk => (h.law p hPk).mono
        (keys_mono fun r hr => hRows.subset hr) (Int.le_refl _)⟩)
      fun rows _ hRows _ => ⟨h.linked, fun p hPk => (h.law p hPk).mono
        (keys_mono fun r hr => hRows.subset hr) (Int.le_refl _)⟩
    have hMem : ∀ r ∈ (t.deleteKey p key).rows, r ∈ t.rows := fun r hr => mem_deleteKey hr
    rcases deleteKey_cases t p key with
      ⟨-, hEq⟩ | ⟨ri, -, ⟨-, hEq⟩ | ⟨last, ints, strs, -, -, hEq⟩⟩
    · rw [hEq]
      exact h
    · rw [hEq]
      exact ⟨h.linked, h.law⟩
    · rw [hEq] at hMem ⊢
      exact ⟨h.linked, fun p' hPk' => (h.law p' hPk').mono (keys_mono hMem) (Int.le_refl _)⟩
  cases a with
  | insert replaceInto names rows =>
    exact insert_keeps (I := Keyed AutoAhead) (fun t src ht hAhead => autoAhead_insertStep ht hAhead)
      h hFit
  | insertPrepared rows =>
    have hStep : ∀ (t' : Table) (row : Row),
        (Keyed AutoAhead t' ∧ t'.pkColIdx = t.pkColIdx ∧ t'.nextAuto = t.nextAuto) →
          (∀ p, t.pkColIdx = some p → KeyInt (rowPkKey row p) fun n => n.toInt < t.nextAuto.toInt) →
            (Keyed AutoAhead (t'.push row) ∧ (t'.push row).pkColIdx = t.pkColIdx ∧
              (t'.push row).nextAuto = t.nextAuto) := by
      rintro t' row ⟨ht, hPkSame, hNextSame⟩ hRow
      refine ⟨⟨ht.linked, fun p hPk => autoAhead_push (ht.law p hPk) ?_⟩, hPkSame, hNextSame⟩
      rw [hNextSame]
      exact hRow p (hPkSame.symm.trans hPk)
    have hAlong : Trace.Along Table.push (fun _ row => ∀ p, t.pkColIdx = some p →
        KeyInt (rowPkKey row p) fun n => n.toInt < t.nextAuto.toInt) t rows :=
      Trace.along_of_forall (fun row hMem _ p hPk => hFit p hPk row hMem) t
    rw [result_insertPrepared]
    exact (Trace.invariant_run hStep ⟨h, rfl, rfl⟩ hAlong).1
  | update now assignments selection => exact hUpdate _ (.inl ⟨_, _, _, rfl⟩) hFit
  | updatePrepared now assignments selection bound => exact hUpdate _ (.inr ⟨_, _, _, _, rfl⟩) hFit
  | delete now selection => exact hDelete _ (.inl ⟨_, _, rfl⟩)
  | deletePrepared now selection bound => exact hDelete _ (.inr ⟨_, _, _, rfl⟩)
  | truncate => exact ⟨h.linked, fun p _ k hk => by cases hk⟩
  | alter operations =>
    have hStep : ∀ (t : Table) (op : AlterTableOperation), Keyed AutoAhead t → True →
        Keyed AutoAhead (alterStep t op) := by
      intro t op ht _
      obtain ⟨hLinked, -, hNext, hKeys⟩ := alterStep_keys ht.linked op
      refine ⟨hLinked, fun p' hPk' => ?_⟩
      obtain ⟨p, hPk, hSame⟩ := hKeys p' hPk'
      intro k hk n hn
      rw [hNext]
      rw [hSame] at hk
      exact ht.law p hPk k hk n hn
    exact alter_keeps (I := Keyed AutoAhead) hStep h (Trace.along_true t operations)

/-- `next_auto` stays ahead of the keys, as long as nothing brings an integer
key in from there on. -/
def autoLaw : TableLaw where
  holds := Keyed AutoAhead
  act := autoFits
  put columns rows := ∀ p, columns.findIdx? Column.primaryKey = some p → ∀ r ∈ rows,
    KeyInt (rowPkKey r p) fun n => n.toInt < (1 : Int64).toInt
  holds_act _ _ h hFit := autoAhead_result h hFit
  holds_put schema name columns rows h := by
    refine ⟨rfl, fun p hPk k hk => ?_⟩
    obtain ⟨r, hr, rfl⟩ := mem_keys.1 hk
    exact h p hPk r hr

/-- No row of the table has the key of a value generated for the source row. -/
def freshGenerated (names : List Str) (t : Table) (_src : Row) : Prop :=
  ∀ p, t.pkColIdx = some p → ∀ n ∈ generated t names, ∀ r ∈ t.rows, rowPkKey r p ≠ i64ToString n

/-- What is claimed of the tables that INSERTs meet: each value generated is new
when it is generated, row by row. -/
def freshLaw : TableLaw where
  holds _ := True
  act t a :=
    match a with
    | .insert replaceInto names rows =>
      Trace.Along (insertStep replaceInto names) (freshGenerated names) t rows
    | _ => True
  put _ _ := True
  holds_act _ _ _ _ := trivial
  holds_put _ _ _ _ _ := trivial

/-- One row. -/
theorem freshGenerated_of_ahead {t : Table} (h : Keyed AutoAhead t) {names : List Str} {src : Row}
    (hAhead : insertAhead names t src) : freshGenerated names t src := by
  intro p hPk n hn r hr hKey
  have hBelow := h.law p hPk _ (mem_keys.2 ⟨r, hr, rfl⟩) n hKey
  have hFrom := le_of_mem_generated (hAhead p hPk).1 hn
  omega

/-- **Generated keys.** In every run of calls, logins and transactions from
`Engine::new` in which nothing brings in an integer key from `next_auto` on,
each value that an INSERT or REPLACE generates is the key of no row that the
table holds at that moment. -/
theorem generated_fresh_run (rootPassword : Str) {moves : List Move}
    (hFits : Trace.Along World.step autoLaw.Meets (World.fresh rootPassword) moves) :
    Trace.Along World.step freshLaw.Meets (World.fresh rootPassword) moves := by
  refine autoLaw.meets_run freshLaw (fun t a h hFit => ?_) (fun _ _ _ => trivial) rootPassword hFits
  cases a with
  | insert replaceInto names rows =>
    exact Trace.Along.of_invariant (I := Keyed AutoAhead)
      (fun t src ht hAhead => autoAhead_insertStep ht hAhead)
      (fun t src ht hAhead => freshGenerated_of_ahead ht hAhead) h hFit
  | _ => trivial

instance (names : List Str) (t : Table) (src : Row) : Decidable (insertAhead names t src) :=
  decidableAtKey _ _

-- The values are searched by the list they stand in: all of `Int64` could be, too.
instance (names : List Str) (t : Table) (src : Row) : Decidable (freshGenerated names t src) :=
  have : ∀ p, Decidable (∀ n ∈ generated t names, ∀ r ∈ t.rows, rowPkKey r p ≠ i64ToString n) :=
    fun _ => List.decidableBAll _ _
  decidableAtKey _ _

noncomputable instance (t : Table) : ∀ a, Decidable (autoLaw.act t a)
  | .insert replaceInto names rows => inferInstanceAs (Decidable
    (Trace.Along (insertStep replaceInto names) (insertAhead names) t rows))
  | .insertPrepared rows => inferInstanceAs (Decidable (∀ p, t.pkColIdx = some p → ∀ row ∈ rows,
    KeyInt (rowPkKey row p) fun n => n.toInt < t.nextAuto.toInt))
  | .update .. | .updatePrepared .. => Classical.propDecidable _
  | .delete .. | .deletePrepared .. | .truncate | .alter _ => isTrue trivial

instance (columns : List Column) (rows : List Row) : Decidable (autoLaw.put columns rows) :=
  decidableAtKey _ _

instance (t : Table) : ∀ a, Decidable (freshLaw.act t a)
  | .insert replaceInto names rows => inferInstanceAs (Decidable
    (Trace.Along (insertStep replaceInto names) (freshGenerated names) t rows))
  | .insertPrepared _ | .update .. | .updatePrepared .. | .delete .. | .deletePrepared ..
  | .truncate | .alter _ => isTrue trivial

instance (columns : List Column) (rows : List Row) : Decidable (freshLaw.put columns rows) :=
  isTrue trivial

end AutoIncrement

-- ---------------------------------------------------------------------------
-- A key generated twice
-- ---------------------------------------------------------------------------

section GeneratedTwice

set_option maxRecDepth 2000

/-- `INSERT INTO t (b) VALUES (7)` -/
def insertB : Statement :=
  .insert {
    table := .tableName [⟨"t", none⟩], columns := [⟨"b", none⟩]
    source := some (.mk (.values [[.value (.number "7" false)]]) none none none)
    replaceInto := false }

/-- `INSERT INTO t VALUES (?, ?)` -/
def insertBoth : Statement :=
  .insert {
    table := .tableName [⟨"t", none⟩], columns := []
    source := some (.mk
      (.values [[.value (.placeholder "?"), .value (.placeholder "?")]]) none none none)
    replaceInto := false }

local instance autoIncrementPlatform : Platform := tablePlatform
  [("CREATE TABLE t (a INT PRIMARY KEY, b INT)", [.createTable {
      name := [⟨"t", none⟩]
      columns := [⟨⟨"a", none⟩, .int, [.unique true]⟩, ⟨⟨"b", none⟩, .int, []⟩]
      ifNotExists := false, query := none }]),
    ("INSERT INTO t (b) VALUES (7)", [insertB]),
    ("INSERT INTO t VALUES (?, ?)", [insertBoth])]

/-- The table is created, then the calls are made. -/
def createPairThen (calls : List Call) : List Move :=
  (.text 0 "CREATE TABLE t (a INT PRIMARY KEY, b INT)" none :: calls).map (.call "root")

theorem generated_fresh_run_two :
    Trace.Along World.step freshLaw.Meets (World.fresh [])
      (createPairThen [.text 0 "INSERT INTO t (b) VALUES (7)" none,
        .text 0 "INSERT INTO t (b) VALUES (7)" none]) :=
  generated_fresh_run [] (by decide +kernel)

/-- A prepared INSERT brings key 1 in, and the next INSERT generates 1. -/
theorem not_generated_fresh_run :
    ¬ ∀ (rootPassword : Str) (moves : List Move),
      Trace.Along World.step freshLaw.Meets (World.fresh rootPassword) moves := by
  intro hAll
  have hRun := hAll [] (createPairThen
    [.prepared 0 "INSERT INTO t VALUES (?, ?)" [some "1", some "7"] none,
      .text 0 "INSERT INTO t (b) VALUES (7)" none])
  revert hRun
  decide +kernel

end GeneratedTwice

end RunAlexDb
