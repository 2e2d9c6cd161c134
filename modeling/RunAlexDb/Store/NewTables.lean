import RunAlexDb.Model.Concrete
import RunAlexDb.Statement.PreparedText

/-!
# NewTables — what CREATE leaves of the tables that are there

CREATE DATABASE leaves every table. CREATE TABLE puts a new table under its name,
and with IF NOT EXISTS only where there is none; without it a table of that name
is gone, its rows with it, and the answer is OK.

Main result: `create_keeps_iff`.
-/

set_option linter.unusedSectionVars false

namespace RunAlexDb

open Text Platform

section NewTables

variable [Platform]

/-- A statement that creates. -/
inductive Create
  | database (name : ObjectName)
  | table (create : CreateTable)

def Create.statement : Create → Statement
  | .database name => .createDatabase name
  | .table create => .createTable create

/-- Columns, rows, index and column stores of one table are those of another. -/
structure Table.SameContents (t t' : Table) : Prop where
  columns : t'.columns = t.columns
  rows : t'.rows = t.rows
  pkColIdx : t'.pkColIdx = t.pkColIdx
  pkIndex : t'.pkIndex = t.pkIndex
  colIntData : t'.colIntData = t.colIntData
  colStrData : t'.colStrData = t.colStrData

theorem Table.SameContents.refl (t : Table) : t.SameContents t := ⟨rfl, rfl, rfl, rfl, rfl, rfl⟩

/-- Every table that was there is there with its contents. -/
def Store.KeepsTables (s s' : Store) : Prop :=
  ∀ db name t, s.table? db name = some t → ∃ t', s'.table? db name = some t' ∧ t.SameContents t'

/-- The table a CREATE TABLE builds, none when its SELECT answers no rows. -/
def CreateTable.built (now : Nat) (dbName : Str) (create : CreateTable) (e : Engine) : Option Table :=
  match create.query with
  | none =>
    some (Table.create (createTarget dbName create.name).1 (createTarget dbName create.name).2
      (create.columns.map createColumn) [])
  | some query =>
    match (select (e.env now) dbName query).map asTextRows with
    | .ok (.ok (qcols, qrows)) => some (tableAs dbName create qcols qrows)
    | _ => none

/-- The statement takes the place of no table, but for one with the contents of
the table it builds. -/
def Create.Spares (now : Nat) (currentDb : Option Str) (e : Engine) : Create → Prop
  | .database _ => True
  | .table create =>
    create.ifNotExists = true ∨
      ∀ old t : Table, Store.table? e.databases (createTarget (dbOrTest currentDb) create.name).1
          (createTarget (dbOrTest currentDb) create.name).2 = some old →
        create.built now (dbOrTest currentDb) e = some t → old.SameContents t

-- ---------------------------------------------------------------------------
-- The effects
-- ---------------------------------------------------------------------------

theorem name_built {now : Nat} {dbName : Str} {create : CreateTable} {e : Engine} {t : Table}
    (h : create.built now dbName e = some t) : t.name = (createTarget dbName create.name).2 := by
  unfold CreateTable.built at h
  split at h
  · obtain rfl := Option.some.inj h
    rfl
  · split at h
    · obtain rfl := Option.some.inj h
      rfl
    · cases h

theorem createEffects_eq (now : Nat) (dbName : Str) (create : CreateTable) (e : Engine) :
    createEffects now dbName create e =
      (create.built now dbName e).elim [] fun t =>
        putEffects e.databases create.ifNotExists (createTarget dbName create.name).1 t := by
  unfold createEffects CreateTable.built
  rcases create.query with _ | query
  · rfl
  · simp only
    rcases (select (e.env now) dbName query).map asTextRows with fault | other | ⟨qcols, qrows⟩ <;> rfl

theorem table?_addDatabase_store (s : Store) (name db table : Str) :
    (s.addDatabase name).table? db table = s.table? db table := by
  unfold Store.addDatabase
  split_ifs with hThere
  · rfl
  · have hNone : HashMap.get s name = none := by
      rw [HashMap.containsKey, Option.not_isSome_iff_eq_none] at hThere
      exact hThere
    unfold Store.table?
    rw [HashMap.get_insert]
    split_ifs with hSame
    · rw [hSame, hNone]
      rfl
    · rfl

/-- Putting a table changes the tables at its place only. -/
theorem table?_put (s : Store) (db db' name : Str) (t : Table) :
    (s.apply (.put db t)).table? db' name =
      if db' = db ∧ name = t.name then (HashMap.get s db).map fun _ => t else s.table? db' name := by
  show (s.modifyTables db fun tables => tables.insert t.name t).table? db' name = _
  unfold Store.table? Store.modifyTables
  rw [HashMap.get_modify]
  by_cases hDb : db' = db
  · subst hDb
    rw [if_pos rfl]
    rcases HashMap.get s db' with _ | d
    · simp
    · simp only [Option.map_some, Option.bind_some, HashMap.get_insert, true_and]
  · rw [if_neg hDb, if_neg fun h => hDb h.1]

/-- What a put leaves of the tables. -/
theorem keepsTables_put (s : Store) (ifNotExists : Bool) (db : Str) (t : Table) :
    s.KeepsTables (s.run (putEffects s ifNotExists db t)) ↔
      ifNotExists = true ∨ ∀ old, s.table? db t.name = some old → old.SameContents t := by
  have hSelf : s.KeepsTables s := fun _ _ t h => ⟨t, h, .refl t⟩
  unfold putEffects
  rcases hDb : HashMap.get s db with _ | d
  · refine iff_of_true hSelf (.inr fun old hOld => ?_)
    unfold Store.table? at hOld
    rw [hDb] at hOld
    cases hOld
  · simp only
    have hOld : ∀ name, s.table? db name = d.tables.get name := by
      intro name
      unfold Store.table?
      rw [hDb]
      rfl
    have hPut : s.KeepsTables (s.apply (.put db t)) ↔
        ∀ old, s.table? db t.name = some old → old.SameContents t := by
      constructor
      · intro hKeeps old hThere
        obtain ⟨t', hNew, hSame⟩ := hKeeps db t.name old hThere
        rw [table?_put, if_pos ⟨rfl, rfl⟩, hDb] at hNew
        obtain rfl := Option.some.inj hNew
        exact hSame
      · intro hSame db' name old hThere
        rw [table?_put]
        split_ifs with hHere
        · obtain ⟨rfl, rfl⟩ := hHere
          rw [hDb]
          exact ⟨t, rfl, hSame old hThere⟩
        · exact ⟨old, hThere, .refl old⟩
    split_ifs with hKeep
    · exact iff_of_true hSelf (.inl (Bool.and_eq_true_iff.1 hKeep).1)
    · rw [Store.run_cons, Store.run_nil, hPut]
      constructor
      · exact .inr
      · rintro (hFlag | hSame)
        · -- IF NOT EXISTS, and no table of the name
          rw [hFlag, Bool.true_and, HashMap.containsKey, Option.not_isSome_iff_eq_none] at hKeep
          intro old hThere
          rw [hOld, hKeep] at hThere
          cases hThere
        · exact hSame

/-- **CREATE** keeps every table just when it takes the place of none, a table
with the same contents aside. -/
theorem create_keeps_iff (now : Nat) (currentDb : Option Str) (e : Engine) (c : Create) :
    Store.KeepsTables e.databases ((execStmt now currentDb c.statement).exec e).2.databases ↔
      c.Spares now currentDb e := by
  rw [(wrote_execStmt now currentDb c.statement e).databases]
  rcases c with name | create
  · refine iff_of_true ?_ trivial
    intro db table t hThere
    refine ⟨t, ?_, .refl t⟩
    show (Store.addDatabase e.databases (ObjectName.toString name)).table? db table = some t
    rw [table?_addDatabase_store, hThere]
  · show Store.KeepsTables e.databases
        (Store.run e.databases (createEffects now (dbOrTest currentDb) create e)) ↔ _
    unfold Create.Spares
    simp only
    rw [createEffects_eq]
    rcases hBuilt : create.built now (dbOrTest currentDb) e with _ | t
    · refine iff_of_true (fun _ _ t hThere => ⟨t, hThere, .refl t⟩) (.inr fun old t _ hSome => ?_)
      cases hSome
    · rw [Option.elim_some, keepsTables_put, name_built hBuilt]
      constructor
      · rintro (hFlag | hSame)
        · exact .inl hFlag
        · refine .inr fun old t' hThere hSome => ?_
          obtain rfl := Option.some.inj hSome
          exact hSame old hThere
      · rintro (hFlag | hSame)
        · exact .inl hFlag
        · exact .inr fun old hThere => hSame old t hThere rfl

end NewTables

-- ---------------------------------------------------------------------------
-- A table created again
-- ---------------------------------------------------------------------------

section Again

local instance newTablesPlatform : Platform := tablePlatform []

/-- A database with a table of one row. -/
def oneRow : Store :=
  HashMap.ofList [("test", ⟨"test", HashMap.ofList
    [("t", (Table.create "test" "t" [⟨"a", .int, true, false⟩] []).push [.int 1])]⟩)]

/-- CREATE TABLE t (a INT) once more: the row is gone. -/
theorem not_create_keeps :
    ¬ ∀ (now : Nat) (currentDb : Option Str) (e : Engine) (c : Create),
      Store.KeepsTables e.databases ((execStmt now currentDb c.statement).exec e).2.databases := by
  intro hAll
  have hKeeps := hAll 0 none { Engine.fresh [] with databases := oneRow }
    (.table ⟨[⟨"t", none⟩], [⟨⟨"a", none⟩, .int, []⟩], false, none⟩)
  obtain ⟨t', hNew, hSame⟩ := hKeeps "test" "t" _ rfl
  have hRows : (Store.table? ((execStmt 0 none (.createTable ⟨[⟨"t", none⟩], [⟨⟨"a", none⟩, .int, []⟩],
      false, none⟩)).exec { Engine.fresh [] with databases := oneRow }).2.databases "test" "t").map
        (fun t => t.rows) = some [] := by
    decide +kernel
  unfold Create.statement at hNew
  rw [hNew, Option.map_some, hSame.rows] at hRows
  cases hRows

end Again

end RunAlexDb
