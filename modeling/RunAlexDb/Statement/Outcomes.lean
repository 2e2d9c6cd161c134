import RunAlexDb.Statement.Failures
import RunAlexDb.Statement.Runs

/-!
# Outcomes — which statements succeed, and what they bump

`Statement.succeeds` tells from the state before whether `exec_stmt` returns an
OK; `execute` bumps the write generation after every OK. Some statements bump it
themselves as well (`Statement.bumpsItself`); `execute_prepared` has no other
bump than those.

Main results: `settles_execStmt` and `writeGen_job`.
-/

set_option linter.unusedSectionVars false

namespace RunAlexDb

open Text Platform

variable [Platform]

-- ---------------------------------------------------------------------------
-- Queries
-- ---------------------------------------------------------------------------

/-- What is returned is no OK. -/
def NeverOk (x : Rust QueryResult) : Prop := ∀ r, x = .ok r → r.isOk = false

namespace NeverOk

theorem pure {r : QueryResult} (h : r.isOk = false) : NeverOk (Pure.pure r) := by
  intro r' hEq
  cases hEq
  exact h

theorem bind {α : Type} {x : Rust α} {f : α → Rust QueryResult}
    (h : ∀ a, x = .ok a → NeverOk (f a)) : NeverOk (x >>= f) := by
  intro r hEq
  cases x with
  | error fault => cases hEq
  | ok a => exact h a rfl r hEq

end NeverOk

theorem notOk_of_asTextRows {r other : QueryResult} (h : asTextRows r = .error other)
    (hOk : r.isOk = false) : other.isOk = false := by
  cases r with
  | ok affected lastInsertId => cases hOk
  | err code message => cases h; rfl
  | rows columns rows => cases h
  | valueRows columns rows => cases h

theorem notOk_of_findTable {s : Store} {db table noDb noTable : Str} {other : QueryResult}
    (h : findTable s db table noDb noTable = .error other) : other.isOk = false := by
  rw [findTable] at h
  split at h
  · cases h; rfl
  · split at h
    · cases h; rfl
    · cases h

theorem notOk_of_joinAll {env : QueryEnv} {dbName : Str} {joins : List Join} {cols : List Column}
    {rows : List Row} {other : QueryResult}
    (h : joinAll env dbName joins cols rows = .ok (.error other)) : other.isOk = false := by
  induction joins generalizing cols rows with
  | nil => cases h
  | cons j rest ih =>
    obtain ⟨relation, operator⟩ := j
    rcases hTarget : resolveName dbName (relationName relation) with ⟨rdb, rtbl⟩
    simp only [joinAll, hTarget] at h
    cases hRight : findTable env.databases rdb rtbl (unknownDatabase rdb) (unknownTable rtbl) with
    | error other' =>
      rw [hRight] at h
      cases h
      exact notOk_of_findTable hRight
    | ok right =>
      rw [hRight] at h
      simp only at h
      cases hRows : rows.mapM (joinRow env.now (cols ++ joinColumns cols rtbl right.columns)
          operator.condition right.columns.length right.rows) with
      | error fault => rw [hRows] at h; cases h
      | ok joined =>
        rw [hRows] at h
        exact ih h

theorem neverOk_selectConstants (env : QueryEnv) (dbName : Str) (projection : List SelectItem) :
    NeverOk (selectConstants env dbName projection) :=
  NeverOk.bind fun _ _ => NeverOk.pure rfl

theorem neverOk_selectDerived (now : Nat) {inner : QueryResult} (h : inner.isOk = false)
    (projection : List SelectItem) (selection : Option Expr) (orderBy : Option OrderByKind)
    (limit offset : Option Expr) :
    NeverOk (selectDerived now inner projection selection orderBy limit offset) := by
  rw [selectDerived]
  cases hRows : asTextRows inner with
  | error other => exact NeverOk.pure (notOk_of_asTextRows hRows h)
  | ok result => exact NeverOk.bind fun _ _ => NeverOk.bind fun _ _ => NeverOk.pure rfl

theorem notOk_combineSets (quantifier : SetQuantifier) {left right : QueryResult}
    (hLeft : left.isOk = false) (hRight : right.isOk = false) :
    (combineSets quantifier left right).isOk = false := by
  rw [combineSets]
  cases hL : asTextRows left with
  | error other => exact notOk_of_asTextRows hL hLeft
  | ok lrows =>
    cases hR : asTextRows right with
    | error other => exact notOk_of_asTextRows hR hRight
    | ok rrows => rfl

theorem neverOk_selectJoined (env : QueryEnv) (dbName : Str) (from_ : TableWithJoins)
    (projection : List SelectItem) (selection : Option Expr) (groupBy : GroupByExpr)
    (orderBy : Option OrderByKind) (limit offset : Option Expr) :
    NeverOk (selectJoined env dbName from_ projection selection groupBy orderBy limit offset) := by
  rcases hTarget : resolveName dbName (relationName from_.relation) with ⟨bdb, btbl⟩
  simp only [selectJoined, hTarget]
  cases hBase : findTable env.databases bdb btbl (unknownDatabase bdb) (unknownTable btbl) with
  | error other => exact NeverOk.pure (notOk_of_findTable hBase)
  | ok base =>
    refine NeverOk.bind fun joined hJoined => ?_
    cases joined with
    | error other => exact NeverOk.pure (notOk_of_joinAll hJoined)
    | ok result =>
      refine NeverOk.bind fun filtered _ => ?_
      split
      · exact NeverOk.bind fun _ _ => NeverOk.pure rfl
      · exact NeverOk.bind fun _ _ => NeverOk.pure rfl

theorem neverOk_selectPlain (now : Nat) (table : Table) (distinct : Option Distinct)
    (projection : List SelectItem) (selection : Option Expr) (orderBy : Option OrderByKind)
    (limit offset : Option Expr) :
    NeverOk (selectPlain now table distinct projection selection orderBy limit offset) := by
  have hScan : ∀ sel, NeverOk (do
      let rows ← selectedRows now table sel
      if orderBy.isNone && limit.isNone && offset.isNone then
        return .valueRows ((projCols table.columns projection).map Prod.fst)
          (rows.map fun row => (projCols table.columns projection).map fun p => row[p.2]?.getD .null)
      else
        let sorted := (sortSource table.columns orderBy rows).map
          (projectText (projCols table.columns projection))
        let cut := applyLimit (literalOf limit) (sorted.drop ((literalOf offset).getD 0))
        return .rows ((projCols table.columns projection).map Prod.fst)
          (if distinct = some .distinct then cut.reverse.dedup.reverse else cut)) := by
    intro sel
    refine NeverOk.bind fun rows _ => ?_
    split
    · exact NeverOk.pure rfl
    · exact NeverOk.pure rfl
  cases hPk : table.pkColIdx with
  | none =>
    simp only [selectPlain, hPk, pure_bind]
    exact hScan selection
  | some p =>
    cases selection with
    | none =>
      simp only [selectPlain, hPk, pure_bind]
      exact hScan none
    | some w =>
      simp only [selectPlain, hPk, pure_bind]
      refine NeverOk.bind fun col _ => ?_
      cases extractPkEq col.name w with
      | some key => exact NeverOk.pure rfl
      | none => exact hScan (some w)

theorem neverOk_selectTable (now : Nat) (table : Table) (distinct : Option Distinct)
    (projection : List SelectItem) (selection : Option Expr) (groupBy : GroupByExpr)
    (having : Option Expr) (orderBy : Option OrderByKind) (limit offset : Option Expr) :
    NeverOk (selectTable now table distinct projection selection groupBy having orderBy limit
      offset) := by
  rw [selectTable]
  split
  · exact NeverOk.bind fun _ _ => NeverOk.pure rfl
  · dsimp only
    split
    · refine NeverOk.bind fun filtered _ => ?_
      rw [selectGroups]
      exact NeverOk.bind fun _ _ => NeverOk.pure rfl
    · split
      · exact neverOk_selectPlain _ _ _ _ _ _ _ _
      · exact NeverOk.bind fun _ _ => NeverOk.bind fun _ _ => NeverOk.pure rfl

mutual

/-- **A query returns rows or an error.** -/
theorem neverOk_select (env : QueryEnv) (dbName : Str) : (q : Query) → NeverOk (select env dbName q)
  | .mk body orderBy limit offset => by
    rw [select]
    exact neverOk_selectBody env dbName orderBy limit offset body
termination_by structural q => q

theorem neverOk_selectBody (env : QueryEnv) (dbName : Str) (orderBy : Option OrderByKind)
    (limit offset : Option Expr) :
    (body : SetExpr) → NeverOk (selectBody env dbName orderBy limit offset body)
  | .setOperation _ _ left right => by
    rw [selectBody]
    refine NeverOk.bind fun lr hLeft => NeverOk.bind fun rr hRight => NeverOk.pure ?_
    exact notOk_combineSets _ (neverOk_selectBody env dbName none none none left lr hLeft)
      (neverOk_selectBody env dbName none none none right rr hRight)
  | .select s => by
    rw [selectBody]
    exact neverOk_selectFrom env dbName orderBy limit offset s
  | .query _ | .values _ | .other _ => by
    simp only [selectBody]
    exact NeverOk.pure rfl
termination_by structural body => body

theorem neverOk_selectFrom (env : QueryEnv) (dbName : Str) (orderBy : Option OrderByKind)
    (limit offset : Option Expr) :
    (s : Select) → NeverOk (selectFrom env dbName orderBy limit offset s)
  | .mk _ projection [] _ _ _ => by
    rw [selectFrom]
    exact neverOk_selectConstants _ _ _
  | .mk distinct projection (from_ :: _) selection groupBy having => by
    have hInner := neverOk_derivedSource env dbName from_
    rw [selectFrom]
    refine NeverOk.bind fun derived hDerived => ?_
    cases derived with
    | some inner => exact neverOk_selectDerived _ (hInner inner hDerived) _ _ _ _ _
    | none =>
      rcases hTarget : resolveName dbName from_.relation.toString with ⟨selDb, tableName⟩
      simp only
      refine NeverOk.bind fun selection _ => ?_
      split
      · exact neverOk_selectJoined _ _ _ _ _ _ _ _ _
      · cases hTable : findTable env.databases selDb tableName (unknownDatabase selDb)
            (unknownTable (selDb ++ "." ++ tableName)) with
        | error other => exact NeverOk.pure (notOk_of_findTable hTable)
        | ok table => exact neverOk_selectTable _ _ _ _ _ _ _ _ _ _
termination_by structural s => s

theorem neverOk_derivedSource (env : QueryEnv) (dbName : Str) :
    (t : TableWithJoins) → ∀ r, derivedSource env dbName t = .ok (some r) → r.isOk = false
  | .mk (.derived subquery _) _ => by
    intro r hEq
    rw [derivedSource] at hEq
    cases hSelect : select env dbName subquery with
    | error fault => rw [hSelect] at hEq; cases hEq
    | ok r' =>
      rw [hSelect] at hEq
      cases hEq
      exact neverOk_select env dbName subquery r hSelect
  | .mk (.table _ _) _ | .mk (.other _) _ => by
    intro r hEq
    simp only [derivedSource] at hEq
    cases hEq
termination_by structural t => t

end

-- ---------------------------------------------------------------------------
-- Success, told from the state before
-- ---------------------------------------------------------------------------

/-- ALTER TABLE succeeds when none of its operations fails, any other action
when it does not panic. -/
def TableAction.succeeds (t : Table) : TableAction → Bool
  | .alter operations => (failedAlter operations t).isNone
  | a => (a.run.exec t).1.isOk

/-- The table is there and the action succeeds on it. -/
def Store.admits (s : Store) (db table : Str) (a : TableAction) : Bool :=
  match findTable s db table [] [] with
  | .error _ => false
  | .ok t => a.succeeds t

/-- The query gives rows. -/
def givesRows (x : Rust QueryResult) : Bool := (x.map asTextRows).toOption.elim false Except.isOk

/-- DROP finds what it names. -/
def dropSucceeds (currentDb : Option Str) (e : Engine) (names : List ObjectName) (ifExists : Bool) :
    ObjectType → Bool
  | .table => (dropAll Store.hasTable Store.dropTable ifExists e.databases
      (dropTargets (dbOrTest currentDb) names)).1
  | .database | .schema => (dropAll HashMap.containsKey HashMap.remove ifExists e.databases
      (dropDatabaseTargets names)).1
  | .other _ => true

/-- The statement returns an OK. -/
def Statement.succeeds (now : Nat) (currentDb : Option Str) (e : Engine) : Statement → Bool
  | .createDatabase _ => true
  | .createTable create =>
    e.databases.containsKey (createTarget (dbOrTest currentDb) create.name).1 &&
      create.query.elim true fun q => givesRows (select (e.env now) (dbOrTest currentDb) q)
  | .insert ins =>
    let (db, table) := insertTarget (dbOrTest currentDb) ins.table.toString
    (ins.rows? now (dbOrTest currentDb) e).elim false fun rows =>
      Store.admits e.databases db table (.insert ins.replaceInto (ins.columns.map Ident.value) rows)
  | .drop objectType names ifExists => dropSucceeds currentDb e names ifExists objectType
  | .update table assignments selection =>
    let (db, table) := resolveName (dbOrTest currentDb) table.relation.toString
    Store.admits e.databases db table (.update now assignments selection)
  | .delete del =>
    let (db, table) := resolveName (dbOrTest currentDb) del.tableName
    Store.admits e.databases db table (.delete now del.selection)
  | .use _ => true
  | .truncate tableNames =>
    let (db, table) :=
      resolveName (currentDb.getD []) ((tableNames.head?.map ObjectName.toString).getD [])
    Store.admits e.databases db table .truncate
  | .alterTable name operations =>
    let (db, table) := resolveName (dbOrTest currentDb) (ObjectName.toString name)
    Store.admits e.databases db table (.alter operations)
  | _ => false

/-- A success bumps the write generation inside `exec_stmt`. -/
def Statement.bumpsItself (currentDb : Option Str) (e : Engine) : Statement → Bool
  | .createTable create => create.query.isSome &&
      !(create.ifNotExists &&
        Store.hasTable e.databases (createTarget (dbOrTest currentDb) create.name))
  | .drop .table _ _ | .drop .database _ _ | .drop .schema _ _ => true
  | .truncate _ | .alterTable .. => true
  | _ => false

/-- What a program returns and bumps: an OK when `ok` holds, and then one bump
if `bumps` holds. -/
def Settles (m : EngineM QueryResult) (e : Engine) (ok bumps : Bool) : Prop :=
  ((∃ r, (m.exec e).1 = .ok r ∧ r.isOk = true) ↔ ok = true) ∧
    (m.exec e).2.writeGen = e.writeGen + (if ok && bumps then 1 else 0)

namespace Settles

variable {m : EngineM QueryResult} {e : Engine} {ok bumps : Bool}

theorem refused {r : QueryResult} (h : r.isOk = false) (e : Engine) (bumps : Bool) :
    Settles (Pure.pure r) e false bumps := by
  refine ⟨⟨?_, nofun⟩, (UInt64.add_zero _).symm⟩
  rintro ⟨r', hEq, hOk⟩
  cases hEq
  rw [h] at hOk
  cases hOk

theorem accepted (affected lastInsertId : UInt64) (e : Engine) :
    Settles (Pure.pure (.ok affected lastInsertId)) e true false :=
  ⟨⟨fun _ => rfl, fun _ => ⟨_, rfl, rfl⟩⟩, (UInt64.add_zero _).symm⟩

/-- A read that ends in no OK. -/
theorem read (hState : (m.exec e).2 = e) (hOk : ∀ r, (m.exec e).1 = .ok r → r.isOk = false) :
    Settles m e false bumps := by
  refine ⟨⟨?_, nofun⟩, by rw [hState]; exact (UInt64.add_zero _).symm⟩
  rintro ⟨r, hEq, hIsOk⟩
  rw [hOk r hEq] at hIsOk
  cases hIsOk

/-- The result is passed on, with one more bump for an OK. -/
theorem then_bump (h : Settles m e ok bumps) :
    ((∃ r, ((m >>= bumpIfOk).exec e).1 = .ok r ∧ r.isOk = true) ↔ ok = true) ∧
      ((m >>= bumpIfOk).exec e).2.writeGen =
        e.writeGen + UInt64.ofNat (if ok then if bumps then 2 else 1 else 0) := by
  obtain ⟨hOut, hGen⟩ := h
  rw [Prog.exec_bind]
  rcases hRun : m.exec e with ⟨_ | r, e'⟩ <;> rw [hRun] at hOut hGen <;> simp only at hOut hGen ⊢
  · refine ⟨hOut, ?_⟩
    cases ok with
    | true => obtain ⟨r, hEq, -⟩ := hOut.2 rfl; cases hEq
    | false => exact hGen
  · rw [exec_bumpIfOk]
    refine ⟨hOut, ?_⟩
    cases hIsOk : r.isOk with
    | true =>
      have hTrue : ok = true := hOut.1 ⟨r, rfl, hIsOk⟩
      subst hTrue
      simp only [bumpIfOk, hIsOk, if_true, bumpWriteGen, Prog.exec_modify_bind, Prog.exec_pure,
        Bool.true_and, hGen, UInt64.add_assoc]
      cases bumps <;> rfl
    | false =>
      have hFalse : ok = false := by
        rw [Bool.eq_false_iff]
        intro hTrue
        obtain ⟨r', hEq, hIsOk'⟩ := hOut.2 hTrue
        cases hEq
        rw [hIsOk] at hIsOk'
        cases hIsOk'
      subst hFalse
      simp only [bumpIfOk, hIsOk, Bool.false_eq_true, if_false, Prog.exec_pure]
      exact hGen

theorem bumped (h : Settles m e ok false) : Settles (m >>= bumpIfOk) e ok true := by
  obtain ⟨hOut, hGen⟩ := h.then_bump
  refine ⟨hOut, ?_⟩
  rw [hGen]
  cases ok <;> rfl

theorem of_drops {dropped : Bool × Store} (h : Drops m e dropped) : Settles m e dropped.1 true := by
  obtain ⟨-, hGen, r, hEq, hOk, -⟩ := h
  refine ⟨⟨?_, fun hTrue => ⟨r, hEq, hOk.trans hTrue⟩⟩, by rw [hGen, Bool.and_true]⟩
  rintro ⟨r', hEq', hOk'⟩
  rw [hEq] at hEq'
  cases hEq'
  exact hOk.symm.trans hOk'

end Settles

theorem isOk_of_alwaysOk {m : TableM QueryResult} (h : AlwaysOk m) (t : Table) :
    (∃ r, (m.exec t).1 = .ok r ∧ r.isOk = true) ↔ (m.exec t).1.isOk = true := by
  cases hRun : (m.exec t).1 with
  | error fault => simp [Except.isOk, Except.toBool]
  | ok r => simp [Except.isOk, Except.toBool, h t r hRun]

theorem action_succeeds_iff (a : TableAction) (t : Table) :
    (∃ r, (a.run.exec t).1 = .ok r ∧ r.isOk = true) ↔ a.succeeds t = true := by
  cases a with
  | insert replaceInto names rows => exact isOk_of_alwaysOk (alwaysOk_insertRows _ _ _) t
  | insertPrepared rows => exact isOk_of_alwaysOk (alwaysOk_insertRowsPrepared _) t
  | update now assignments selection => exact isOk_of_alwaysOk (alwaysOk_updateTable _ _ _) t
  | updatePrepared now assignments selection bound =>
    exact isOk_of_alwaysOk (alwaysOk_updateTablePrepared _ _ _ _) t
  | delete now selection => exact isOk_of_alwaysOk (alwaysOk_deleteTable _ _) t
  | deletePrepared now selection bound =>
    exact isOk_of_alwaysOk (alwaysOk_deleteTablePrepared _ _ _) t
  | truncate => exact isOk_of_alwaysOk alwaysOk_truncateTable t
  | alter operations =>
    obtain ⟨r, hEq, -, hOk, -⟩ := exec_alterTable operations t
    simp only [TableAction.run, TableAction.succeeds, hEq, Except.ok.injEq, exists_eq_left', hOk]

theorem settles_withTable (db table noDb noTable : Str) (a : TableAction) (e : Engine) :
    Settles (withTable db table noDb noTable a.run) e (Store.admits e.databases db table a) false := by
  rw [Settles, withTable, Prog.exec_mk, Store.admits, Bool.and_false, if_neg Bool.false_ne_true,
    UInt64.add_zero]
  cases hTable : findTable e.databases db table noDb noTable with
  | ok t =>
    rw [findTable_ok_iff.1 hTable]
    exact ⟨action_succeeds_iff a t, rfl⟩
  | error other =>
    have hNone : ∀ t, findTable e.databases db table [] [] ≠ .ok t := by
      intro t hOk
      rw [findTable_ok_iff.2 hOk] at hTable
      cases hTable
    cases hFind : findTable e.databases db table [] [] with
    | ok t => exact absurd hFind (hNone t)
    | error other' =>
      refine ⟨⟨?_, fun h => Bool.noConfusion h⟩, rfl⟩
      rintro ⟨r, hEq, hOk⟩
      cases hEq
      rw [notOk_of_findTable hTable] at hOk
      cases hOk

theorem settles_putNewTable (ifNotExists : Bool) (db : Str) (t : Table) (bump : Bool) (e : Engine) :
    Settles (putNewTable ifNotExists db t bump) e (e.databases.containsKey db)
      (bump && !(ifNotExists && Store.hasTable e.databases (db, t.name))) := by
  rw [putNewTable, Settles, Prog.exec_get_bind, HashMap.containsKey, Store.hasTable]
  cases e.databases.get db with
  | none => exact Settles.refused (r := .err 1049 (unknownDatabase db)) rfl e _
  | some d =>
    simp only [Option.elim_some, Option.isSome_some, Bool.true_and]
    by_cases hKeep : (ifNotExists && d.tables.containsKey t.name) = true
    · rw [if_pos hKeep, hKeep, Bool.not_true, Bool.and_false]
      exact ⟨⟨fun _ => trivial, fun _ => ⟨_, rfl, rfl⟩⟩, (UInt64.add_zero _).symm⟩
    · simp only [hKeep, Bool.false_eq_true, if_false, Bool.not_false, Bool.and_true,
        Prog.exec_set_bind]
      cases bump with
      | true => exact ⟨⟨fun _ => trivial, fun _ => ⟨_, rfl, rfl⟩⟩, rfl⟩
      | false => exact ⟨⟨fun _ => trivial, fun _ => ⟨_, rfl, rfl⟩⟩, (UInt64.add_zero _).symm⟩

-- ---------------------------------------------------------------------------
-- Statements
-- ---------------------------------------------------------------------------

theorem settles_createTable (now : Nat) (currentDb : Option Str) (create : CreateTable)
    (e : Engine) :
    Settles (execStmt now currentDb (.createTable create)) e
      ((Statement.createTable create).succeeds now currentDb e)
      ((Statement.createTable create).bumpsItself currentDb e) := by
  rw [execStmt, Statement.succeeds, Statement.bumpsItself]
  cases create.query with
  | none =>
    simp only [Option.elim_none, Option.isSome_none, Bool.false_and, Bool.and_true]
    exact settles_putNewTable create.ifNotExists _ _ false e
  | some query =>
    simp only [createTableAs, Settles, Prog.exec_bind, exec_runQuery, givesRows, Option.elim_some,
      Option.isSome_some, Bool.true_and]
    cases hSelect : select (e.env now) (dbOrTest currentDb) query with
    | error fault => simp [Except.map, Except.toOption]
    | ok r =>
      cases hRows : asTextRows r with
      | error other =>
        have hNot := notOk_of_asTextRows hRows (neverOk_select _ _ query r hSelect)
        simp only [hRows, Except.map, Except.toOption, Option.elim_some, Except.isOk,
          Except.toBool, Bool.and_false]
        exact Settles.refused hNot e _
      | ok result =>
        simp only [hRows, Except.map, Except.toOption, Option.elim_some, Except.isOk,
          Except.toBool, Bool.and_true]
        exact settles_putNewTable create.ifNotExists _
          (tableAs (dbOrTest currentDb) create result.1 result.2) true e

/-- The source of an INSERT is not answered with an OK. -/
theorem notOk_of_sourceRows (now : Nat) (db table : Str) (source : Query) (e : Engine) :
    ∀ r, ((sourceRows now db table source).exec e).1 = .ok (.error r) → r.isOk = false := by
  intro r hEq
  rw [sourceRows] at hEq
  split at hEq
  · cases hEq
  · rw [Prog.exec_get_bind, Prog.exec_bind, exec_runQuery] at hEq
    cases hSelect : select (e.env now) db source with
    | error fault => rw [hSelect] at hEq; cases hEq
    | ok r' =>
      rw [hSelect] at hEq
      cases hRows : asTextRows r' with
      | error other =>
        simp only [hRows, Prog.exec_pure, Except.map] at hEq
        cases hEq
        exact notOk_of_asTextRows hRows (neverOk_select _ _ source r' hSelect)
      | ok result =>
        simp only [hRows, Prog.exec_pure, Except.map] at hEq
        cases hEq

theorem settles_insert (now : Nat) (currentDb : Option Str) (ins : Insert) (e : Engine) :
    Settles (execStmt now currentDb (.insert ins)) e
      ((Statement.insert ins).succeeds now currentDb e) false := by
  rw [execStmt, Statement.succeeds, Insert.rows?]
  cases ins.source with
  | none => exact Settles.refused rfl e false
  | some source =>
    rcases hTarget : insertTarget (dbOrTest currentDb) ins.table.toString with ⟨db, table⟩
    have hSource := exec_sourceRows now db table source e
    have hRefused := notOk_of_sourceRows now db table source e
    obtain ⟨answer, e', hRows⟩ : ∃ answer e', (sourceRows now db table source).exec e =
      (answer, e') := ⟨_, _, rfl⟩
    rw [hRows] at hSource hRefused
    obtain rfl := hSource
    simp only [insert, hTarget, Option.bind_some, Settles, Prog.exec_bind, hRows]
    rcases answer with _ | _ | rows <;> simp only [Option.elim_none, Option.elim_some]
    · refine ⟨⟨?_, fun h => Bool.noConfusion h⟩, (UInt64.add_zero _).symm⟩
      rintro ⟨r, hEq, -⟩
      cases hEq
    · exact Settles.refused (hRefused _ rfl) e' false
    · have hAct := settles_withTable db table (unknownDatabase db) (unknownTable (db ++ "." ++ table))
        (.insert ins.replaceInto (ins.columns.map Ident.value) rows) e'
      rw [Settles, TableAction.run] at hAct
      rw [Prog.exec_bind]
      rcases hRun : (withTable db table (unknownDatabase db) (unknownTable (db ++ "." ++ table))
        (insertRows ins.replaceInto (ins.columns.map Ident.value) rows)).exec e' with ⟨_ | r, e''⟩ <;>
        rw [hRun] at hAct
      · exact hAct
      · cases r with
        | ok count pkVal =>
          refine ⟨⟨fun _ => hAct.1.1 ⟨_, rfl, rfl⟩, fun _ => ⟨_, rfl, rfl⟩⟩, hAct.2⟩
        | err code message => exact hAct
        | rows columns rows => exact hAct
        | valueRows columns rows => exact hAct

theorem writeGen_withTable (db table noDb noTable : Str) (act : TableM QueryResult) (e : Engine) :
    ((withTable db table noDb noTable act).exec e).2.writeGen = e.writeGen := by
  rw [withTable, Prog.exec_mk]
  cases findTable e.databases db table noDb noTable <;> rfl

theorem notOk_of_readTable {show_ : Str → Table → QueryResult}
    (hShow : ∀ name t, (show_ name t).isOk = false) (currentDb : Option Str) (name : ObjectName)
    (e : Engine) : ∀ r, ((readTable currentDb name show_).exec e).1 = .ok r → r.isOk = false := by
  intro r hEq
  rcases hTarget : resolveName (dbOrTest currentDb) (ObjectName.toString name) with ⟨db, table⟩
  simp only [readTable, Prog.exec_get_bind, hTarget] at hEq
  cases hTable : findTable e.databases db table "Unknown database" "Table not found" with
  | error other =>
    rw [hTable] at hEq
    cases hEq
    exact notOk_of_findTable hTable
  | ok t =>
    rw [hTable] at hEq
    cases hEq
    exact hShow _ _

/-- **Outcome and bump of a statement**, told from the state before. -/
theorem settles_execStmt (now : Nat) (currentDb : Option Str) (stmt : Statement) (e : Engine) :
    Settles (execStmt now currentDb stmt) e (stmt.succeeds now currentDb e)
      (stmt.bumpsItself currentDb e) := by
  cases stmt with
  | createDatabase dbName =>
    refine ⟨⟨fun _ => rfl, fun _ => ⟨_, rfl, rfl⟩⟩, ?_⟩
    simp only [execStmt, createDatabase, Prog.exec_modify_bind, Prog.exec_pure, Engine.addDatabase,
      Statement.bumpsItself, Bool.and_false]
    split <;> exact (UInt64.add_zero _).symm
  | createTable create => exact settles_createTable now currentDb create e
  | insert ins => exact settles_insert now currentDb ins e
  | query q => exact Settles.read rfl (neverOk_select _ _ q)
  | drop objectType names ifExists =>
    cases objectType with
    | table => exact Settles.of_drops (drops_dropTables _ ifExists names e)
    | database => exact Settles.of_drops (drops_dropDatabases ifExists names e)
    | schema => exact Settles.of_drops (drops_dropDatabases ifExists names e)
    | other text => exact Settles.accepted 0 0 e
  | update table assignments selection =>
    exact settles_withTable _ _ _ _ (.update now assignments selection) e
  | delete del => exact settles_withTable _ _ _ _ (.delete now del.selection) e
  | use u => exact Settles.accepted 0 0 e
  | truncate tableNames => exact (settles_withTable _ _ _ _ .truncate e).bumped
  | alterTable name operations => exact (settles_withTable _ _ _ _ (.alter operations) e).bumped
  | explainTable tableName =>
    exact Settles.read (exec_readTable _ _ _ e) (notOk_of_readTable (fun _ _ => rfl) _ _ e)
  | showColumns full parentName =>
    cases parentName with
    | none => exact Settles.refused rfl e _
    | some name =>
      refine Settles.read (exec_readTable _ _ _ e) (notOk_of_readTable (fun _ _ => ?_) _ _ e)
      rw [showColumns]
      split <;> rfl
  | showCreate objType objName =>
    cases objType with
    | table => exact Settles.read (exec_readTable _ _ _ e) (notOk_of_readTable (fun _ _ => rfl) _ _ e)
    | other text => exact Settles.refused rfl e _
  | other text => exact Settles.refused rfl e _

-- ---------------------------------------------------------------------------
-- Jobs and batches
-- ---------------------------------------------------------------------------

/-- The bumps of a job: `execute` makes one more for every OK. -/
def Job.bumps (e : Engine) : Job → Nat
  | .text now currentDb stmt =>
    if stmt.succeeds now currentDb e then if stmt.bumpsItself currentDb e then 2 else 1 else 0
  | .prepared now _ currentDb stmt =>
    if stmt.succeeds now currentDb e && stmt.bumpsItself currentDb e then 1 else 0

theorem writeGen_insertPrepared (dbName tableName : Str) (source : Option Query)
    (bound : List Value) (e : Engine) :
    ((insertPrepared dbName tableName source bound).exec e).2.writeGen = e.writeGen := by
  cases source with
  | none => rfl
  | some source =>
    rw [insertPrepared]
    cases source.body with
    | values rows => exact writeGen_withTable _ _ _ _ _ e
    | _ => rfl

/-- **The write generation after a job.** -/
theorem writeGen_job (e : Engine) (j : Job) :
    (j.step e).writeGen = e.writeGen + UInt64.ofNat (j.bumps e) := by
  cases j with
  | text now currentDb stmt =>
    have hStmt := settles_execStmt now currentDb stmt e
    exact hStmt.then_bump.2
  | prepared now bound currentDb stmt =>
    have hStmt := (settles_execStmt now currentDb stmt e).2
    have hNone : stmt.bumpsItself currentDb e = false →
        ((execStmtPrepared now bound currentDb stmt).exec e).2.writeGen = e.writeGen →
        (Job.step e (.prepared now bound currentDb stmt)).writeGen =
          e.writeGen + UInt64.ofNat (Job.bumps e (.prepared now bound currentDb stmt)) := by
      intro hNot hSame
      rw [Job.bumps, hNot, Bool.and_false]
      exact hSame.trans (UInt64.add_zero _).symm
    have hText : execStmtPrepared now bound currentDb stmt = execStmt now currentDb stmt →
        (Job.step e (.prepared now bound currentDb stmt)).writeGen =
          e.writeGen + UInt64.ofNat (Job.bumps e (.prepared now bound currentDb stmt)) := by
      intro hSame
      rw [Job.step, Job.run, hSame, hStmt, Job.bumps]
      split <;> rfl
    cases stmt with
    | query q => exact hNone rfl rfl
    | insert ins => exact hNone rfl (writeGen_insertPrepared _ _ _ _ e)
    | update table assignments selection => exact hNone rfl (writeGen_withTable _ _ _ _ _ e)
    | delete del => exact hNone rfl (writeGen_withTable _ _ _ _ _ e)
    | _ => exact hText rfl

/-- The bumps of a batch: a job that panics is the last one. -/
def bumpsOf : Engine → List Job → Nat
  | _, [] => 0
  | e, j :: rest => j.bumps e + if (j.run.exec e).1.isOk then bumpsOf (j.step e) rest else 0

theorem writeGen_execBatch (now : Nat) (effDb : Option Str) (last : QueryResult)
    (stmts : List Statement) (e : Engine) :
    ((execBatch now effDb last stmts).exec e).2.writeGen =
      e.writeGen + UInt64.ofNat (bumpsOf e (textJobs now effDb stmts)) := by
  induction stmts generalizing effDb last e with
  | nil => exact (UInt64.add_zero _).symm
  | cons stmt rest ih =>
    have hGen := writeGen_job e (.text now (stmt.effDb effDb) stmt)
    rw [textJobs, bumpsOf, Job.step, Job.run, execBatch, Prog.exec_bind]
    rw [Job.step, Job.run] at hGen
    rw [Prog.exec_bind] at hGen ⊢
    rcases hRun : (execStmt now (stmt.effDb effDb) stmt).exec e with ⟨_ | r, e'⟩ <;>
      rw [hRun] at hGen <;> simp only at hGen ⊢
    · simpa [Except.isOk, Except.toBool] using hGen
    · rw [Prog.exec_bind_ok (exec_bumpIfOk r e'), exec_bumpIfOk, ih, hGen]
      simp only [Except.isOk, Except.toBool, if_true, UInt64.ofNat_add, UInt64.add_assoc]

theorem writeGen_execBatchPrepared (now : Nat) (bound : List Value) (currentDb : Option Str)
    (last : QueryResult) (stmts : List Statement) (e : Engine) :
    ((execBatchPrepared now bound currentDb last stmts).exec e).2.writeGen =
      e.writeGen + UInt64.ofNat (bumpsOf e (preparedJobs now bound currentDb stmts)) := by
  induction stmts generalizing last e with
  | nil => exact (UInt64.add_zero _).symm
  | cons stmt rest ih =>
    have hGen := writeGen_job e (.prepared now bound currentDb stmt)
    rw [preparedJobs, List.map_cons, bumpsOf, Job.step, Job.run, execBatchPrepared, Prog.exec_bind]
    rw [Job.step, Job.run] at hGen
    rcases hRun : (execStmtPrepared now bound currentDb stmt).exec e with ⟨_ | r, e'⟩ <;>
      rw [hRun] at hGen <;> simp only at hGen ⊢
    · simpa [Except.isOk, Except.toBool] using hGen
    · rw [ih, hGen]
      simp only [Except.isOk, Except.toBool, if_true, UInt64.ofNat_add, UInt64.add_assoc,
        preparedJobs]

end RunAlexDb
