import RunAlexDb.Lib.Trace
import RunAlexDb.Query.RowSelection
import RunAlexDb.Store.Replacements

/-!
# KeyedTables — a table with a key is a map

REPLACE puts rows at their keys, INSERT at keys that are new, and SELECT, UPDATE and
DELETE with a condition on the key look up the row there. Over runs of such
statements a table stands for a map from keys to rows, whatever happens to the rest
of the engine in between.

Main result: `keyed_run`.
-/

set_option linter.unusedSectionVars false

namespace RunAlexDb

open Text Platform KeyedLists

section KeyedTables

variable [Platform]

-- ---------------------------------------------------------------------------
-- The map of a table
-- ---------------------------------------------------------------------------

abbrev RowMap := Str → Option Row

/-- Index and keys of a table with these columns and this key column are right, and
its rows are those of the map. -/
structure KeyedAs (p : Nat) (cols : List Column) (m : RowMap) (t : Table) : Prop where
  columns : t.columns = cols
  pkColIdx : t.pkColIdx = some p
  linked : t.Linked
  unique : KeysUnique t p
  index : IndexExact t p
  rows : atKey (rowPkKey · p) t.rows = m

variable {p : Nat} {cols : List Column} {m : RowMap} {t : Table}

theorem KeyedAs.keyedUnique (h : KeyedAs p cols m t) : Keyed KeysUnique t := by
  refine ⟨h.linked, fun p' hPk => ?_⟩
  obtain rfl := Option.some.inj (h.pkColIdx.symm.trans hPk)
  exact h.unique

theorem KeyedAs.keyedIndex (h : KeyedAs p cols m t) : Keyed IndexExact t := by
  refine ⟨h.linked, fun p' hPk => ?_⟩
  obtain rfl := Option.some.inj (h.pkColIdx.symm.trans hPk)
  exact h.index

theorem keyedAs_of_keyed {t' : Table} (hCols : t'.columns = cols) (hPk : t'.pkColIdx = some p)
    (hUnique : Keyed KeysUnique t') (hIndex : Keyed IndexExact t') (hRows : atKey (rowPkKey · p) t'.rows = m) :
    KeyedAs p cols m t' :=
  ⟨hCols, hPk, hUnique.linked, hUnique.law p hPk, hIndex.law p hPk, hRows⟩

/-- The index finds the row at a key. -/
theorem pkRow_keyed (h : KeyedAs p cols m t) (key : Str) : pkRow t key = m key := by
  have hFilter := pkRow_eq_filter h.index h.unique key
  rw [← h.rows, atKey_eq_head, ← hFilter]
  rcases pkRow t key with _ | r <;> rfl

/-- Where the row at a key stands. -/
theorem position_keyed (h : KeyedAs p cols m t) {key : Str} {r : Row} (hRow : m key = some r) :
    ∃ i, t.pkIndex.get key = some i ∧ t.rows[i]? = some r ∧ rowPkKey r p = key := by
  have hFound := pkRow_keyed h key
  rw [hRow] at hFound
  unfold pkRow at hFound
  obtain ⟨i, hEntry, hAt⟩ := Option.bind_eq_some_iff.1 hFound
  obtain ⟨r', hAt', hKey⟩ := h.index.entry key i hEntry
  obtain rfl := Option.some.inj (hAt.symm.trans hAt')
  exact ⟨i, hEntry, hAt, hKey⟩

theorem entry_none (h : KeyedAs p cols m t) {key : Str} (hNone : m key = none) : t.pkIndex.get key = none := by
  rcases hEntry : t.pkIndex.get key with _ | i
  · rfl
  · obtain ⟨r, hAt, -⟩ := h.index.entry key i hEntry
    have hFound := pkRow_keyed h key
    unfold pkRow at hFound
    rw [hEntry, hNone, Option.bind_some, hAt] at hFound
    cases hFound

-- ---------------------------------------------------------------------------
-- INSERT and REPLACE
-- ---------------------------------------------------------------------------

/-- A row at its key. -/
def RowMap.put (p : Nat) (m : RowMap) (row : Row) : RowMap := Function.update m (rowPkKey row p) (some row)

theorem sourceRow_nil (t : Table) (row : Row) : t.sourceRow [] row = (row, t.nextAuto) := by
  unfold Table.sourceRow
  rfl

/-- What a row does to a table: it goes last, and the row with its key is gone. -/
structure RowPut (replaceInto : Bool) (p : Nat) (t : Table) (row : Row) : Prop where
  returns : ((insertRow replaceInto [] row).exec t).1 = .ok ()
  rows : (insertStep replaceInto [] t row).rows = replaceRow p t.rows row
  columns : (insertStep replaceInto [] t row).columns = t.columns
  pkColIdx : (insertStep replaceInto [] t row).pkColIdx = t.pkColIdx
  fresh : freshRow replaceInto [] t row

theorem rowPut_replace (h : KeyedAs p cols m t) (row : Row) : RowPut true p t row := by
  obtain ⟨hRows, hMapping⟩ := replaceStep_keyed h.pkColIdx h.unique h.index [] row
  rw [sourceRow_nil] at hRows
  exact {
    returns := congrArg Prod.fst (exec_replaceRow_keyed h.keyedIndex [] row)
    rows := hRows
    columns := by rw [hMapping.columns, Table.afterSource, columns_advanceAuto]
    pkColIdx := by rw [hMapping.pkColIdx, Table.afterSource, pkColIdx_advanceAuto]
    fresh := by
      intro p' hPk r hr
      rw [remaining_keyed hPk (h.keyedUnique.law p' hPk) (h.keyedIndex.law p' hPk)] at hr
      exact (mem_dropKey.1 hr).2 }

theorem rowPut_insert (h : KeyedAs p cols m t) {row : Row} (hNew : m (rowPkKey row p) = none) :
    RowPut false p t row := by
  have hOthers : ∀ r ∈ t.rows, rowPkKey r p ≠ rowPkKey row p := by
    intro r hr hKey
    have hAt := atKey_of_mem h.unique hr
    rw [h.rows, hKey, hNew] at hAt
    cases hAt
  have hStep : insertStep false [] t row = (Table.advanceAuto { t with nextAuto := t.nextAuto } row).push row := by
    rw [insertStep_eq, sourceRow_nil]
    rfl
  exact {
    returns := rfl
    rows := by
      have hKept : dropKey (rowPkKey · p) (rowPkKey row p) t.rows = t.rows := dropKey_eq_self hOthers
      rw [hStep, replaceRow, put, hKept]
      show (Table.advanceAuto _ _).rows ++ _ = _
      rw [rows_advanceAuto]
    columns := by rw [hStep]; exact columns_advanceAuto ..
    pkColIdx := by rw [hStep]; exact pkColIdx_advanceAuto ..
    fresh := by
      intro p' hPk r hr
      obtain rfl := Option.some.inj (h.pkColIdx.symm.trans hPk)
      exact hOthers r hr }

/-- One row, replaced or at a new key. -/
theorem insertRow_keyed (h : KeyedAs p cols m t) (replaceInto : Bool) (row : Row)
    (hNew : replaceInto = false → m (rowPkKey row p) = none) :
    ∃ t', (insertRow replaceInto [] row).exec t = (.ok (), t') ∧ KeyedAs p cols (m.put p row) t' ∧
      t'.rows.getLast? = some row := by
  have hPut : RowPut replaceInto p t row := by
    rcases replaceInto with _ | _
    · exact rowPut_insert h (hNew rfl)
    · exact rowPut_replace h row
  refine ⟨insertStep replaceInto [] t row, Prod.ext hPut.returns rfl, ?_, ?_⟩
  · refine keyedAs_of_keyed (hPut.columns.trans h.columns) (hPut.pkColIdx.trans h.pkColIdx)
      (keysUnique_insertStep h.keyedUnique hPut.fresh) (indexExact_insertStep h.keyedIndex replaceInto [] row) ?_
    rw [hPut.rows, replaceRow, atKey_put, h.rows]
    rfl
  · rw [hPut.rows, replaceRow, put, List.getLast?_append]
    rfl

/-- Each row is new when it comes. -/
def RowMap.Fresh (p : Nat) : RowMap → List Row → Prop
  | _, [] => True
  | m, row :: rows => m (rowPkKey row p) = none ∧ (m.put p row).Fresh p rows

/-- The rows of one statement. -/
def RowMap.putAll (p : Nat) (m : RowMap) (rows : List Row) : RowMap := rows.foldl (RowMap.put p) m

theorem forEach_insertRow_keyed {replaceInto : Bool} (rows : List Row) (h : KeyedAs p cols m t)
    (hNew : replaceInto = false → m.Fresh p rows) :
    ∃ t', (Prog.forEach (insertRow replaceInto []) rows).exec t = (.ok (), t') ∧
      KeyedAs p cols (m.putAll p rows) t' ∧ ∀ row, rows.getLast? = some row → t'.rows.getLast? = some row := by
  induction rows generalizing m t with
  | nil => exact ⟨t, rfl, h, fun row hNone => nomatch hNone⟩
  | cons row rows ih =>
    obtain ⟨t', hRow, hKeyed, hLast⟩ := insertRow_keyed h replaceInto row
      fun hInsert => (hNew hInsert).1
    obtain ⟨t'', hRows, hDone, hLasts⟩ := ih hKeyed fun hInsert => (hNew hInsert).2
    refine ⟨t'', ?_, hDone, fun last hIn => ?_⟩
    · rw [Prog.forEach, Prog.exec_bind_ok hRow]
      exact hRows
    · rcases rows with _ | ⟨next, rows⟩
      · obtain rfl := Option.some.inj hIn
        obtain ⟨-, rfl⟩ := Prod.mk.inj hRows
        exact hLast
      · exact hLasts last (by rwa [List.getLast?_cons_cons] at hIn)

/-- The key of the last row, when it is an integer. -/
def lastNumber (p : Nat) (rows : List Row) : UInt64 :=
  match rows.getLast?.bind (·[p]?) with
  | some (.int n) => n.toUInt64
  | _ => 0

theorem insertRows_keyed {replaceInto : Bool} {rows : List Row} (hSome : rows ≠ []) (h : KeyedAs p cols m t)
    (hNew : replaceInto = false → m.Fresh p rows) :
    ∃ t', (insertRows replaceInto [] rows).exec t =
        (.ok (.ok (UInt64.ofNat rows.length) (lastNumber p rows)), t') ∧
      KeyedAs p cols (m.putAll p rows) t' := by
  obtain ⟨t', hRun, hKeyed, hLast⟩ := forEach_insertRow_keyed rows h hNew
  have hKey : t'.lastKey = lastNumber p rows := by
    have hRow := List.getLast?_eq_some_getLast hSome
    unfold Table.lastKey lastNumber
    rw [hKeyed.pkColIdx, Option.bind_some, hLast _ hRow, hRow] <;> rfl
  refine ⟨t', ?_, hKeyed⟩
  rw [insertRows, Prog.exec_bind_ok hRun]
  show (Except.ok (QueryResult.ok _ t'.lastKey), t') = _
  rw [hKey]

-- ---------------------------------------------------------------------------
-- UPDATE and DELETE
-- ---------------------------------------------------------------------------

/-- The condition asks for a key. -/
theorem lookupKey_keyed (h : KeyedAs p cols m t) {c : Column} (hCol : cols[p]? = some c) {w : Expr} {key : Str}
    (hKey : extractPkEq c.name w = some key) : lookupKey t w = .ok (some key) := by
  rw [lookupKey_eq h.pkColIdx (by rw [h.columns]; exact hCol), hKey]

/-- Assignments on the row at a key. -/
def RowMap.update (now : Nat) (cols : List Column) (assignments : List Assignment) (m : RowMap) (key : Str) :
    RowMap := Function.update m key ((m key).map (assigned now cols assignments))

/-- The assignments on the row at a key return, and leave its key. -/
def RowMap.Assigns (now : Nat) (p : Nat) (cols : List Column) (assignments : List Assignment) (m : RowMap)
    (key : Str) : Prop :=
  ∀ r, m key = some r → ((assignAll now cols assignments).exec r).1 = .ok () ∧
    rowPkKey (assigned now cols assignments r) p = key

theorem updateTable_keyed (h : KeyedAs p cols m t) {w : Expr} {key : Str}
    (hKey : lookupKey t w = .ok (some key)) {now : Nat} {assignments : List Assignment}
    (hAssigns : m.Assigns now p cols assignments key) :
    ∃ t', (updateTable now assignments (some w)).exec t = (.ok (.ok (if (m key).isSome then 1 else 0) 0), t') ∧
      KeyedAs p cols (m.update now cols assignments key) t' := by
  have hFast : (updateTable now assignments (some w)).exec t =
      (updateKey key (fun r e => evalRowExpr now r t.columns e) assignments).exec t := by
    rw [updateTable, Prog.exec_get_bind]
    simp only
    rw [Prog.exec_bind, exec_pkCondition, hKey]
  rw [hFast, updateKey, Prog.exec_get_bind]
  rcases hRow : m key with _ | r
  · refine ⟨t, ?_, ?_⟩
    · rw [entry_none h hRow]
      rfl
    · unfold RowMap.update
      rw [hRow, Option.map_none, ← hRow, Function.update_eq_self]
      exact h
  · obtain ⟨i, hEntry, hAt, hOwn⟩ := position_keyed h hRow
    obtain ⟨hReturns, hSameKey⟩ := hAssigns r hRow
    have hKept : rowPkKey (assigned now cols assignments r) p = rowPkKey r p := hSameKey.trans hOwn.symm
    obtain ⟨hOut, hRows⟩ := exec_assignAll hAt (fun r e => evalRowExpr now r t.columns e) assignments
    obtain ⟨ints, strs, hLeft⟩ := assignRowAt_eq
      (assignments.map fun a => (a, fun r e => evalRowExpr now r t.columns e)) hAt
    rw [assignRowAt, Prog.forEach_map] at hLeft
    rw [h.columns] at hOut hRows hLeft
    rcases hRun : (Prog.forEach (assignAt i fun r e => evalRowExpr now r t.columns e) assignments).exec t with
      ⟨out, t'⟩
    rw [h.columns] at hRun
    rw [hRun] at hOut hRows hLeft
    have hKeys : t'.keys p = t.keys p := by
      show t'.rows.map (rowPkKey · p) = _
      rw [show t'.rows = _ from hRows, List.map_set]
      exact keys_assigned_self hAt hKept
    refine ⟨t', ?_, ?_⟩
    · rw [hEntry, h.columns]
      simp only
      rw [if_pos (List.getElem?_eq_some_iff.1 hAt).1, Prog.exec_bind, hRun, show out = .ok () from hOut.trans hReturns]
      rfl
    · have hIndex : Indexes t'.pkIndex (t'.keys p) := by
        rw [hKeys, show t'.pkIndex = t.pkIndex by rw [show t' = _ from hLeft]]
        exact indexExact_iff.1 h.index
      exact {
        columns := by rw [show t' = _ from hLeft]
        pkColIdx := by rw [show t' = _ from hLeft]; exact h.pkColIdx
        linked := by
          rw [show t' = _ from hLeft]
          show t.pkColIdx = cols.findIdx? _
          rw [← h.columns]
          exact h.linked
        unique := by
          show (t'.keys p).Nodup
          rw [hKeys]
          exact h.unique
        index := indexExact_iff.2 hIndex
        rows := by
          rw [show t'.rows = _ from hRows]
          have hSet := atKey_set h.unique hAt hKept
          refine hSet.trans ?_
          rw [h.rows]
          unfold RowMap.update
          rw [hRow, hOwn]
          rfl }

/-- A key is gone. -/
def RowMap.erase (m : RowMap) (key : Str) : RowMap := Function.update m key none

theorem deleteKey_keyed (h : KeyedAs p cols m t) (key : Str) : KeyedAs p cols (m.erase key) (t.deleteKey p key) := by
  have hPerm := deleteKey_perm h.index h.unique key
  have hDropped : ((dropKey (rowPkKey · p) key t.rows).map fun r => rowPkKey r p).Nodup :=
    (List.filter_sublist.map _).nodup h.unique
  have hAlone : ∀ i, t.pkIndex.get key = some i → ∀ j, (t.keys p)[j]? = some key → j = i := by
    intro i hEntry j hj
    obtain ⟨r, hAt, hKey⟩ := h.index.entry key i hEntry
    have hi : (t.keys p)[i]? = some key := by rw [Table.keys, List.getElem?_map, hAt, Option.map_some, hKey]
    exact (List.getElem?_inj (List.getElem?_eq_some_iff.1 hj).1 h.unique).1 (hj.trans hi.symm)
  have hShape : (t.deleteKey p key).columns = t.columns ∧ (t.deleteKey p key).pkColIdx = t.pkColIdx := by
    rcases deleteKey_cases t p key with ⟨-, hEq⟩ | ⟨i, -, ⟨-, hEq⟩ | ⟨last, ints, strs, -, -, hEq⟩⟩
    · rw [hEq]
      exact ⟨rfl, rfl⟩
    · rw [hEq]
      exact ⟨rfl, rfl⟩
    · rw [hEq]
      exact ⟨rfl, rfl⟩
  have hIndex := indexExact_deleteKey h.keyedIndex h.pkColIdx fun i hEntry => .inl (hAlone i hEntry)
  exact {
    columns := hShape.1.trans h.columns
    pkColIdx := hShape.2.trans h.pkColIdx
    linked := hIndex.linked
    unique := (hPerm.map _).nodup_iff.2 hDropped
    index := hIndex.law p (hShape.2.trans h.pkColIdx)
    rows := by
      rw [← atKey_perm hDropped hPerm.symm, atKey_dropKey, h.rows]
      rfl }

/-- How many rows a DELETE by key takes. -/
theorem gone_keyed (h : KeyedAs p cols m t) (key : Str) :
    t.rows.length - (t.deleteKey p key).rows.length = (m key).toList.length := by
  have hFound : (m key).toList = t.rows.filter fun r => rowPkKey r p = key := by
    rw [← pkRow_keyed h key]
    exact pkRow_eq_filter h.index h.unique key
  have hLeft := (deleteKey_perm h.index h.unique key).length_eq
  have hAll := List.length_eq_length_filter_add (l := t.rows) fun r => decide (rowPkKey r p = key)
  simp only [ne_eq, decide_not] at hLeft
  rw [hFound, hLeft]
  omega

theorem deleteTable_keyed (h : KeyedAs p cols m t) {w : Expr} {key : Str}
    (hKey : lookupKey t w = .ok (some key)) (now : Nat) :
    ∃ t', (deleteTable now (some w)).exec t = (.ok (.ok (if (m key).isSome then 1 else 0) 0), t') ∧
      KeyedAs p cols (m.erase key) t' := by
  refine ⟨t.deleteKey p key, ?_, deleteKey_keyed h key⟩
  have hExec : (deleteTable now (some w)).exec t =
      (.ok (.ok (UInt64.ofNat (t.rows.length - (t.deleteKey p key).rows.length)) 0), t.deleteKey p key) := by
    rw [deleteTable, Prog.exec_get_bind, Prog.exec_bind, exec_pkCondition, hKey, h.pkColIdx]
    rfl
  rw [hExec, gone_keyed h key]
  rcases m key with _ | r
  · rfl
  · rfl

-- ---------------------------------------------------------------------------
-- Statements
-- ---------------------------------------------------------------------------

/-- The name leads to this table, in INSERT as elsewhere. -/
structure LeadsTo (currentDb : Option Str) (name : ObjectName) (db table : Str) : Prop where
  target : resolveName (dbOrTest currentDb) (ObjectName.toString name) = (db, table)
  insertion : insertTarget (dbOrTest currentDb) (ObjectName.toString name) = (db, table)

/-- `INSERT INTO name VALUES ..` or `REPLACE INTO name VALUES ..`. -/
def putStatement (name : ObjectName) (replaceInto : Bool) (rows : List (List Expr)) : Statement :=
  .insert {
    table := .tableName name
    columns := []
    source := some (.mk (.values rows) none none none)
    replaceInto := replaceInto }

/-- The statements that work at keys. -/
inductive KeyedStatement
  | put (replaceInto : Bool) (rows : List (List Expr))
  | update (assignments : List Assignment) (w : Expr)
  | delete (w : Expr)
  | select (w : Expr)

def KeyedStatement.statement (name : ObjectName) : KeyedStatement → Statement
  | .put replaceInto rows => putStatement name replaceInto rows
  | .update assignments w => updateWhere name assignments w
  | .delete w => deleteFrom name w [] none
  | .select w => .query (starQuery name w none none)

/-- A statement on the table, or anything else that happens to the engine. -/
inductive KeyedMove
  | statement (now : Nat) (stmt : KeyedStatement)
  | others (e : Engine)

def KeyedMove.step (currentDb : Option Str) (name : ObjectName) (e : Engine) : KeyedMove → Engine
  | .statement now stmt => (Job.text now currentDb (stmt.statement name)).step e
  | .others e' => e'

def KeyedMove.answer (currentDb : Option Str) (name : ObjectName) (e : Engine) :
    KeyedMove → Option (Rust QueryResult)
  | .statement now stmt => some ((Job.text now currentDb (stmt.statement name)).run.exec e).1
  | .others _ => none

/-- The values of the rows of a statement. -/
def statementRows (rows : List (List Expr)) : List Row := rows.map fun exprs => exprs.map exprToValue

/-- The engine has the table, as this map. -/
def Engine.Holds (e : Engine) (db table : Str) (p : Nat) (cols : List Column) (m : RowMap) : Prop :=
  ∃ t, findTable e.databases db table [] [] = .ok t ∧ KeyedAs p cols m t

section Jobs

variable {currentDb : Option Str} {name : ObjectName} {db table : Str} {e : Engine} {now : Nat}

/-- A statement answers as its program on the engine does, and leaves the databases
that this leaves. -/
theorem run_text (now : Nat) (currentDb : Option Str) (stmt : Statement) (e : Engine) :
    ((Job.text now currentDb stmt).run.exec e).1 = ((execStmt now currentDb stmt).exec e).1 ∧
      ((Job.text now currentDb stmt).step e).databases = ((execStmt now currentDb stmt).exec e).2.databases := by
  unfold Job.step Job.run
  rw [Prog.exec_bind]
  rcases (execStmt now currentDb stmt).exec e with ⟨fault | r, e'⟩
  · exact ⟨rfl, rfl⟩
  · dsimp only
    unfold bumpIfOk
    split
    · exact ⟨rfl, rfl⟩
    · exact ⟨rfl, rfl⟩

/-- What an action on the table makes of it, and answers. -/
theorem holds_withTable (h : findTable e.databases db table [] [] = .ok t) {act : TableM QueryResult} {r : QueryResult}
    {t' : Table} (hAct : act.exec t = (.ok r, t')) {m' : RowMap} (hKeyed : KeyedAs p cols m' t') (noDb noTable : Str) :
    ((withTable db table noDb noTable act).exec e).1 = .ok r ∧
      ((withTable db table noDb noTable act).exec e).2.Holds db table p cols m' := by
  obtain ⟨hOut, hLeft⟩ := findTable_withTable h noDb noTable act
  rw [hAct] at hOut hLeft
  exact ⟨hOut, t', hLeft, hKeyed⟩

/-- The last step of an insertion: the engine keeps the key. -/
def keepInsertId : QueryResult → EngineM QueryResult
  | .ok count pkVal => do
    modify fun e : Engine => { e with lastInsertId := pkVal }
    return .ok count pkVal
  | other => return other

theorem holds_put (hName : LeadsTo currentDb name db table) (h : e.Holds db table p cols m) {replaceInto : Bool}
    {rows : List (List Expr)} (hSome : rows ≠ []) (hNew : replaceInto = false → m.Fresh p (statementRows rows)) :
    ((execStmt now currentDb (putStatement name replaceInto rows)).exec e).1 =
        .ok (.ok (UInt64.ofNat rows.length) (lastNumber p (statementRows rows))) ∧
      ((execStmt now currentDb (putStatement name replaceInto rows)).exec e).2.Holds db table p cols
        (m.putAll p (statementRows rows)) := by
  obtain ⟨t, hTable, hKeyed⟩ := h
  have hRows : statementRows rows ≠ [] := fun hNil => hSome (List.map_eq_nil_iff.1 hNil)
  obtain ⟨t', hRun, hDone⟩ := insertRows_keyed hRows hKeyed hNew
  obtain ⟨hOut, hLeft⟩ := holds_withTable hTable hRun hDone (unknownDatabase db) (unknownTable (db ++ "." ++ table))
  have hTarget : insertTarget (dbOrTest currentDb) (TableObject.toString (.tableName name)) = (db, table) :=
    hName.insertion
  have hInsert : execStmt now currentDb (putStatement name replaceInto rows) =
      withTable db table (unknownDatabase db) (unknownTable (db ++ "." ++ table))
        (insertRows replaceInto [] (statementRows rows)) >>= keepInsertId := by
    simp only [putStatement, execStmt, insert, hTarget]
    rfl
  rw [hInsert, Prog.exec_bind]
  rcases hExec : (withTable db table (unknownDatabase db) (unknownTable (db ++ "." ++ table))
    (insertRows replaceInto [] (statementRows rows))).exec e with ⟨out, e'⟩
  rw [hExec] at hOut hLeft
  rw [show out = _ from hOut]
  refine ⟨?_, hLeft⟩
  show Except.ok (QueryResult.ok (UInt64.ofNat (statementRows rows).length) _) = _
  rw [statementRows, List.length_map]

theorem holds_update (hName : LeadsTo currentDb name db table) (h : e.Holds db table p cols m) {c : Column}
    (hCol : cols[p]? = some c) {w : Expr} {key : Str} (hKey : extractPkEq c.name w = some key)
    {assignments : List Assignment} (hAssigns : m.Assigns now p cols assignments key) :
    ((execStmt now currentDb (updateWhere name assignments w)).exec e).1 =
        .ok (.ok (if (m key).isSome then 1 else 0) 0) ∧
      ((execStmt now currentDb (updateWhere name assignments w)).exec e).2.Holds db table p cols
        (m.update now cols assignments key) := by
  obtain ⟨t, hTable, hKeyed⟩ := h
  obtain ⟨t', hRun, hDone⟩ := updateTable_keyed hKeyed (lookupKey_keyed hKeyed hCol hKey) hAssigns
  have hTarget : resolveName (dbOrTest currentDb) (TableFactor.toString (.table name [])) = (db, table) := by
    rw [TableFactor.toString, List.append_nil, hName.target]
  simp only [updateWhere, execStmt, TableWithJoins.relation, update, hTarget]
  exact holds_withTable hTable hRun hDone _ _

theorem holds_delete (hName : LeadsTo currentDb name db table) (h : e.Holds db table p cols m) {c : Column}
    (hCol : cols[p]? = some c) {w : Expr} {key : Str} (hKey : extractPkEq c.name w = some key) :
    ((execStmt now currentDb (deleteFrom name w [] none)).exec e).1 = .ok (.ok (if (m key).isSome then 1 else 0) 0) ∧
      ((execStmt now currentDb (deleteFrom name w [] none)).exec e).2.Holds db table p cols (m.erase key) := by
  obtain ⟨t, hTable, hKeyed⟩ := h
  obtain ⟨t', hRun, hDone⟩ := deleteTable_keyed hKeyed (lookupKey_keyed hKeyed hCol hKey) now
  have hTarget : resolveName (dbOrTest currentDb) (TableFactor.toString (.table name [])) = (db, table) := by
    rw [TableFactor.toString, List.append_nil, hName.target]
  simp only [deleteFrom, execStmt, Delete.tableName, List.head?_cons, Option.map_some, Option.getD_some,
    TableWithJoins.relation, delete, hTarget]
  exact holds_withTable hTable hRun hDone _ _

/-- What SELECT shows of the row at a key. -/
def shownAt (cols : List Column) (row : Option Row) : QueryResult :=
  .rows ((projCols cols [.wildcard "*"]).map Prod.fst)
    (row.toList.map (projectText (projCols cols [.wildcard "*"])))

theorem exec_select_keyed (hName : LeadsTo currentDb name db table) (h : e.Holds db table p cols m) {c : Column}
    (hCol : cols[p]? = some c) {w : Expr} {key : Str} (hKey : extractPkEq c.name w = some key) :
    (execStmt now currentDb (.query (starQuery name w none none))).exec e = (.ok (shownAt cols (m key)), e) := by
  obtain ⟨t, hTable, hKeyed⟩ := h
  have hLookup := lookupKey_keyed hKeyed hCol hKey
  have hFound : findTable (e.env now).databases db table (unknownDatabase db)
      (unknownTable (db ++ "." ++ table)) = .ok t := findTable_ok_iff.2 hTable
  have hTarget : resolveName (dbOrTest currentDb) (TableFactor.toString (.table name [])) = (db, table) := by
    rw [TableFactor.toString, List.append_nil, hName.target]
  have hResolve : resolveInSubqueries (e.env now) db w = .ok w := resolveInSubqueries_lookup hLookup
  have hSelect : select (e.env now) (dbOrTest currentDb) (starQuery name w none none) = .ok (shownAt cols (m key)) := by
    simp only [starQuery, select, selectBody, selectFrom, derivedSource, resolveSelection,
      TableWithJoins.relation, TableWithJoins.joins, hTarget, hFound, hResolve, bind, Except.bind, pure,
      Except.pure]
    refine (selectPlain_key hLookup none [.wildcard "*"] none none none).trans ?_
    rw [pkRow_keyed hKeyed, hKeyed.columns]
    rfl
  simp only [execStmt, runQuery, Prog.exec_get_bind, hSelect]
  rfl

end Jobs

-- ---------------------------------------------------------------------------
-- Runs
-- ---------------------------------------------------------------------------

/-- The map of the table of the engine. -/
def Engine.rowMap (e : Engine) (db table : Str) (p : Nat) : RowMap :=
  match findTable e.databases db table [] [] with
  | .ok t => atKey (rowPkKey · p) t.rows
  | .error _ => fun _ => none

theorem rowMap_of_holds {e : Engine} {db table : Str} (h : e.Holds db table p cols m) :
    e.rowMap db table p = m := by
  obtain ⟨t, hTable, hKeyed⟩ := h
  unfold Engine.rowMap
  rw [hTable]
  exact hKeyed.rows

/-- INSERT brings new keys; SELECT, UPDATE and DELETE ask for a key; UPDATE returns and
leaves it. -/
def KeyedStatement.Fits (now p : Nat) (cols : List Column) (keyColumn : Str) (m : RowMap) :
    KeyedStatement → Prop
  | .put replaceInto rows => rows ≠ [] ∧ (replaceInto = false → m.Fresh p (statementRows rows))
  | .update assignments w => ∃ key ∈ extractPkEq keyColumn w, m.Assigns now p cols assignments key
  | .delete w => (extractPkEq keyColumn w).isSome = true
  | .select w => (extractPkEq keyColumn w).isSome = true

/-- A statement fits the map of the table; what else happens leaves the table. -/
def KeyedMove.Fits (db table : Str) (p : Nat) (cols : List Column) (keyColumn : Str) (e : Engine) :
    KeyedMove → Prop
  | .statement now stmt => stmt.Fits now p cols keyColumn (e.rowMap db table p)
  | .others e' => findTable e'.databases db table [] [] = findTable e.databases db table [] []

instance decidableFresh (p : Nat) : (rows : List Row) → (m : RowMap) → Decidable (m.Fresh p rows)
  | [], _ => isTrue trivial
  | row :: rows, m =>
    haveI := decidableFresh p rows (m.put p row)
    inferInstanceAs (Decidable (m (rowPkKey row p) = none ∧ (m.put p row).Fresh p rows))

instance (now p : Nat) (cols : List Column) (assignments : List Assignment) (m : RowMap) (key : Str) :
    Decidable (m.Assigns now p cols assignments key) :=
  inferInstanceAs (Decidable (∀ r ∈ m key, ((assignAll now cols assignments).exec r).1 = .ok () ∧
    rowPkKey (assigned now cols assignments r) p = key))

instance (now p : Nat) (cols : List Column) (keyColumn : Str) (m : RowMap) :
    (stmt : KeyedStatement) → Decidable (stmt.Fits now p cols keyColumn m)
  | .put replaceInto rows =>
    inferInstanceAs (Decidable (rows ≠ [] ∧ (replaceInto = false → m.Fresh p (statementRows rows))))
  | .update assignments w =>
    inferInstanceAs (Decidable (∃ key ∈ extractPkEq keyColumn w, m.Assigns now p cols assignments key))
  | .delete w => inferInstanceAs (Decidable ((extractPkEq keyColumn w).isSome = true))
  | .select w => inferInstanceAs (Decidable ((extractPkEq keyColumn w).isSome = true))

instance (db table : Str) (p : Nat) (cols : List Column) (keyColumn : Str) (e : Engine) :
    (move : KeyedMove) → Decidable (move.Fits db table p cols keyColumn e)
  | .statement now stmt => inferInstanceAs (Decidable (stmt.Fits now p cols keyColumn (e.rowMap db table p)))
  | .others e' => inferInstanceAs
      (Decidable (findTable e'.databases db table [] [] = findTable e.databases db table [] []))

/-- What a statement makes of the map. -/
def RowMap.after (now p : Nat) (cols : List Column) (keyColumn : Str) (m : RowMap) : KeyedStatement → RowMap
  | .put _ rows => m.putAll p (statementRows rows)
  | .update assignments w => (extractPkEq keyColumn w).elim m (m.update now cols assignments)
  | .delete w => (extractPkEq keyColumn w).elim m m.erase
  | .select _ => m

/-- One row when the key is there, else none. -/
def countAt (row : Option Row) : QueryResult := .ok (if row.isSome then 1 else 0) 0

/-- What the map answers. -/
def RowMap.answers (p : Nat) (cols : List Column) (keyColumn : Str) (m : RowMap) : KeyedStatement → QueryResult
  | .put _ rows => .ok (UInt64.ofNat rows.length) (lastNumber p (statementRows rows))
  | .update _ w | .delete w => countAt ((extractPkEq keyColumn w).bind m)
  | .select w => shownAt cols ((extractPkEq keyColumn w).bind m)

def RowMap.step (p : Nat) (cols : List Column) (keyColumn : Str) (m : RowMap) : KeyedMove → RowMap
  | .statement now stmt => m.after now p cols keyColumn stmt
  | .others _ => m

def RowMap.answer (p : Nat) (cols : List Column) (keyColumn : Str) (m : RowMap) :
    KeyedMove → Option (Rust QueryResult)
  | .statement _ stmt => some (.ok (m.answers p cols keyColumn stmt))
  | .others _ => none

variable {currentDb : Option Str} {name : ObjectName} {db table : Str} {e : Engine}

/-- One statement on the engine and on the map. -/
theorem keyed_statement (hName : LeadsTo currentDb name db table) {c : Column} (hCol : cols[p]? = some c)
    (h : e.Holds db table p cols m) {now : Nat} {stmt : KeyedStatement} (hFits : stmt.Fits now p cols c.name m) :
    ((execStmt now currentDb (stmt.statement name)).exec e).1 = .ok (m.answers p cols c.name stmt) ∧
      ((execStmt now currentDb (stmt.statement name)).exec e).2.Holds db table p cols
        (m.after now p cols c.name stmt) := by
  rcases stmt with ⟨replaceInto, rows⟩ | ⟨assignments, w⟩ | w | w
  · exact holds_put hName h hFits.1 hFits.2
  · obtain ⟨key, hKey, hAssigns⟩ := hFits
    dsimp only [KeyedStatement.statement, RowMap.answers, RowMap.after]
    rw [Option.mem_def.1 hKey]
    exact holds_update hName h hCol hKey hAssigns
  · obtain ⟨key, hKey⟩ := Option.isSome_iff_exists.1 hFits
    dsimp only [KeyedStatement.statement, RowMap.answers, RowMap.after]
    rw [hKey]
    exact holds_delete hName h hCol hKey
  · obtain ⟨key, hKey⟩ := Option.isSome_iff_exists.1 hFits
    dsimp only [KeyedStatement.statement, RowMap.answers, RowMap.after]
    rw [exec_select_keyed hName h hCol hKey, hKey]
    exact ⟨rfl, h⟩

/-- One move on the engine and on the map. -/
theorem keyed_step (hName : LeadsTo currentDb name db table) {c : Column} (hCol : cols[p]? = some c)
    (h : e.Holds db table p cols m) (move : KeyedMove) (hFits : move.Fits db table p cols c.name e) :
    move.answer currentDb name e = m.answer p cols c.name move ∧
      (move.step currentDb name e).Holds db table p cols (m.step p cols c.name move) := by
  rcases move with ⟨now, stmt⟩ | e'
  · have hMap : stmt.Fits now p cols c.name m := by
      rw [← rowMap_of_holds h]
      exact hFits
    obtain ⟨hOut, t, hTable, hKeyed⟩ := keyed_statement hName hCol h hMap
    obtain ⟨hSame, hLeft⟩ := run_text now currentDb (stmt.statement name) e
    refine ⟨congrArg some (hSame.trans hOut), t, ?_, hKeyed⟩
    unfold KeyedMove.step
    dsimp only
    rw [hLeft]
    exact hTable
  · obtain ⟨t, hTable, hKeyed⟩ := h
    exact ⟨rfl, t, Eq.trans hFits hTable, hKeyed⟩

end KeyedTables

-- ---------------------------------------------------------------------------
-- A row put, replaced, changed and deleted
-- ---------------------------------------------------------------------------

set_option maxRecDepth 4000

section Words

local instance keyedTablesPlatform : Platform := tablePlatform []

/-- `id INT PRIMARY KEY, word TEXT`. -/
def wordColumns : List Column := [⟨"id", .int, false, true⟩, ⟨"word", .text, true, false⟩]

def wordEngine : Engine :=
  { Engine.fresh [] with
    databases := HashMap.ofList [("test", ⟨"test", HashMap.ofList [("t", Table.create "test" "t" wordColumns [])]⟩)] }

/-- `id = 1`. -/
def idIsOne : Expr := .binaryOp (.identifier ⟨"id", none⟩) .eq (.value (.number "1" false))

def literalNumber (n : Str) : Expr := .value (.number n false)

def literalText (s : Str) : Expr := .value (.singleQuotedString s)

def wordMoves : List KeyedMove :=
  [.statement 0 (.put false [[literalNumber "1", literalText "a"], [literalNumber "2", literalText "b"]]),
    .statement 0 (.select idIsOne),
    .statement 0 (.put true [[literalNumber "1", literalText "c"]]),
    .statement 0 (.update [⟨.columnName [⟨"word", none⟩], literalText "d"⟩] idIsOne),
    .statement 0 (.select idIsOne),
    .statement 0 (.delete idIsOne),
    .statement 0 (.select idIsOne)]

end Words

end RunAlexDb
