import RunAlexDb.Statement.PreparedInsert

/-!
# TableNames — the entry a table name stands for

Every handler reads the printed name by itself: most cut it at the first dot
and trim backticks, CREATE TABLE takes the identifiers, INSERT keeps the quotes
of an unqualified name, TRUNCATE has a default database of its own, and CREATE
DATABASE reads nothing at all. A statement *addresses* an entry of the engine
when its result and the new entry depend on that entry alone.

Main results: `addresses_entry_iff` for one statement, `addressed_alike_iff` for
all of them.
-/

set_option linter.unusedSectionVars false

namespace RunAlexDb

open Text Platform

section TableNames

variable [Platform]

-- ---------------------------------------------------------------------------
-- Names
-- ---------------------------------------------------------------------------

/-- A name without dots and backticks, bare or in backticks. -/
structure Word where
  text : Str
  quoted : Bool
  clean : '.' ∉ text ∧ '`' ∉ text

def Word.ident (w : Word) : Ident := ⟨w.text, if w.quoted then some '`' else none⟩

/-- A table name as a statement writes it. -/
structure TableName where
  db : Option Word
  table : Word

def TableName.objectName (n : TableName) : ObjectName :=
  (n.db.map Word.ident).toList ++ [n.table.ident]

/-- Database and table the name stands for. -/
def TableName.entry (n : TableName) (currentDb : Option Str) : Str × Str :=
  ((n.db.map Word.text).getD (dbOrTest currentDb), n.table.text)

theorem TableName.toString_unqualified (w : Word) :
    ObjectName.toString (TableName.objectName ⟨none, w⟩) = w.ident.toString := rfl

theorem TableName.toString_qualified (d w : Word) :
    ObjectName.toString (TableName.objectName ⟨some d, w⟩) =
      d.ident.toString ++ '.' :: w.ident.toString := by
  show d.ident.toString ++ ("." : Str) ++ w.ident.toString = _
  rw [List.append_assoc]
  rfl

/-- The reading of CREATE TABLE. -/
theorem createTarget_objectName (n : TableName) (dbName : Str) :
    createTarget dbName n.objectName = ((n.db.map Word.text).getD dbName, n.table.text) := by
  obtain ⟨db, w⟩ := n
  cases db <;> rfl

/-- A text without the quote needs no escape. -/
def EscapesOnlyQuotes : Prop := ∀ (s : Str) (q : Char), q ∉ s → escapeQuotedString s q = s

variable (hEscape : EscapesOnlyQuotes)

include hEscape

theorem Word.toString_eq (w : Word) :
    w.ident.toString = if w.quoted then '`' :: w.text ++ ['`'] else w.text := by
  rw [Word.ident, Ident.toString]
  cases w.quoted with
  | false => rfl
  | true =>
    show '`' :: escapeQuotedString w.text '`' ++ ['`'] = _
    rw [hEscape _ _ w.clean.2]
    rfl

theorem Word.trimmed (w : Word) : trimMatches '`' w.ident.toString = w.text := by
  rw [w.toString_eq hEscape]
  split
  · exact trimMatches_quoted w.clean.2
  · exact trimMatches_self w.clean.2

theorem Word.dotless (w : Word) : '.' ∉ w.ident.toString := by
  have hDot := w.clean.1
  rw [w.toString_eq hEscape]
  split
  · simp [hDot]
  · exact hDot

/-- The reading of most handlers, with any default database. -/
theorem resolveName_objectName (n : TableName) (dbName : Str) :
    resolveName dbName (ObjectName.toString n.objectName) =
      ((n.db.map Word.text).getD dbName, n.table.text) := by
  obtain ⟨db, w⟩ := n
  rw [resolveName]
  cases db with
  | none =>
    rw [TableName.toString_unqualified, splitOnce_eq_none (w.dotless hEscape)]
    simp only [w.trimmed hEscape]
    rfl
  | some d =>
    rw [TableName.toString_qualified, splitOnce_append (d.dotless hEscape)]
    simp only [w.trimmed hEscape, d.trimmed hEscape]
    rfl

/-- The reading of INSERT. -/
theorem insertTarget_objectName (n : TableName) (dbName : Str) :
    insertTarget dbName (ObjectName.toString n.objectName) =
      ((n.db.map Word.text).getD dbName,
        if n.db.isNone then n.table.ident.toString else n.table.text) := by
  obtain ⟨db, w⟩ := n
  rw [insertTarget]
  cases db with
  | none =>
    rw [TableName.toString_unqualified, splitOnce_eq_none (w.dotless hEscape)]
    rfl
  | some d =>
    rw [TableName.toString_qualified, splitOnce_append (d.dotless hEscape)]
    simp only [w.trimmed hEscape, d.trimmed hEscape]
    rfl

end TableNames

-- ---------------------------------------------------------------------------
-- Entries
-- ---------------------------------------------------------------------------

section Entries

variable [Platform]

/-- The program works on one entry: without the database it gives a fixed result
and leaves all as it is, else result and new entry are those of `op` on the
entry, and the others stay. -/
def WorksOn (m : EngineM QueryResult) (db table : Str) (noDb : Except Fault QueryResult)
    (op : Option Table → Except Fault QueryResult × Option Table) : Prop :=
  ∀ e : Engine,
    match HashMap.get e.databases db with
    | none => (m.exec e).1 = noDb ∧ (m.exec e).2.databases = e.databases
    | some d => (m.exec e).1 = (op (d.tables.get table)).1 ∧
      ∀ db' table', Store.table? (m.exec e).2.databases db' table' =
        if db' = db ∧ table' = table then (op (d.tables.get table)).2
        else Store.table? e.databases db' table'

def Addresses (m : EngineM QueryResult) (db table : Str) : Prop :=
  ∃ noDb op, WorksOn m db table noDb op

/-- The program makes the database, unless it is there. -/
def AddressesDatabase (m : EngineM QueryResult) (db : Str) : Prop :=
  ∀ e : Engine, (m.exec e).2.databases = Store.addDatabase e.databases db

/-- What follows without another look at the databases changes nothing. -/
theorem Addresses.of_same {m m' : EngineM QueryResult} {db table : Str} (h : Addresses m db table)
    (hResult : ∀ e, (m'.exec e).1 = (m.exec e).1)
    (hDatabases : ∀ e, (m'.exec e).2.databases = (m.exec e).2.databases) :
    Addresses m' db table := by
  obtain ⟨noDb, op, hWorks⟩ := h
  refine ⟨noDb, op, fun e => ?_⟩
  rw [hResult, hDatabases]
  exact hWorks e

/-- A program that changes nothing and looks at one entry. -/
theorem Addresses.of_read {m : EngineM QueryResult} {db table : Str}
    (noDb : Except Fault QueryResult) (read : Option Table → Except Fault QueryResult)
    (hKeeps : ∀ e, (m.exec e).2.databases = e.databases)
    (hNone : ∀ e : Engine, HashMap.get e.databases db = none → (m.exec e).1 = noDb)
    (hSome : ∀ (e : Engine) d, HashMap.get e.databases db = some d →
      (m.exec e).1 = read (d.tables.get table)) : Addresses m db table := by
  refine ⟨noDb, fun entry => (read entry, entry), fun e => ?_⟩
  cases hDb : HashMap.get e.databases db with
  | none => exact ⟨hNone e hDb, hKeeps e⟩
  | some d =>
    refine ⟨hSome e d hDb, fun db' table' => ?_⟩
    rw [hKeeps]
    split
    · rename_i hEntry
      rw [hEntry.1, hEntry.2, Store.table?, hDb]
      rfl
    · rfl

/-- Work on a table that is there. -/
theorem addresses_withTable (db table noDb noTable : Str) (act : TableM QueryResult) :
    Addresses (withTable db table noDb noTable act) db table := by
  refine ⟨.ok (.err 1049 noDb), fun entry => entry.elim (.ok (.err 1146 noTable), none)
    fun t => ((act.exec t).1, some (act.exec t).2), fun e => ?_⟩
  cases hDb : HashMap.get e.databases db with
  | none =>
    have hExec : (withTable db table noDb noTable act).exec e = (.ok (.err 1049 noDb), e) := by
      rw [exec_withTable, actOn, findTable, hDb]
    rw [hExec]
    exact ⟨rfl, rfl⟩
  | some d =>
    have hLook : Store.table? e.databases db table = d.tables.get table := by
      rw [Store.table?, hDb, Option.bind_some]
    cases hTable : d.tables.get table with
    | none =>
      have hExec : (withTable db table noDb noTable act).exec e = (.ok (.err 1146 noTable), e) := by
        rw [exec_withTable, actOn, findTable, hDb]
        simp only [hTable]
      simp only [hExec, hTable, Option.elim_none]
      refine ⟨trivial, fun db' table' => ?_⟩
      split
      · rename_i hEntry
        rw [hEntry.1, hEntry.2, hLook, hTable]
      · rfl
    | some t =>
      simp only [exec_withTable, actOn_found (hLook.trans hTable), hTable, Option.elim_some]
      refine ⟨trivial, fun db' table' => ?_⟩
      rw [table?_modifyTables]
      split
      · rename_i hEntry
        rw [hEntry.1, hEntry.2, hLook, hTable]
        rfl
      · rfl

/-- A program that fails without the entry and does not with it addresses no
other one. -/
theorem Addresses.unique {m : EngineM QueryResult} {db table db' table' : Str} {t : Table}
    (h : Addresses m db' table')
    (hMissing : ∀ e : Engine, Store.table? e.databases db table = none →
      ∃ r, (m.exec e).1 = .ok r ∧ r.isErr = true)
    (hThere : ∀ e : Engine, Store.table? e.databases db table = some t →
      ∀ r, (m.exec e).1 = .ok r → r.isErr = false) : db' = db ∧ table' = table := by
  obtain ⟨noDb, op, hWorks⟩ := h
  have hGet : ∀ d : Database, HashMap.get (HashMap.ofList [(db, d)]) db' =
      if db' = db then some d else none := fun d => HashMap.get_insert HashMap.empty db db' d
  let without : Engine :=
    { Engine.ofTable t with databases := HashMap.ofList [(db, ⟨db, HashMap.empty⟩)] }
  let withIt : Engine :=
    { Engine.ofTable t with databases := HashMap.ofList [(db, ⟨db, HashMap.ofList [(table, t)]⟩)] }
  have hSelf : ∀ d : Database, HashMap.get (HashMap.ofList [(db, d)]) db = some d := fun d =>
    (HashMap.get_insert HashMap.empty db db d).trans (if_pos rfl)
  obtain ⟨r, hErr, hIsErr⟩ := hMissing without (by
    show Store.table? (HashMap.ofList [(db, _)]) db table = none
    rw [Store.table?, hSelf]
    rfl)
  have hNoErr := hThere withIt (by
    show Store.table? (HashMap.ofList [(db, _)]) db table = some t
    rw [Store.table?, hSelf]
    exact (HashMap.get_insert HashMap.empty table table t).trans (if_pos rfl))
  -- another entry is the same in both engines
  have hSame : ¬(db' = db ∧ table' = table) → (m.exec withIt).1 = (m.exec without).1 := by
    intro hOther
    have hWith := hWorks withIt
    have hWithout := hWorks without
    simp only [withIt, without, hGet] at hWith hWithout ⊢
    by_cases hDb : db' = db
    · simp only [hDb, if_true] at hWith hWithout
      have hTable : table' ≠ table := fun h => hOther ⟨hDb, h⟩
      rw [hWith.1, hWithout.1]
      have hNone : (HashMap.ofList [(table, t)]).get table' = none :=
        (HashMap.get_insert HashMap.empty table table' t).trans (if_neg hTable)
      rw [hNone]
      rfl
    · simp only [if_neg hDb] at hWith hWithout
      rw [hWith.1, hWithout.1]
  by_contra hOther
  have hBoth := hNoErr r ((hSame hOther).trans hErr)
  rw [hIsErr] at hBoth
  cases hBoth

/-- Work that reports no error addresses the entry it looks up. -/
theorem Addresses.unique_withTable {m : EngineM QueryResult} {db' table' : Str}
    {act : TableM QueryResult} (h : Addresses m db' table') (db table noDb noTable : Str) (hAct : ReportsNoError act)
    (hSame : ∀ e, (m.exec e).1 = ((withTable db table noDb noTable act).exec e).1) :
    db' = db ∧ table' = table := by
  refine h.unique (t := Table.create [] [] [] []) (fun e hMissing => ?_) fun e hThere r hResult => ?_
  · rw [hSame, exec_withTable]
    rcases actOn_cases e.databases db table noDb noTable act with
      ⟨-, hFails | hFails⟩ | ⟨t, hThere, -⟩
    · exact ⟨_, congrArg Prod.fst hFails, rfl⟩
    · exact ⟨_, congrArg Prod.fst hFails, rfl⟩
    · rw [hMissing] at hThere
      cases hThere
  · rw [hSame, exec_withTable, actOn_found hThere] at hResult
    exact hAct _ r hResult

/-- Work on the tables of one database. -/
theorem table?_modifyTables_with (s : Store) (db : Str) (f : HashMap Str Table → HashMap Str Table)
    (db' table' : Str) :
    (s.modifyTables db f).table? db' table' =
      if db' = db then (HashMap.get s db').bind fun d => (f d.tables).get table'
      else s.table? db' table' := by
  rw [Store.table?, Store.table?, Store.modifyTables, HashMap.get_modify]
  by_cases hDb : db' = db
  · rw [if_pos hDb, if_pos hDb]
    cases HashMap.get s db' <;> rfl
  · rw [if_neg hDb, if_neg hDb]

theorem addresses_createTable (dbName : Str) (name : ObjectName) (colDefs : List ColumnDef)
    (ifNotExists : Bool) :
    Addresses (createTable dbName name colDefs ifNotExists) (createTarget dbName name).1
      (createTarget dbName name).2 := by
  rw [createTable]
  rcases createTarget dbName name with ⟨db, table⟩
  simp only []
  generalize hNew : Table.create db table (colDefs.map createColumn) [] = t
  have hName : t.name = table := by
    rw [← hNew]
    rfl
  refine ⟨.ok (.err 1049 (unknownDatabase db)), fun entry =>
    (.ok (.ok 0 0), if ifNotExists && entry.isSome then entry else some t), fun e => ?_⟩
  rw [putNewTable, Prog.exec_get_bind]
  cases hDb : HashMap.get e.databases db with
  | none => exact ⟨rfl, rfl⟩
  | some d =>
    have hLook : Store.table? e.databases db table = d.tables.get table := by
      rw [Store.table?, hDb, Option.bind_some]
    simp only [hName]
    rw [HashMap.containsKey]
    split
    · refine ⟨rfl, fun db' table' => ?_⟩
      split
      · rename_i hEntry
        rw [hEntry.1, hEntry.2]
        exact hLook
      · rfl
    · refine ⟨rfl, fun db' table' => ?_⟩
      show Store.table? (Store.modifyTables e.databases db fun tables => tables.insert table t)
        db' table' = _
      rw [table?_modifyTables_with]
      by_cases hDb' : db' = db
      · rw [if_pos hDb', hDb', hDb, Option.bind_some, HashMap.get_insert, Store.table?, hDb,
          Option.bind_some]
        simp only [true_and]
      · rw [if_neg hDb', if_neg fun h => hDb' h.1]

theorem addresses_dropTable (dbName : Str) (ifExists : Bool) (name : ObjectName) :
    Addresses (dropTables dbName ifExists [name]) (resolveName dbName (ObjectName.toString name)).1
      (resolveName dbName (ObjectName.toString name)).2 := by
  generalize hName : resolveName dbName (ObjectName.toString name) = entry
  obtain ⟨db, table⟩ := entry
  refine ⟨if ifExists then .ok (.ok 0 0) else .ok (.err 1049 (unknownDatabase db)), fun entry =>
    (if entry.isSome || ifExists then .ok (.ok 0 0)
      else .ok (.err 1051 ("Unknown table '" ++ db ++ "." ++ table ++ "'")), none), fun e => ?_⟩
  rw [dropTables, Prog.exec_get_bind, hName]
  simp only []
  cases hDb : HashMap.get e.databases db with
  | none => cases ifExists <;> exact ⟨rfl, rfl⟩
  | some d =>
    have hLook : ∀ table', Store.table? e.databases db table' = d.tables.get table' := by
      intro table'
      rw [Store.table?, hDb, Option.bind_some]
    have hIs : (d.tables.get table).isSome = d.tables.containsKey table := rfl
    simp only [hIs]
    by_cases hTable : d.tables.containsKey table = true
    · rw [if_pos hTable, hTable, Bool.true_or, if_pos rfl]
      refine ⟨rfl, fun db' table' => ?_⟩
      show Store.table? (Store.modifyTables e.databases db fun tables => tables.remove table)
        db' table' = _
      rw [table?_modifyTables_with]
      by_cases hDb' : db' = db
      · rw [if_pos hDb', hDb', hDb, Option.bind_some, HashMap.get_remove, hLook]
        simp only [true_and]
      · rw [if_neg hDb', if_neg fun h => hDb' h.1]
    · rw [if_neg hTable, Bool.eq_false_iff.2 hTable, Bool.false_or]
      have hStay : ∀ db' table', Store.table? e.databases db' table' =
          if db' = db ∧ table' = table then none else Store.table? e.databases db' table' := by
        intro db' table'
        split
        · rename_i hEntry
          rw [hEntry.1, hEntry.2, hLook]
          simpa [HashMap.containsKey] using hTable
        · rfl
      cases ifExists <;> exact ⟨rfl, hStay⟩

theorem addresses_insert (dbName name : Str) {q : Query} {rows : List (List Expr)}
    (hValues : q.body = .values rows) (now : Nat) (replaceInto : Bool) (columns : List Str) :
    Addresses (insert now dbName name (some q) replaceInto columns) (insertTarget dbName name).1
      (insertTarget dbName name).2 := by
  refine (addresses_withTable (insertTarget dbName name).1 (insertTarget dbName name).2
    (unknownDatabase (insertTarget dbName name).1)
    (unknownTable ((insertTarget dbName name).1 ++ "." ++ (insertTarget dbName name).2))
    (insertRows replaceInto columns (rows.map fun exprs => exprs.map exprToValue))).of_same ?_ ?_
  · intro e
    have hBoth := outcome_insert_values hValues now replaceInto columns dbName name e
    rw [exec_withTable]
    have hResult := congrArg Prod.fst hBoth
    exact hResult
  · intro e
    have hBoth := outcome_insert_values hValues now replaceInto columns dbName name e
    rw [exec_withTable]
    have hDatabases := congrArg (fun x => x.2.1) hBoth
    exact hDatabases

theorem exec_bind_bumpIfOk (m : EngineM QueryResult) (e : Engine) :
    ((m >>= bumpIfOk).exec e).1 = (m.exec e).1 ∧
      ((m >>= bumpIfOk).exec e).2.databases = (m.exec e).2.databases := by
  rw [Prog.exec_bind]
  rcases m.exec e with ⟨_ | r, e'⟩
  · exact ⟨rfl, rfl⟩
  · show ((bumpIfOk r).exec e').1 = _ ∧ ((bumpIfOk r).exec e').2.databases = _
    rw [bumpIfOk]
    cases r.isOk <;> exact ⟨rfl, rfl⟩

/-- A write generation more or less. -/
theorem addresses_bumpIfOk {m : EngineM QueryResult} {db table : Str} (h : Addresses m db table) :
    Addresses (m >>= bumpIfOk) db table :=
  h.of_same (fun e => (exec_bind_bumpIfOk m e).1) fun e => (exec_bind_bumpIfOk m e).2

theorem addresses_truncate (currentDb : Option Str) (name : ObjectName) :
    Addresses (truncate currentDb [name])
      (resolveName (currentDb.getD []) (ObjectName.toString name)).1
      (resolveName (currentDb.getD []) (ObjectName.toString name)).2 :=
  addresses_bumpIfOk (addresses_withTable _ _ _ _ truncateTable)

theorem addresses_alter (currentDb : Option Str) (name : ObjectName)
    (operations : List AlterTableOperation) :
    Addresses (alter currentDb name operations)
      (resolveName (dbOrTest currentDb) (ObjectName.toString name)).1
      (resolveName (dbOrTest currentDb) (ObjectName.toString name)).2 :=
  addresses_bumpIfOk (addresses_withTable _ _ _ _ (alterTable operations))

theorem addresses_readTable (currentDb : Option Str) (name : ObjectName)
    (show_ : Str → Table → QueryResult) :
    Addresses (readTable currentDb name show_)
      (resolveName (dbOrTest currentDb) (ObjectName.toString name)).1
      (resolveName (dbOrTest currentDb) (ObjectName.toString name)).2 := by
  have hError : ∀ (e : Engine) other, findTable e.databases
      (resolveName (dbOrTest currentDb) (ObjectName.toString name)).1
      (resolveName (dbOrTest currentDb) (ObjectName.toString name)).2 "Unknown database"
      "Table not found" = .error other →
        (readTable currentDb name show_).exec e = (.ok other, e) := by
    intro e other hFind
    rw [readTable, Prog.exec_get_bind]
    simp only [hFind]
    rfl
  have hOk : ∀ (e : Engine) t, findTable e.databases
      (resolveName (dbOrTest currentDb) (ObjectName.toString name)).1
      (resolveName (dbOrTest currentDb) (ObjectName.toString name)).2 "Unknown database"
      "Table not found" = .ok t → (readTable currentDb name show_).exec e =
        (.ok (show_ (resolveName (dbOrTest currentDb) (ObjectName.toString name)).2 t), e) := by
    intro e t hFind
    rw [readTable, Prog.exec_get_bind]
    simp only [hFind]
    rfl
  refine .of_read (.ok (.err 1049 "Unknown database")) (fun entry => .ok
      (entry.elim (.err 1146 "Table not found")
        (show_ (resolveName (dbOrTest currentDb) (ObjectName.toString name)).2)))
    (fun e => ?_) (fun e hDb => ?_) fun e d hDb => ?_
  · rcases hFind : findTable e.databases
      (resolveName (dbOrTest currentDb) (ObjectName.toString name)).1
      (resolveName (dbOrTest currentDb) (ObjectName.toString name)).2 "Unknown database"
      "Table not found" with other | t
    · rw [hError e other hFind]
    · rw [hOk e t hFind]
  · rw [hError e (.err 1049 "Unknown database") (by rw [findTable, hDb])]
  · rcases hTable : d.tables.get (resolveName (dbOrTest currentDb) (ObjectName.toString name)).2
      with _ | t
    · rw [hError e (.err 1146 "Table not found") (by rw [findTable, hDb]; simp only [hTable])]
      rfl
    · rw [hOk e t (by rw [findTable, hDb]; simp only [hTable])]
      rfl

/-- A condition whose evaluation reads no other table. -/
def Expr.noSubquery : Expr → Bool
  | .inSubquery .. => false
  | .subquery _ => false
  | .binaryOp left _ right => left.noSubquery && right.noSubquery
  | .unaryOp _ e => e.noSubquery
  | .nested e => e.noSubquery
  | _ => true

theorem resolveInSubqueries_plain (env : QueryEnv) (dbName : Str) :
    ∀ e : Expr, e.noSubquery = true → resolveInSubqueries env dbName e = .ok e
  | .binaryOp left op right, h => by
    rw [Expr.noSubquery, Bool.and_eq_true] at h
    rw [resolveInSubqueries, resolveInSubqueries_plain env dbName left h.1,
      resolveInSubqueries_plain env dbName right h.2]
    rfl
  | .unaryOp op e, h => by
    rw [Expr.noSubquery] at h
    rw [resolveInSubqueries, resolveInSubqueries_plain env dbName e h]
    rfl
  | .nested e, h => by
    rw [Expr.noSubquery] at h
    rw [resolveInSubqueries, resolveInSubqueries_plain env dbName e h]
    rfl
  | .inSubquery .., h => by
    rw [Expr.noSubquery] at h
    cases h
  | .subquery q, h => by
    rw [Expr.noSubquery] at h
    cases h
  | .identifier _, _ | .compoundIdentifier _, _ | .value _, _ | .isNull _, _ | .isNotNull _, _
  | .inList _ _ _, _ | .between _ _ _ _, _ | .like _ _ _, _ | .iLike _ _ _, _ | .case _ _ _, _
  | .cast _ _, _ | .convert _ _, _ | .function _, _ | .interval _ _, _ | .exists _ _, _
  | .compound _ _, _ | .other _, _ => by
    simp only [resolveInSubqueries]
    rfl
termination_by structural e => e

/-- `SELECT .. FROM name ..`. -/
def selectOf (distinct : Option Distinct) (projection : List SelectItem) (selection : Option Expr)
    (groupBy : GroupByExpr) (having : Option Expr) (orderBy : Option OrderByKind)
    (limit offset : Option Expr) (name : ObjectName) : Query :=
  .mk (.select (.mk distinct projection [.mk (.table name []) []] selection groupBy having)) orderBy
    limit offset

theorem tableFactor_toString (name : ObjectName) :
    (TableFactor.table name []).toString = ObjectName.toString name := List.append_nil _

theorem select_selectOf (env : QueryEnv) (dbName : Str) (distinct : Option Distinct)
    (projection : List SelectItem) {selection : Option Expr}
    (hPlain : ∀ w ∈ selection, w.noSubquery = true) (groupBy : GroupByExpr) (having : Option Expr)
    (orderBy : Option OrderByKind) (limit offset : Option Expr) (name : ObjectName) :
    select env dbName
        (selectOf distinct projection selection groupBy having orderBy limit offset name) =
      match findTable env.databases (resolveName dbName (ObjectName.toString name)).1
          (resolveName dbName (ObjectName.toString name)).2
          (unknownDatabase (resolveName dbName (ObjectName.toString name)).1)
          (unknownTable ((resolveName dbName (ObjectName.toString name)).1 ++ "." ++
            (resolveName dbName (ObjectName.toString name)).2)) with
      | .error other => pure other
      | .ok table =>
        selectTable env.now table distinct projection selection groupBy having orderBy limit offset := by
  have hSelection : ∀ db, resolveSelection env db selection = .ok selection := by
    intro db
    cases selection with
    | none => rw [resolveSelection]; rfl
    | some w => rw [resolveSelection, resolveInSubqueries_plain env db w (hPlain w rfl)]; rfl
  show selectFrom env dbName orderBy limit offset (.mk distinct projection
    [.mk (.table name []) []] selection groupBy having) = _
  have hName : (TableWithJoins.mk (.table name []) []).relation.toString = ObjectName.toString name :=
    tableFactor_toString name
  rw [selectFrom, derivedSource, hName]
  · show (resolveSelection env (resolveName dbName (ObjectName.toString name)).1 selection >>= _) = _
    rw [hSelection]
    rfl
  · intro _ _ _ hDerived
    cases hDerived

/-- A SELECT of one table, by `read` once it is found. -/
theorem addresses_of_select {m : EngineM QueryResult} {db table noDb noTable : Str}
    (read : Table → Rust QueryResult)
    (hExec : ∀ e : Engine, m.exec e =
      (match findTable e.databases db table noDb noTable with
        | .error other => pure other
        | .ok t => read t, e)) : Addresses m db table := by
  refine .of_read (.ok (.err 1049 noDb)) (fun entry => entry.elim (.ok (.err 1146 noTable)) read)
    (fun e => ?_) (fun e hDb => ?_) fun e d hDb => ?_
  · rw [hExec]
  · rw [hExec, findTable, hDb]
    rfl
  · rw [hExec, findTable, hDb]
    simp only []
    cases d.tables.get table <;> rfl

-- ---------------------------------------------------------------------------
-- Statements about one table
-- ---------------------------------------------------------------------------

/-- A statement about one table, without the name. -/
inductive TableStatement
  | createTable (columns : List ColumnDef) (ifNotExists : Bool)
  | insert (columns : List Ident) (rows : List (List Expr)) (replaceInto : Bool)
  | select (distinct : Option Distinct) (projection : List SelectItem) (selection : Option Expr)
      (plain : ∀ w ∈ selection, w.noSubquery = true) (groupBy : GroupByExpr) (having : Option Expr)
      (orderBy : Option OrderByKind) (limit offset : Option Expr)
  | update (assignments : List Assignment) (selection : Option Expr)
  | delete (selection : Option Expr)
  | truncate
  | alterTable (operations : List AlterTableOperation)
  | dropTable (ifExists : Bool)
  | describe

def TableStatement.named (name : ObjectName) : TableStatement → Statement
  | .createTable columns ifNotExists => .createTable ⟨name, columns, ifNotExists, none⟩
  | .insert columns rows replaceInto =>
    .insert ⟨.tableName name, columns, some (.mk (.values rows) none none none), replaceInto⟩
  | .select distinct projection selection _ groupBy having orderBy limit offset =>
    .query (selectOf distinct projection selection groupBy having orderBy limit offset name)
  | .update assignments selection => .update (.mk (.table name []) []) assignments selection
  | .delete selection => .delete { from_ := [.mk (.table name []) []], selection := selection }
  | .truncate => .truncate [name]
  | .alterTable operations => .alterTable name operations
  | .dropTable ifExists => .drop .table [name] ifExists
  | .describe => .explainTable name

/-- The statement in a text, or prepared with bound values. -/
def TableStatement.run (now : Nat) (currentDb : Option Str) (bound : Option (List Value))
    (k : TableStatement) (name : ObjectName) : EngineM QueryResult :=
  match bound with
  | none => execStmt now currentDb (k.named name)
  | some values => execStmtPrepared now values currentDb (k.named name)

/-- The statement looks elsewhere: INSERT takes an unqualified name in its
quotes, TRUNCATE has no default database. -/
def TableStatement.Strays (currentDb : Option Str) (bound : Option (List Value)) (n : TableName) :
    TableStatement → Prop
  | .insert .. => bound = none ∧ n.db = none ∧ n.table.quoted = true
  | .truncate => n.db = none ∧ currentDb = none
  | _ => False

variable (hEscape : EscapesOnlyQuotes)

include hEscape

/-- A statement that does not stray addresses the entry the name stands for. -/
theorem addresses_entry {currentDb : Option Str} {bound : Option (List Value)} {n : TableName}
    {k : TableStatement} (hStays : ¬k.Strays currentDb bound n) (now : Nat) :
    Addresses (k.run now currentDb bound n.objectName) (n.entry currentDb).1 (n.entry currentDb).2 := by
  have hResolve := resolveName_objectName hEscape n (dbOrTest currentDb)
  have hEntry : resolveName (dbOrTest currentDb) (ObjectName.toString n.objectName) =
    n.entry currentDb := hResolve
  cases k with
  | createTable columns ifNotExists =>
    have hCreate := addresses_createTable (dbOrTest currentDb) n.objectName columns ifNotExists
    rw [createTarget_objectName] at hCreate
    cases bound <;> exact hCreate
  | insert columns rows replaceInto =>
    cases bound with
    | none =>
      have hInsert := addresses_insert (dbOrTest currentDb)
        (ObjectName.toString n.objectName) (q := .mk (.values rows) none none none) rfl now
        replaceInto (columns.map Ident.value)
      rw [insertTarget_objectName hEscape] at hInsert
      have hName : (if n.db.isNone then n.table.ident.toString else n.table.text) = n.table.text := by
        split
        · rename_i hDb
          have hBare : n.table.quoted = false := by
            by_contra hQuoted
            exact hStays ⟨rfl, Option.isNone_iff_eq_none.1 hDb, by simpa using hQuoted⟩
          rw [n.table.toString_eq hEscape, hBare]
          rfl
        · rfl
      rw [hName] at hInsert
      exact hInsert
    | some values =>
      have hInsert := addresses_withTable (n.entry currentDb).1 (n.entry currentDb).2 "Unknown database"
        "Table not found" (insertRowsPrepared (bindRows values 0 rows))
      rw [← hEntry] at hInsert ⊢
      exact hInsert
  | select distinct projection selection plain groupBy having orderBy limit offset =>
    rw [← hEntry]
    cases bound with
    | none =>
      exact addresses_of_select (fun t => selectTable now t distinct projection selection
        groupBy having orderBy limit offset) fun e =>
          congrArg (fun r => (r, e)) (select_selectOf (e.env now) (dbOrTest currentDb) distinct
            projection plain groupBy having orderBy limit offset n.objectName)
    | some values =>
      rw [← tableFactor_toString]
      exact addresses_of_select (fun t => selectTablePrepared now t values projection selection)
        fun e => rfl
  | update assignments selection =>
    rw [← hEntry, ← tableFactor_toString]
    cases bound with
    | none => exact addresses_withTable _ _ _ _ (updateTable now assignments selection)
    | some values => exact addresses_withTable _ _ _ _ (updateTablePrepared now assignments selection values)
  | delete selection =>
    rw [← hEntry, ← tableFactor_toString]
    cases bound with
    | none => exact addresses_withTable _ _ _ _ (deleteTable now selection)
    | some values => exact addresses_withTable _ _ _ _ (deleteTablePrepared now selection values)
  | truncate =>
    have hTruncate := addresses_truncate currentDb n.objectName
    rw [resolveName_objectName hEscape] at hTruncate
    have hDb : (n.db.map Word.text).getD (currentDb.getD []) = (n.entry currentDb).1 := by
      cases hName : n.db with
      | some d => rw [TableName.entry, hName]; rfl
      | none =>
        rw [TableName.entry, hName]
        cases currentDb with
        | some db => rfl
        | none => exact absurd ⟨hName, rfl⟩ hStays
    rw [hDb] at hTruncate
    cases bound <;> exact hTruncate
  | alterTable operations =>
    have hAlter := addresses_alter currentDb n.objectName operations
    rw [hEntry] at hAlter
    cases bound <;> exact hAlter
  | dropTable ifExists =>
    have hDrop := addresses_dropTable (dbOrTest currentDb) ifExists n.objectName
    rw [hEntry] at hDrop
    cases bound <;> exact hDrop
  | describe =>
    have hRead := addresses_readTable currentDb n.objectName explainTable
    rw [hEntry] at hRead
    cases bound <;> exact hRead

omit hEscape in
/-- The result of a text INSERT of VALUES. -/
theorem exec_insert_result (now : Nat) (currentDb : Option Str) (name : ObjectName)
    (columns : List Ident) (rows : List (List Expr)) (replaceInto : Bool) (e : Engine) :
    (((TableStatement.insert columns rows replaceInto).run now currentDb none name).exec e).1 =
      ((withTable (insertTarget (dbOrTest currentDb) (ObjectName.toString name)).1
        (insertTarget (dbOrTest currentDb) (ObjectName.toString name)).2
        (unknownDatabase (insertTarget (dbOrTest currentDb) (ObjectName.toString name)).1)
        (unknownTable ((insertTarget (dbOrTest currentDb) (ObjectName.toString name)).1 ++ "." ++
          (insertTarget (dbOrTest currentDb) (ObjectName.toString name)).2))
        (insertRows replaceInto (columns.map Ident.value)
          (rows.map fun exprs => exprs.map exprToValue))).exec e).1 := by
  have hBoth := outcome_insert_values (q := .mk (.values rows) none none none) rfl now replaceInto
    (columns.map Ident.value) (dbOrTest currentDb) (ObjectName.toString name) e
  have hResult := congrArg Prod.fst hBoth
  rw [exec_withTable]
  exact hResult

/-- **One statement.** It addresses the entry its name stands for exactly when it
does not stray. -/
theorem addresses_entry_iff (now : Nat) (currentDb : Option Str) (bound : Option (List Value))
    (n : TableName) (k : TableStatement) :
    Addresses (k.run now currentDb bound n.objectName) (n.entry currentDb).1 (n.entry currentDb).2 ↔
      ¬k.Strays currentDb bound n := by
  refine ⟨fun h hStrays => ?_, fun hStays => addresses_entry hEscape hStays now⟩
  cases k with
  | insert columns rows replaceInto =>
    obtain ⟨rfl, hDb, hQuoted⟩ := hStrays
    have hTarget := (h.unique_withTable _ _ _ _ (reportsNoError_insertRows _ _ _)
      (exec_insert_result now currentDb n.objectName columns rows replaceInto)).2
    rw [insertTarget_objectName hEscape, hDb, n.table.toString_eq hEscape, hQuoted] at hTarget
    have hLength := congrArg List.length hTarget
    simp [TableName.entry] at hLength
    omega
  | truncate =>
    obtain ⟨hDb, rfl⟩ := hStrays
    have hAct : ReportsNoError truncateTable := by
      rintro t r hResult
      cases hResult
      rfl
    have hTarget := (h.unique_withTable (resolveName [] (ObjectName.toString n.objectName)).1
      (resolveName [] (ObjectName.toString n.objectName)).2 "Unknown database" "Table not found" hAct
      fun e => by
        cases bound <;> exact (exec_bind_bumpIfOk _ e).1).1
    rw [resolveName_objectName hEscape, TableName.entry, hDb] at hTarget
    cases hTarget
  | createTable => exact hStrays
  | select => exact hStrays
  | update => exact hStrays
  | delete => exact hStrays
  | alterTable => exact hStrays
  | dropTable => exact hStrays
  | describe => exact hStrays

-- ---------------------------------------------------------------------------
-- All statements
-- ---------------------------------------------------------------------------

/-- Every statement with the name, in a text or prepared, addresses the entry, and
CREATE DATABASE of the database the name is qualified with makes that one. -/
def TableName.AddressedAlike (n : TableName) (currentDb : Option Str) (db table : Str) : Prop :=
  (∀ (k : TableStatement) (bound : Option (List Value)) (now : Nat),
      Addresses (k.run now currentDb bound n.objectName) db table) ∧
    ∀ d, n.db = some d → ∀ now,
      AddressesDatabase (execStmt now currentDb (.createDatabase [d.ident])) db

/-- A qualified name with its database bare, or a bare one with a database
selected. -/
def TableName.Plain (n : TableName) (currentDb : Option Str) : Prop :=
  match n.db with
  | some d => d.quoted = false
  | none => n.table.quoted = false ∧ currentDb ≠ none

omit hEscape in
theorem exec_createDatabase (now : Nat) (currentDb : Option Str) (name : ObjectName) :
    AddressesDatabase (execStmt now currentDb (.createDatabase name)) (ObjectName.toString name) := by
  intro e
  show (e.addDatabase (ObjectName.toString name)).databases = _
  rw [Engine.addDatabase, Store.addDatabase]
  split <;> rfl

/-- CREATE DATABASE keeps the backticks. -/
theorem addressesDatabase_iff (now : Nat) (currentDb : Option Str) (d : Word) :
    AddressesDatabase (execStmt now currentDb (.createDatabase [d.ident])) d.text ↔
      d.quoted = false := by
  have hCreates : AddressesDatabase (execStmt now currentDb (.createDatabase [d.ident]))
    d.ident.toString := exec_createDatabase now currentDb [d.ident]
  have hText := d.toString_eq hEscape
  constructor
  · intro h
    by_contra hQuoted
    rw [Bool.not_eq_false] at hQuoted
    rw [hText, hQuoted, if_pos rfl] at hCreates
    let e : Engine := { Engine.ofTable (Table.create [] [] [] []) with databases := HashMap.empty }
    have hBoth := (h e).symm.trans (hCreates e)
    have hGet : ∀ db db' : Str, HashMap.get (Store.addDatabase HashMap.empty db) db' =
        if db' = db then some ⟨db, HashMap.empty⟩ else none := fun db db' =>
      HashMap.get_insert HashMap.empty db db' _
    have hLook := congrArg (fun s : Store => HashMap.get s d.text) hBoth
    have hOther : d.text ≠ '`' :: d.text ++ ['`'] := by
      intro hSame
      have hLength := congrArg List.length hSame
      simp at hLength
      omega
    simp only [e, hGet, if_true, if_neg hOther] at hLook
    cases hLook
  · intro hBare
    rw [hText, hBare] at hCreates
    exact hCreates

/-- Statements that agree on an entry were given a plain name. -/
theorem TableName.AddressedAlike.plain {currentDb : Option Str} {n : TableName} {db table : Str}
    (h : n.AddressedAlike currentDb db table) : n.Plain currentDb := by
  obtain ⟨hTables, hDatabase⟩ := h
  have hEntry := fun k bound now => addresses_entry_iff hEscape now currentDb bound n k
  -- a prepared INSERT looks up the entry, so that this is the one they share
  have hOne := hTables (.insert [] [] false) (some []) 0
  have hStays : ¬(TableStatement.insert [] [] false).Strays currentDb (some []) n := by
    rintro ⟨hNone, -⟩
    cases hNone
  obtain ⟨rfl, rfl⟩ := hOne.unique_withTable (n.entry currentDb).1 (n.entry currentDb).2
    "Unknown database" "Table not found"
    (reportsNoError_insertRowsPrepared []) fun e => by
      have hResolve := resolveName_objectName hEscape n (dbOrTest currentDb)
      have hSame : n.entry currentDb =
        resolveName (dbOrTest currentDb) (ObjectName.toString n.objectName) := hResolve.symm
      rw [hSame]
      rfl
  rw [TableName.Plain]
  cases hDb : n.db with
  | some d =>
    have hCreates := hDatabase d hDb 0
    rw [TableName.entry, hDb] at hCreates
    exact (addressesDatabase_iff hEscape 0 currentDb d).1 hCreates
  | none =>
    have hInsert := (hEntry (.insert [] [] false) none 0).1 (hTables _ _ _)
    have hTruncate := (hEntry .truncate none 0).1 (hTables _ _ _)
    constructor
    · by_contra hQuoted
      exact hInsert ⟨rfl, hDb, by simpa using hQuoted⟩
    · intro hNone
      exact hTruncate ⟨hDb, hNone⟩

theorem TableName.Plain.addressedAlike {currentDb : Option Str} {n : TableName}
    (hPlain : n.Plain currentDb) :
    n.AddressedAlike currentDb (n.entry currentDb).1 (n.entry currentDb).2 := by
  have hEntry := fun k bound now => addresses_entry_iff hEscape now currentDb bound n k
  rw [TableName.Plain] at hPlain
  refine ⟨fun k bound now => ?_, fun d hDb now => ?_⟩
  · refine (hEntry k bound now).2 fun hStrays => ?_
    cases k with
    | insert columns rows replaceInto =>
      obtain ⟨-, hDb, hQuoted⟩ := hStrays
      rw [hDb] at hPlain
      rw [hPlain.1] at hQuoted
      cases hQuoted
    | truncate =>
      obtain ⟨hDb, hNone⟩ := hStrays
      rw [hDb] at hPlain
      exact hPlain.2 hNone
    | createTable => exact hStrays
    | select => exact hStrays
    | update => exact hStrays
    | delete => exact hStrays
    | alterTable => exact hStrays
    | dropTable => exact hStrays
    | describe => exact hStrays
  · rw [hDb] at hPlain
    rw [TableName.entry, hDb]
    exact (addressesDatabase_iff hEscape now currentDb d).2 hPlain

/-- **All statements.** For every selected database and every name without dots
and backticks inside its parts: CREATE DATABASE and all statements about the
table address one entry exactly when the name is plain. -/
theorem addressed_alike_iff (currentDb : Option Str) (n : TableName) :
    (∃ db table, n.AddressedAlike currentDb db table) ↔ n.Plain currentDb :=
  ⟨fun ⟨_, _, h⟩ => h.plain hEscape, fun h => ⟨_, _, h.addressedAlike hEscape⟩⟩

end Entries

-- ---------------------------------------------------------------------------
-- A name in backticks
-- ---------------------------------------------------------------------------

section Backticks

local instance tableNamesPlatform : Platform := tablePlatform []

theorem escapesOnlyQuotes_plain : EscapesOnlyQuotes := fun _ _ => doubleQuote_of_notMem

/-- `t` or, in backticks, the same. -/
def wordT (quoted : Bool) : Word := ⟨"t", quoted, by decide, by decide⟩

/-- A bare name, with a database selected. -/
theorem addressed_alike_iff_bare :
    ∃ db table, TableName.AddressedAlike ⟨none, wordT false⟩ (some "shop") db table :=
  (addressed_alike_iff escapesOnlyQuotes_plain (some "shop") ⟨none, wordT false⟩).2
    ⟨rfl, by intro h; cases h⟩

/-- A name in backticks: INSERT looks for a table whose name has them. -/
theorem not_addressed_alike :
    ¬ ∀ (currentDb : Option Str) (n : TableName), ∃ db table, n.AddressedAlike currentDb db table := by
  intro hAll
  obtain ⟨db, table, hAlike⟩ := hAll (some "shop") ⟨none, wordT true⟩
  cases (hAlike.plain escapesOnlyQuotes_plain).1

end Backticks

end RunAlexDb
