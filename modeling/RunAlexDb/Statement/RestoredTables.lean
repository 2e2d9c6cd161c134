import RunAlexDb.Access.AccountNames
import RunAlexDb.Statement.DumpTexts
import RunAlexDb.Statement.Runs

/-!
# RestoredTables — the tables that a restore of a dump makes

A dump names a database between backticks. CREATE DATABASE keeps the backticks in the
name that it makes, USE takes them off again, and so in a restore each CREATE TABLE is
for a database that is not there. Its error is passed over, as is the one of the INSERT
behind it, and no table comes out of a restore.

Main results: `noTables_restored` and `hasTablesOf_iff`.
-/

set_option linter.unusedSectionVars false

namespace RunAlexDb

open Text Platform Literals

section Restored

variable [Platform]

-- ---------------------------------------------------------------------------
-- What a restore is for
-- ---------------------------------------------------------------------------

/-- What of a column a dump has to keep. -/
def Column.shape (c : Column) : Str × ColumnType × Bool := (c.name, c.colType, c.primaryKey)

/-- Each table of `e` is in `f`, under the same names, with the same columns and rows. -/
def Engine.HasTablesOf (f e : Engine) : Prop :=
  ∀ db d name t, e.databases.get db = some d → d.tables.get name = some t →
    ∃ d' t', f.databases.get db = some d' ∧ d'.tables.get name = some t' ∧
      t'.columns.map Column.shape = t.columns.map Column.shape ∧ t'.rows = t.rows

def Engine.NoTables (e : Engine) : Prop :=
  ∀ db d, e.databases.get db = some d → ∀ name, d.tables.get name = none

/-- A fresh engine after the restore of a dump. -/
def Engine.restored (e : Engine) (ts now : Nat) (rootPassword : Str) : Engine :=
  ((restoreSql now (e.dumpSql ts)).exec (Engine.fresh rootPassword)).2

/-- Calls of some users lead from a fresh engine to `e`. -/
def Engine.ReachedBySql (e : Engine) : Prop :=
  ∃ rootPassword, ∃ calls : List (Str × Call),
    e = Trace.run (fun e c => c.2.step c.1 e) (Engine.fresh rootPassword) calls

-- ---------------------------------------------------------------------------
-- Plain names
-- ---------------------------------------------------------------------------

/-- The name of a database that was written without backticks in it: as it was written,
maybe with the backticks around it. -/
structure PlainDatabase (name : Str) : Prop where
  oneLine : '\n' ∉ name
  ticks : '`' ∉ name ∨ ∃ n, name = backticked n ∧ '`' ∉ n ∧ ';' ∉ n ∧ n ∉ systemDbs

/-- No backtick in a name, and no text with a line that starts with `--` or ends with `;`. -/
structure PlainTable (name : Str) (t : Table) : Prop where
  noTick : '`' ∉ name
  columns : ∀ c ∈ t.columns, '`' ∉ c.name
  whole : ∀ w ∈ tableWritten name t, OneStatement (text w.1)

/-- What a dump of the engine writes is plain. -/
structure Engine.Plain (e : Engine) : Prop where
  databases : ∀ d ∈ e.databases.entries, systemDbs.contains d.1 = false → PlainDatabase d.1
  tables : ∀ d ∈ e.databases.entries, systemDbs.contains d.1 = false →
    ∀ t ∈ d.2.tables.entries, PlainTable t.1 t.2

/-- The text of a statement as a restore hands it over. -/
def handedText (w : List Tok) : Str := trim (joinedLines (split '\n' (text w)))

/-- The statements that the parser takes a dump for: CREATE DATABASE with a name in backticks,
CREATE TABLE with a name of one part, and INSERT. -/
structure ParsesDumps : Prop where
  database : ∀ name, PlainDatabase name → ∀ stmts,
    parseSql (handedText (databaseToks name)) = .ok stmts →
      ∃ id rest, stmts = [.createDatabase (id :: rest)] ∧ id.quoteStyle = some '`'
  table : ∀ name t, PlainTable name t → ∀ stmts,
    parseSql (handedText (createToks name t)) = .ok stmts →
      ∃ create id, stmts = [.createTable create] ∧ create.name = [id]
  rows : ∀ name t, PlainTable name t → ∀ stmts,
    parseSql (handedText (insertToks name t)) = .ok stmts → ∃ ins, stmts = [.insert ins]

-- ---------------------------------------------------------------------------
-- Databases without tables
-- ---------------------------------------------------------------------------

/-- The databases are system databases or have a backtick in front, and none has a table. -/
structure Bare (s : Store) : Prop where
  names : ∀ db d, HashMap.get s db = some d → db ∈ systemDbs ∨ db.head? = some '`'
  noTables : ∀ db d, HashMap.get s db = some d → ∀ name, d.tables.get name = none

/-- A database is selected that none of these is. -/
def Selected (currentDb : Option Str) : Prop :=
  ∃ db, currentDb = some db ∧ db ∉ systemDbs ∧ db.head? ≠ some '`'

/-- The statements of a restore. -/
def Statement.OfDump : Statement → Prop
  | .createDatabase name => (ObjectName.toString name).head? = some '`'
  | .createTable create => ∃ id, create.name = [id]
  | .insert _ => True
  | _ => False

def Statement.createsDatabase : Statement → Bool
  | .createDatabase _ => true
  | _ => false

theorem effDb_ofDump {stmt : Statement} (h : stmt.OfDump) (db : Option Str) : stmt.effDb db = db := by
  cases stmt with
  | use u => exact absurd h id
  | _ => rfl

theorem Bare.get_selected {s : Store} (h : Bare s) {db : Str} (hSystem : db ∉ systemDbs)
    (hTick : db.head? ≠ some '`') : HashMap.get s db = none := by
  cases hGet : HashMap.get s db with
  | none => rfl
  | some d => exact absurd (h.names db d hGet) (not_or_intro hSystem hTick)

theorem Bare.addDatabase {s : Store} (h : Bare s) {name : Str} (hName : name.head? = some '`') :
    Bare (s.addDatabase name) := by
  unfold Store.addDatabase
  split
  · exact h
  · constructor
    · intro db d hGet
      rw [HashMap.get_insert] at hGet
      split at hGet
      · rename_i hSame
        exact .inr (hSame ▸ hName)
      · exact h.names db d hGet
    · intro db d hGet
      rw [HashMap.get_insert] at hGet
      split at hGet
      · intro other
        rw [← Option.some.inj hGet]
        exact HashMap.get_empty other
      · exact h.noTables db d hGet

/-- There is no table for an action to run on. -/
theorem Bare.act {s : Store} (h : Bare s) (db table : Str) (a : TableAction) :
    s.apply (.act db table a) = s := by
  rw [Store.apply]
  cases hFind : findTable s db table [] [] with
  | error _ => rfl
  | ok t =>
    obtain ⟨d, hDb, hTable⟩ := findTable_ok hFind
    rw [h.noTables db d hDb table] at hTable
    cases hTable

/-- There is no database for CREATE TABLE to put its table in. -/
theorem Bare.createEffects {e : Engine} (h : Bare e.databases) (now : Nat) {db : Str}
    (hSystem : db ∉ systemDbs) (hTick : db.head? ≠ some '`') {create : CreateTable} {id : Ident}
    (hName : create.name = [id]) : createEffects now db create e = [] := by
  have hPut : ∀ (ifNotExists : Bool) (t : Table), putEffects e.databases ifNotExists db t = [] := by
    intro ifNotExists t
    unfold putEffects
    rw [h.get_selected hSystem hTick]
  have hTarget : createTarget db create.name = (db, id.value) := by
    rw [hName]
    rfl
  unfold RunAlexDb.createEffects
  rw [hTarget]
  cases create.query with
  | none => exact hPut _ _
  | some query =>
    simp only
    split
    · exact hPut _ _
    · rfl

/-- A statement of a restore makes a database at most. -/
theorem Bare.run {e : Engine} (h : Bare e.databases) {stmt : Statement} (hStmt : stmt.OfDump)
    {db : Option Str} (hDb : stmt.createsDatabase = true ∨ Selected db) (now : Nat) :
    Bare (Store.run e.databases (stmt.effects now db e)) := by
  cases stmt with
  | createDatabase name => exact h.addDatabase hStmt
  | createTable create =>
    obtain ⟨id, hName⟩ := hStmt
    obtain ⟨name, rfl, hSystem, hTick⟩ := hDb.resolve_left Bool.false_ne_true
    have hNone := h.createEffects now hSystem hTick hName
    rw [Statement.effects]
    exact (congrArg (fun effs => Bare (Store.run e.databases effs)) hNone).mpr h
  | insert ins =>
    rcases hTarget : insertTarget (dbOrTest db) ins.table.toString with ⟨target, table⟩
    rw [Statement.effects, insertEffects, hTarget]
    cases ins.rows? now (dbOrTest db) e with
    | none => exact h
    | some rows =>
      have hRun := h.act target table (.insert ins.replaceInto (ins.columns.map Ident.value) rows)
      exact (congrArg Bare hRun).mpr h
  | _ => exact absurd hStmt id

-- ---------------------------------------------------------------------------
-- The engine of a restore
-- ---------------------------------------------------------------------------

/-- Databases without tables, and only statements of a restore in the statement cache. -/
structure Idle (e : Engine) : Prop where
  bare : Bare e.databases
  cached : ∀ key stmts, e.stmtCache.get key = some stmts → ∀ stmt ∈ stmts, stmt.OfDump

theorem idle_fresh (rootPassword : Str) : Idle (Engine.fresh rootPassword) := by
  have hDatabase : ∀ db d, (Engine.fresh rootPassword).databases.get db = some d →
      db ∈ systemDbs ∧ d.tables = HashMap.empty := by
    intro db d hGet
    obtain ⟨name, hName, hEntry⟩ := List.mem_map.1 (HashMap.mem_of_get_ofList hGet)
    obtain ⟨rfl, rfl⟩ := Prod.mk.inj hEntry
    exact ⟨List.mem_map_of_mem (f := String.toList) hName, rfl⟩
  constructor
  · constructor
    · exact fun db d hGet => .inl (hDatabase db d hGet).1
    · intro db d hGet name
      rw [(hDatabase db d hGet).2]
      exact HashMap.get_empty name
  · exact fun key stmts hGet => nomatch hGet

theorem Idle.job {e : Engine} (h : Idle e) {now : Nat} {db : Option Str} {stmt : Statement}
    (hStmt : stmt.OfDump) (hDb : stmt.createsDatabase = true ∨ Selected db) :
    Idle (Job.step e (.text now db stmt)) := by
  have hWrote := wrote_job e (.text now db stmt)
  constructor
  · rw [hWrote.databases]
    exact h.bare.run hStmt hDb now
  · rw [hWrote.stmtCache]
    exact h.cached

theorem mem_textJobs_ofDump {now : Nat} {db : Option Str} {stmts : List Statement}
    (h : ∀ stmt ∈ stmts, stmt.OfDump) {j : Job} (hj : j ∈ textJobs now db stmts) :
    ∃ stmt ∈ stmts, j = .text now db stmt := by
  induction stmts with
  | nil => cases hj
  | cons stmt rest ih =>
    rw [textJobs, effDb_ofDump (h stmt (List.mem_cons_self ..))] at hj
    rcases List.mem_cons.1 hj with rfl | hj
    · exact ⟨stmt, List.mem_cons_self .., rfl⟩
    · obtain ⟨other, hOther, rfl⟩ := ih (fun s hs => h s (List.mem_cons_of_mem stmt hs)) hj
      exact ⟨other, List.mem_cons_of_mem stmt hOther, rfl⟩

theorem Idle.jobs {now : Nat} {db : Option Str} {stmts : List Statement}
    (hStmts : ∀ stmt ∈ stmts, stmt.OfDump ∧ (stmt.createsDatabase = true ∨ Selected db))
    {jobs : List Job} (hJobs : ∀ j ∈ jobs, j ∈ textJobs now db stmts) {e : Engine} (h : Idle e) :
    Idle (Trace.run Job.step e jobs) := by
  induction jobs generalizing e with
  | nil => exact h
  | cons j jobs ih =>
    obtain ⟨stmt, hStmt, rfl⟩ :=
      mem_textJobs_ofDump (fun s hs => (hStmts s hs).1) (hJobs j (List.mem_cons_self ..))
    rw [Trace.run_cons]
    refine ih (fun k hk => hJobs k (List.mem_cons_of_mem _ hk)) ?_
    exact h.job (hStmts stmt hStmt).1 (hStmts stmt hStmt).2

theorem Idle.parsed {e : Engine} (h : Idle e) {sql : Str}
    (hParse : ∀ stmts, parseSql sql = .ok stmts → ∀ stmt ∈ stmts, stmt.OfDump) :
    Idle (e.parsed sql) := by
  refine ⟨h.bare, fun key stmts hGet => ?_⟩
  rw [Engine.parsed, cacheAfter] at hGet
  split at hGet
  · exact h.cached key stmts hGet
  · split at hGet
    · exact h.cached key stmts hGet
    · rename_i fresh hFresh
      rw [HashMap.get_insert] at hGet
      split at hGet
      · rw [← Option.some.inj hGet]
        exact hParse fresh hFresh
      · split at hGet
        · cases hGet
        · exact h.cached key stmts hGet

/-- The answer for a text is of the parser or from the statement cache. -/
theorem Idle.answer {e : Engine} (h : Idle e) {sql : Str}
    (hParse : ∀ stmts, parseSql sql = .ok stmts → ∀ stmt ∈ stmts, stmt.OfDump)
    {stmts : List Statement} (hAnswer : parseAnswer e sql = .ok stmts) : ∀ stmt ∈ stmts, stmt.OfDump := by
  unfold parseAnswer at hAnswer
  split at hAnswer
  · rename_i cached hCached
    rw [← Except.ok.inj hAnswer]
    exact h.cached _ cached hCached
  · split at hAnswer
    · cases hAnswer
    · rename_i fresh hFresh
      rw [← Except.ok.inj hAnswer]
      exact hParse fresh hFresh

theorem mem_answer {c : Call} {userName : Str} {e : Engine} {stmt : Statement}
    (h : stmt ∈ c.executed userName e) : ∃ stmts, parseAnswer e c.sql = .ok stmts ∧ stmt ∈ stmts := by
  unfold Call.executed at h
  split at h
  · rename_i stmts _ hAnswer
    refine ⟨stmts, hAnswer, ?_⟩
    split at h
    · cases h
    · exact h
  · cases h

/-- A call for a text of a dump: a database is selected, or it makes one. -/
theorem Idle.step {e : Engine} (h : Idle e) {sql : Str} {db : Option Str}
    (hParse : ∀ stmts, parseSql sql = .ok stmts → ∀ stmt ∈ stmts, stmt.OfDump)
    (hDb : ∀ stmts, parseAnswer e sql = .ok stmts →
      ∀ stmt ∈ stmts, stmt.createsDatabase = true ∨ Selected db) (now : Nat) (userName : Str) :
    Idle ((Call.text now sql db).step userName e) := by
  cases hShort : (Call.text now sql db).shortcut with
  | some s =>
    have hUsers := Call.step_shortcut (c := .text now sql db) (by rw [hShort]; rfl) userName e
    constructor
    · rw [hUsers.databases]
      exact h.bare
    · rw [hUsers.stmtCache]
      exact h.cached
  | none =>
    obtain ⟨jobs, hPrefix, hStep⟩ := Call.step_jobs hShort userName e
    rw [hStep]
    refine (h.parsed hParse).jobs (fun stmt hStmt => ?_) (fun j hj => hPrefix.subset hj)
    obtain ⟨stmts, hAnswer, hStmt⟩ := mem_answer hStmt
    exact ⟨h.answer hParse hAnswer stmt hStmt, hDb stmts hAnswer stmt hStmt⟩

-- ---------------------------------------------------------------------------
-- The texts handed over
-- ---------------------------------------------------------------------------

theorem trimStart_cons {a : Char} (h : isWhitespace a = false) (p : Str) : trimStart (a :: p) = a :: p :=
  List.dropWhile_cons_of_neg (by rw [h]; exact Bool.false_ne_true)

/-- The text starts as the statement does, up to a character that no blank is trimmed across. -/
theorem handedText_prefix {w : List Tok} {a : Char} {p r : Str} {c : Char}
    (hText : text w = a :: p ++ c :: r) (ha : isWhitespace a = false) (hc : isWhitespace c = false)
    (hBreak : '\n' ∉ a :: p ++ [c]) : ∃ r', handedText w = a :: p ++ c :: r' := by
  obtain ⟨y, b, hLines⟩ := List.exists_cons_of_ne_nil (List.splitOnP_ne_nil (· == '\n') r)
  have hSplit : split '\n' (text w) = (a :: p ++ c :: y) :: b := by
    have hAppend := split_append hBreak r
    unfold split at hAppend ⊢
    rw [hLines] at hAppend
    rw [hText]
    simpa using hAppend
  have hStart := trimStart_cons ha p
  have hLine : trim (a :: p ++ c :: y) = a :: p ++ c :: trimEnd y := by
    rw [trim_anchor hc, hStart]
  refine ⟨trimEnd (trimEnd y ++ ' ' :: joinedLines b), ?_⟩
  have hJoined : joinedLines ((a :: p ++ c :: y) :: b) =
      a :: p ++ c :: (trimEnd y ++ ' ' :: joinedLines b) := by
    unfold joinedLines
    rw [List.flatMap_cons, hLine]
    simp
  unfold handedText
  rw [hSplit, hJoined, trim_anchor hc, hStart]

/-- A text on one line is handed over as it is. -/
theorem handedText_line {w : List Tok} {a : Char} {p : Str} (hText : text w = a :: p ++ [';'])
    (ha : isWhitespace a = false) (hBreak : '\n' ∉ text w) : handedText w = text w := by
  have hStart := trimStart_cons ha p
  have hTrim : trim (text w) = text w := by
    rw [hText, trim_anchor (by decide), hStart]
    rfl
  have hJoined : joinedLines [text w] = text w ++ [' '] := by
    unfold joinedLines
    rw [List.flatMap_singleton, hTrim, hText]
    rfl
  unfold handedText
  rw [split_of_noBreak hBreak, hJoined, trim_append_blank (by decide), hTrim]

/-- A text that a restore executes, and what the parser gives for it is of a dump. -/
def Executed (sql : Str) : Prop :=
  startsWith (toUppercase sql) "USE " = false ∧
    ∀ stmts, parseSql sql = .ok stmts → ∀ stmt ∈ stmts, stmt.OfDump

/-- A text that selects a database. -/
def SelectsDatabase (sql : Str) : Prop :=
  ∃ db, Selected (some db) ∧
    ∀ now currentDb e, (restoreStatement now currentDb sql).exec e = (.ok (some db), e)

theorem not_use (hUpper : UpperByChar) {a : Char} {r : Str} (ha : a.toNat < 128)
    (hU : a.toUpper ≠ 'U') : startsWith (toUppercase (a :: r)) "USE " = false := by
  have hAscii : ∀ c ∈ [a], c.toNat < 128 := fun c hc => List.mem_singleton.1 hc ▸ ha
  have hCopy : toUppercase (a :: r) = a.toUpper :: toUppercase r := by
    rw [← List.singleton_append, hUpper.append, hUpper.ascii [a] hAscii]
    rfl
  rw [hCopy]
  refine Bool.eq_false_iff.2 fun hPrefix => ?_
  exact hU (List.cons_prefix_cons.1 (List.isPrefixOf_iff_prefix.1 hPrefix)).1.symm

theorem head_toString {id : Ident} (h : id.quoteStyle = some '`') (rest : List Ident) :
    (ObjectName.toString (id :: rest)).head? = some '`' := by
  have hIdent : id.toString = '`' :: (escapeQuotedString id.value '`' ++ ['`']) := by
    unfold Ident.toString
    rw [h]
    rfl
  unfold ObjectName.toString
  rw [List.map_cons, hIdent]
  cases rest <;> rfl

theorem handedText_database (name : Str) :
    ∃ r, handedText (databaseToks name) = 'C' :: ("REATE DATABASE IF NOT EXISTS " : Str) ++ '`' :: r := by
  refine handedText_prefix (r := name ++ "`;") ?_ (by decide) (by decide) (by decide)
  unfold databaseToks backticked
  rw [text_codes]
  simp

theorem handedText_create (name : Str) (t : Table) :
    ∃ r, handedText (createToks name t) = 'C' :: ("REATE TABLE IF NOT EXISTS " : Str) ++ '`' :: r := by
  refine handedText_prefix (r := name ++ "` (\n" ++ join ",\n" (t.columns.map dumpColumn) ++ "\n);") ?_
    (by decide) (by decide) (by decide)
  unfold createToks backticked
  rw [text_codes]
  simp

theorem handedText_insert (name : Str) (t : Table) :
    ∃ r, handedText (insertToks name t) = 'I' :: ("NSERT INTO " : Str) ++ '`' :: r := by
  refine handedText_prefix (r := name ++ "` (" ++ join ", " (t.columns.map fun c => backticked c.name) ++
    ") VALUES\n" ++ join ",\n" (t.rows.map dumpRow) ++ ";") ?_ (by decide) (by decide) (by decide)
  rw [text_insertToks]
  unfold backticked
  simp

theorem executed_database (hUpper : UpperByChar) (hParse : ParsesDumps) {name : Str}
    (hName : PlainDatabase name) :
    Executed (handedText (databaseToks name)) ∧
      ∀ stmts, parseSql (handedText (databaseToks name)) = .ok stmts →
        ∀ stmt ∈ stmts, stmt.createsDatabase = true := by
  obtain ⟨r, hHanded⟩ := handedText_database name
  refine ⟨⟨?_, fun stmts hStmts stmt hStmt => ?_⟩, fun stmts hStmts stmt hStmt => ?_⟩
  · rw [hHanded]
    exact not_use hUpper (by decide) (by decide)
  · obtain ⟨id, rest, rfl, hQuote⟩ := hParse.database name hName stmts hStmts
    rw [List.mem_singleton.1 hStmt]
    exact head_toString hQuote rest
  · obtain ⟨id, rest, rfl, -⟩ := hParse.database name hName stmts hStmts
    rw [List.mem_singleton.1 hStmt]
    rfl

theorem executed_table (hUpper : UpperByChar) (hParse : ParsesDumps) {name : Str} {t : Table}
    (hTable : PlainTable name t) : ∀ w ∈ tableWritten name t, Executed (handedText w.1) := by
  have hCreate : Executed (handedText (createToks name t)) := by
    obtain ⟨r, hHanded⟩ := handedText_create name t
    refine ⟨?_, fun stmts hStmts stmt hStmt => ?_⟩
    · rw [hHanded]
      exact not_use hUpper (by decide) (by decide)
    · obtain ⟨create, id, rfl, hName⟩ := hParse.table name t hTable stmts hStmts
      rw [List.mem_singleton.1 hStmt]
      exact ⟨id, hName⟩
  have hInsert : Executed (handedText (insertToks name t)) := by
    obtain ⟨r, hHanded⟩ := handedText_insert name t
    refine ⟨?_, fun stmts hStmts stmt hStmt => ?_⟩
    · rw [hHanded]
      exact not_use hUpper (by decide) (by decide)
    · obtain ⟨ins, rfl⟩ := hParse.rows name t hTable stmts hStmts
      rw [List.mem_singleton.1 hStmt]
      trivial
  intro w hw
  rcases List.mem_cons.1 hw with rfl | hw
  · exact hCreate
  · split at hw
    · cases hw
    · rw [List.mem_singleton.1 hw]
      exact hInsert

/-- The backticks of USE come off, and with them those of the name. -/
theorem trimMatches_plain {name : Str} (h : PlainDatabase name) (hDumped : name ∉ systemDbs) :
    ∃ db, trimMatches '`' (backticked name) = db ∧ db ∉ systemDbs ∧ '`' ∉ db := by
  rcases h.ticks with hNone | ⟨n, rfl, hNone, -, hSystem⟩
  · exact ⟨name, trimMatches_quoted hNone, hDumped, hNone⟩
  · refine ⟨n, ?_, hSystem, hNone⟩
    have hTick : ∀ c ∈ ['`', '`'], c = '`' := by simp
    have hText : backticked (backticked n) = ['`', '`'] ++ (n ++ ['`', '`']) := by
      unfold backticked
      simp
    rw [hText, trimMatches_around hTick hTick hNone]

theorem selects_use (hUpper : UpperByChar) {name : Str} (h : PlainDatabase name)
    (hDumped : name ∉ systemDbs) : SelectsDatabase (handedText (useToks name)) := by
  have hText : text (useToks name) = ("USE " : Str) ++ (backticked name ++ [';']) := by
    unfold useToks
    rw [text_codes, List.append_assoc]
    rfl
  have hBreak : '\n' ∉ text (useToks name) := by
    rw [hText]
    unfold backticked
    simp [h.oneLine]
  have hHanded : handedText (useToks name) = ("USE " : Str) ++ (backticked name ++ [';']) := by
    rw [handedText_line (a := 'U') (p := "SE " ++ backticked name) _ (by decide) hBreak, hText]
    rw [hText]
    simp
  obtain ⟨db, hTrim, hSystem, hTick⟩ := trimMatches_plain h hDumped
  have hSelected : Selected (some db) :=
    ⟨db, rfl, hSystem, fun hHead => hTick (List.mem_of_mem_head? hHead)⟩
  refine ⟨db, hSelected, fun now currentDb e => ?_⟩
  have hAscii : (("USE " : Str).all fun c => c.toNat < 128) = true := by decide
  have hUse : startsWith (toUppercase (("USE " : Str) ++ (backticked name ++ [';']))) "USE " = true := by
    rw [hUpper.append, hUpper.ascii _ fun c hc => of_decide_eq_true (List.all_eq_true.1 hAscii c hc)]
    exact List.isPrefixOf_iff_prefix.2 ⟨_, rfl⟩
  have hSlice : sliceFrom (("USE " : Str) ++ (backticked name ++ [';'])) 4 =
      some (backticked name ++ [';']) := sliceFrom_append ("USE " : Str) _
  have hKeep : trim (backticked name ++ [';']) = backticked name ++ [';'] := by
    rw [trim_anchor (by decide)]
    rfl
  have hEnd : trimEndMatches (· == ';') (backticked name ++ [';']) = backticked name := by
    unfold trimEndMatches backticked
    simp
  have hName : trimMatches '`' (trimEndMatches (· == ';') (trim (backticked name ++ [';']))) = db := by
    rw [hKeep, hEnd, hTrim]
  unfold restoreStatement
  rw [hHanded, if_pos hUse, hSlice, Prog.exec_bind, ← hName]
  rfl

-- ---------------------------------------------------------------------------
-- The restore
-- ---------------------------------------------------------------------------

/-- The engine is the one that the call leaves. -/
theorem exec_restoreStatement {sql : Str} (h : startsWith (toUppercase sql) "USE " = false) (now : Nat)
    (currentDb : Option Str) (e : Engine) :
    (∃ fault, (restoreStatement now currentDb sql).exec e =
        (.error fault, (Call.text now sql currentDb).step "root" e)) ∨
      (restoreStatement now currentDb sql).exec e =
        (.ok currentDb, (Call.text now sql currentDb).step "root" e) := by
  have hNot : ¬ startsWith (toUppercase sql) "USE " = true := by
    rw [h]
    exact Bool.false_ne_true
  unfold restoreStatement Call.step Call.run
  rw [if_neg hNot, Prog.exec_bind]
  rcases (execute now sql currentDb "root").exec e with ⟨fault | r, e'⟩
  · exact .inl ⟨fault, rfl⟩
  · exact .inr rfl

/-- With a database selected. -/
theorem Idle.texts {texts : List Str} (hTexts : ∀ sql ∈ texts, Executed sql ∨ SelectsDatabase sql)
    (now : Nat) {currentDb : Option Str} (hDb : Selected currentDb) {e : Engine} (h : Idle e) :
    Idle ((restoreAll now currentDb texts).exec e).2 := by
  induction texts generalizing currentDb e with
  | nil => exact h
  | cons sql rest ih =>
    have hRest : ∀ s ∈ rest, Executed s ∨ SelectsDatabase s :=
      fun s hs => hTexts s (List.mem_cons_of_mem sql hs)
    rw [restoreAll, Prog.exec_bind]
    rcases hTexts sql (List.mem_cons_self ..) with ⟨hNot, hParse⟩ | ⟨db, hSelected, hExec⟩
    · have hStep : Idle ((Call.text now sql currentDb).step "root" e) :=
        h.step hParse (fun _ _ _ _ => .inr hDb) now "root"
      rcases exec_restoreStatement hNot now currentDb e with ⟨fault, hExec⟩ | hExec
      · rw [hExec]
        exact hStep
      · rw [hExec]
        exact ih hRest hDb hStep
    · rw [hExec]
      exact ih hRest hSelected h

/-- From the start: the first text makes a database, the second selects it. -/
theorem idle_restoreAll {first second : Str} {rest : List Str} (hFirst : Executed first)
    (hCreates : ∀ stmts, parseSql first = .ok stmts → ∀ stmt ∈ stmts, stmt.createsDatabase = true)
    (hSecond : SelectsDatabase second) (hRest : ∀ sql ∈ rest, Executed sql ∨ SelectsDatabase sql)
    (now : Nat) (rootPassword : Str) :
    Idle ((restoreAll now none (first :: second :: rest)).exec (Engine.fresh rootPassword)).2 := by
  have hAnswer : parseAnswer (Engine.fresh rootPassword) first = directParse first := rfl
  have hStep : Idle ((Call.text now first none).step "root" (Engine.fresh rootPassword)) := by
    refine (idle_fresh rootPassword).step hFirst.2 (fun stmts hStmts stmt hStmt => .inl ?_) now "root"
    rw [hAnswer, directParse] at hStmts
    split at hStmts
    · cases hStmts
    · rename_i fresh hFresh
      rw [← Except.ok.inj hStmts] at hStmt
      exact hCreates fresh hFresh stmt hStmt
  obtain ⟨db, hSelected, hUse⟩ := hSecond
  rw [restoreAll, Prog.exec_bind]
  rcases exec_restoreStatement hFirst.1 now none (Engine.fresh rootPassword) with ⟨fault, hExec⟩ | hExec
  · rw [hExec]
    exact hStep
  · rw [hExec]
    show Idle ((restoreAll now none (second :: rest)).exec _).2
    rw [restoreAll, Prog.exec_bind, hUse]
    exact hStep.texts hRest now hSelected

/-- Whole statements are handed over one by one. -/
theorem restoredTexts_whole {e : Engine} (h : ∀ w ∈ e.written, OneStatement (text w.1)) (ts : Nat) :
    restoredTexts (e.dumpSql ts) = e.written.map fun w => handedText w.1 := by
  have hEnds : ∀ w ∈ e.written.map Prod.fst, EndsStatement (text w) := by
    intro w hw
    obtain ⟨w, hWritten, rfl⟩ := List.mem_map.1 hw
    rcases exists_written hWritten with ⟨s, hText⟩ | ⟨name, t, hText⟩
    · rw [hText, text_codes]
      exact endsStatement_semicolon s
    · rw [hText, text_insertToks]
      exact endsStatement_semicolon _
  have hOne : ∀ w ∈ e.written.map Prod.fst, OneStatement (text w) := List.forall_mem_map.2 h
  rw [restoredTexts_dumpSql, foldl_linesOf hEnds hOne, List.nil_append, List.map_map]
  rfl

/-- What holds of the statements of databases and tables holds of all that a dump writes. -/
theorem forall_written {e : Engine} {P : List Tok → Prop}
    (hDatabase : ∀ d ∈ e.databases.entries, systemDbs.contains d.1 = false →
      P (databaseToks d.1) ∧ P (useToks d.1) ∧
        ∀ t ∈ d.2.tables.entries, ∀ w ∈ tableWritten t.1 t.2, P w.1) : ∀ w ∈ e.written, P w.1 := by
  intro w hw
  obtain ⟨d, hd, hw⟩ := List.mem_flatMap.1 hw
  obtain ⟨hEntry, hDumped⟩ := List.mem_filter.1 hd
  obtain ⟨hCreate, hUse, hTables⟩ := hDatabase d hEntry (by simpa using hDumped)
  rcases List.mem_cons.1 hw with rfl | hw
  · exact hCreate
  · rcases List.mem_cons.1 hw with rfl | hw
    · exact hUse
    · obtain ⟨t, ht, hw⟩ := List.mem_flatMap.1 hw
      exact hTables t ht w hw

theorem not_mem_systemDbs {name : Str} (h : systemDbs.contains name = false) : name ∉ systemDbs := by
  intro hMem
  rw [List.contains_iff_mem.2 hMem] at h
  cases h

theorem Engine.Plain.whole {e : Engine} (h : e.Plain) : ∀ w ∈ e.written, OneStatement (text w.1) := by
  refine forall_written (P := fun w => OneStatement (text w)) fun d hd hDumped => ?_
  have hName := safeLines_of_noBreak (h.databases d hd hDumped).oneLine
  exact ⟨(oneStatement_database d.1).2 hName, (oneStatement_use d.1).2 hName,
    fun t ht => (h.tables d hd hDumped t ht).whole⟩

/-- **A restore of a plain dump makes no table.** -/
theorem noTables_restored (hUpper : UpperByChar) (hParse : ParsesDumps) {e : Engine} (h : e.Plain)
    (ts now : Nat) (rootPassword : Str) : (e.restored ts now rootPassword).NoTables := by
  have hTexts : ∀ w ∈ e.written, Executed (handedText w.1) ∨ SelectsDatabase (handedText w.1) := by
    refine forall_written (P := fun w => Executed (handedText w) ∨ SelectsDatabase (handedText w))
      fun d hd hDumped => ⟨?_, ?_, fun t ht w hw => ?_⟩
    · exact .inl (executed_database hUpper hParse (h.databases d hd hDumped)).1
    · exact .inr (selects_use hUpper (h.databases d hd hDumped) (not_mem_systemDbs hDumped))
    · exact .inl (executed_table hUpper hParse (h.tables d hd hDumped t ht) w hw)
  have hIdle : Idle (e.restored ts now rootPassword) := by
    unfold Engine.restored
    rw [restoreSql_eq, restoredTexts_whole h.whole]
    unfold Engine.written at hTexts ⊢
    cases hDumped : e.databases.entries.filter fun d => !systemDbs.contains d.1 with
    | nil => exact idle_fresh rootPassword
    | cons d rest =>
      have hEntry : d ∈ e.databases.entries.filter fun d => !systemDbs.contains d.1 := by
        rw [hDumped]
        exact List.mem_cons_self ..
      obtain ⟨hd, hSystem⟩ := List.mem_filter.1 hEntry
      have hName : systemDbs.contains d.1 = false := by simpa using hSystem
      have hPlain := h.databases d hd hName
      obtain ⟨hFirst, hCreates⟩ := executed_database hUpper hParse hPlain
      rw [hDumped] at hTexts
      refine idle_restoreAll hFirst hCreates (selects_use hUpper hPlain (not_mem_systemDbs hName)) ?_ now
        rootPassword
      intro sql hSql
      obtain ⟨w, hw, rfl⟩ := List.mem_map.1 hSql
      refine hTexts w ?_
      rw [List.flatMap_cons, databaseWritten]
      exact List.mem_cons_of_mem _ (List.mem_cons_of_mem _ hw)
  exact hIdle.bare.noTables

/-- **A dump and a restore keep no table.** The tables of an engine come back when it has
none, and for plain names and texts only then. -/
theorem hasTablesOf_iff (hUpper : UpperByChar) (hParse : ParsesDumps) (e : Engine) (ts now : Nat)
    (rootPassword : Str) :
    (e.NoTables → (e.restored ts now rootPassword).HasTablesOf e) ∧
      (e.Plain → (e.restored ts now rootPassword).HasTablesOf e → e.NoTables) := by
  constructor
  · intro hNone db d name t hDb hTable
    rw [hNone db d hDb name] at hTable
    cases hTable
  · intro hPlain hHas db d hDb name
    cases hTable : d.tables.get name with
    | none => rfl
    | some t =>
      obtain ⟨d', t', hDb', hTable', -, -⟩ := hHas db d name t hDb hTable
      have hNone := noTables_restored hUpper hParse hPlain ts now rootPassword db d' hDb' name
      rw [hNone] at hTable'
      cases hTable'

end Restored

section Shop

/-- The parser on a database with a table and on the dump of both. -/
def shopStatements : List (Str × List Statement) :=
  [("CREATE DATABASE shop", [.createDatabase [⟨"shop", none⟩]]),
    ("CREATE TABLE shop.t (a INT)", [.createTable {
      name := [⟨"shop", none⟩, ⟨"t", none⟩]
      columns := [⟨⟨"a", none⟩, .int, []⟩]
      ifNotExists := false
      query := none }]),
    ("CREATE DATABASE IF NOT EXISTS `shop`;", [.createDatabase [⟨"shop", some '`'⟩]]),
    ("CREATE TABLE IF NOT EXISTS `t` ( `a` INT );", [.createTable {
      name := [⟨"t", some '`'⟩]
      columns := [⟨⟨"a", some '`'⟩, .int, []⟩]
      ifNotExists := true
      query := none }])]

local instance shopPlatform : Platform := tablePlatform shopStatements

theorem upperByChar_shop : UpperByChar :=
  ⟨fun _ _ => rfl, fun _ _ => List.map_append⟩

/-- What the parser gives for a text is in the table. -/
theorem mem_shopStatements {sql : Str} {stmts : List Statement} (h : parseSql sql = .ok stmts) :
    (sql, stmts) ∈ shopStatements := by
  change parseByTable shopStatements sql = .ok stmts at h
  unfold parseByTable at h
  split at h
  · rename_i found hLookup
    obtain ⟨a, b, hTable, -⟩ := List.lookup_eq_some_iff.1 hLookup
    rw [hTable, ← Except.ok.inj h]
    exact List.mem_append_right a (List.mem_cons_self ..)
  · cases h

theorem parsesDumps_shop : ParsesDumps := by
  have hEntry : ∀ {sql : Str} {stmts : List Statement} {p r : Str}, parseSql sql = .ok stmts →
      sql = p ++ r → ∃ x ∈ shopStatements, startsWith x.1 p = true ∧ x.2 = stmts := by
    intro sql stmts p r hStmts hText
    exact ⟨(sql, stmts), mem_shopStatements hStmts, List.isPrefixOf_iff_prefix.2 ⟨r, hText.symm⟩, rfl⟩
  constructor
  · intro name _ stmts hStmts
    obtain ⟨r, hHanded⟩ := handedText_database name
    obtain ⟨x, hx, hStart, rfl⟩ := hEntry hStmts hHanded
    have hAll : ∀ x ∈ shopStatements,
        startsWith x.1 ('C' :: ("REATE DATABASE IF NOT EXISTS " : Str)) = true →
        ∃ id rest, x.2 = [.createDatabase (id :: rest)] ∧ id.quoteStyle = some '`' := by
      unfold shopStatements
      simp only [List.forall_mem_cons]
      exact ⟨fun h => absurd h (by decide), fun h => absurd h (by decide), fun _ => ⟨_, _, rfl, rfl⟩,
        fun h => absurd h (by decide), fun _ h => nomatch h⟩
    exact hAll x hx hStart
  · intro name t _ stmts hStmts
    obtain ⟨r, hHanded⟩ := handedText_create name t
    obtain ⟨x, hx, hStart, rfl⟩ := hEntry hStmts hHanded
    have hAll : ∀ x ∈ shopStatements,
        startsWith x.1 ('C' :: ("REATE TABLE IF NOT EXISTS " : Str)) = true →
        ∃ create id, x.2 = [.createTable create] ∧ create.name = [id] := by
      unfold shopStatements
      simp only [List.forall_mem_cons]
      exact ⟨fun h => absurd h (by decide), fun h => absurd h (by decide), fun h => absurd h (by decide),
        fun _ => ⟨_, _, rfl, rfl⟩, fun _ h => nomatch h⟩
    exact hAll x hx hStart
  · intro name t _ stmts hStmts
    obtain ⟨r, hHanded⟩ := handedText_insert name t
    obtain ⟨x, hx, hStart, rfl⟩ := hEntry hStmts hHanded
    have hNone : ∀ x ∈ shopStatements, startsWith x.1 ('I' :: ("NSERT INTO " : Str)) = false := by
      unfold shopStatements
      simp only [List.forall_mem_cons]
      exact ⟨by decide, by decide, by decide, by decide, fun _ h => nomatch h⟩
    rw [hNone x hx] at hStart
    cases hStart

def shopEngine : Engine :=
  Trace.run (fun e (c : Str × Call) => c.2.step c.1 e) (Engine.fresh [])
    [("root", .text 0 "CREATE DATABASE shop" none), ("root", .text 0 "CREATE TABLE shop.t (a INT)" none)]

def shopTable : Table := Table.create "shop" "t" [⟨"a", .int, true, false⟩] []

theorem entries_shop : shopEngine.databases.entries = (Engine.fresh []).databases.entries ++
    [(("shop" : Str), ⟨"shop", HashMap.ofList [("t", shopTable)]⟩)] := by decide +kernel

theorem reached_shop : shopEngine.ReachedBySql := ⟨[], _, rfl⟩

theorem get_shop :
    (shopEngine.databases.get "shop").bind (fun d => d.tables.get "t") = some shopTable := by
  decide +kernel

theorem plain_shop : shopEngine.Plain := by
  have hEntry : ∀ d ∈ shopEngine.databases.entries, systemDbs.contains d.1 = false →
      d = (("shop" : Str), ⟨"shop", HashMap.ofList [("t", shopTable)]⟩) := by
    intro d hd hDumped
    rw [entries_shop] at hd
    rcases List.mem_append.1 hd with hd | hd
    · have hSystem : ∀ d ∈ (Engine.fresh []).databases.entries, systemDbs.contains d.1 = true := by
        decide +kernel
      rw [hSystem d hd] at hDumped
      cases hDumped
    · exact List.mem_singleton.1 hd
  constructor
  · intro d hd hDumped
    rw [hEntry d hd hDumped]
    exact ⟨by decide, .inl (by decide)⟩
  · intro d hd hDumped t ht
    rw [hEntry d hd hDumped] at ht
    rw [List.mem_singleton.1 ht]
    refine ⟨by decide, by decide, fun w hw => ?_⟩
    rw [List.mem_singleton.1 hw]
    exact (oneStatement_create "t" shopTable).2 (by decide)

/-- The table of the shop, and the engine without tables. -/
theorem hasTablesOf_iff_shop :
    ¬ (shopEngine.restored 0 0 []).HasTablesOf shopEngine ∧
      ((Engine.fresh []).restored 0 0 []).HasTablesOf (Engine.fresh []) := by
  have hShop := hasTablesOf_iff upperByChar_shop parsesDumps_shop shopEngine 0 0 []
  have hFresh := hasTablesOf_iff upperByChar_shop parsesDumps_shop (Engine.fresh []) 0 0 []
  refine ⟨fun hHas => ?_, hFresh.1 (idle_fresh []).bare.noTables⟩
  obtain ⟨d, hDb, hTable⟩ := Option.bind_eq_some_iff.1 get_shop
  rw [hShop.2 plain_shop hHas "shop" d hDb "t"] at hTable
  cases hTable

/-- CREATE DATABASE shop; CREATE TABLE shop.t (a INT). -/
theorem not_hasTablesOf :
    ¬ ∀ (e : Engine) (ts now : Nat) (rootPassword : Str), e.ReachedBySql →
      (e.restored ts now rootPassword).HasTablesOf e := by
  intro hAll
  obtain ⟨d, hDb, hTable⟩ := Option.bind_eq_some_iff.1 get_shop
  have hHas := hAll shopEngine 0 0 [] reached_shop
  obtain ⟨d', t', hDb', hTable', -, -⟩ := hHas "shop" d "t" shopTable hDb hTable
  have hNone := noTables_restored upperByChar_shop parsesDumps_shop plain_shop 0 0 [] "shop" d' hDb' "t"
  rw [hNone] at hTable'
  cases hTable'

end Shop

end RunAlexDb
