import RunAlexDb.Session.BinaryParams
import RunAlexDb.Query.PreparedSelect
import RunAlexDb.Statement.PreparedInsert

/-!
# StringParams — a string from the wire to a column and back

A string parameter goes through `parse_execute_params`, is made a value by
`execute_prepared`, pushed by `insert_prepared` and displayed by a SELECT of its
column. On the way it may be taken for a number, and the column it stands in is
the one at its position, whatever the column list says.

Main result: `stringParam_shown_iff`.
-/

set_option linter.unusedSectionVars false

namespace RunAlexDb

open Text Platform

section StringParams

variable [Platform]

-- ---------------------------------------------------------------------------
-- Which parameter a cell takes
-- ---------------------------------------------------------------------------

/-- The number of the parameter a `?` takes that stands behind these expressions. -/
def markNumber (before : List Expr) : Nat := before.countP Expr.isPlaceholder

theorem bindRow_next (bound : List Value) (i : Nat) (exprs : List Expr) :
    (bindRow bound i exprs).2 = i + markNumber exprs := by
  induction exprs generalizing i with
  | nil => rfl
  | cons e rest ih =>
    rw [bindRow, markNumber, List.countP_cons, ← markNumber]
    split
    · rw [ih]
      omega
    · rw [ih]
      omega

/-- A cell of a bound row: a parameter, or the literal that stands there. -/
theorem getElem?_bindRow (bound : List Value) (i : Nat) (exprs : List Expr) (p : Nat) :
    (bindRow bound i exprs).1[p]? = exprs[p]?.map fun e =>
      if e.isPlaceholder then bound.getD (i + markNumber (exprs.take p)) .null
      else exprToValue e := by
  induction exprs generalizing i p with
  | nil => rfl
  | cons e rest ih =>
    cases p with
    | zero =>
      rw [bindRow]
      split
      · rename_i hMark
        simp only [List.getElem?_cons_zero, Option.map_some, if_pos hMark]
        rfl
      · rename_i hMark
        simp only [List.getElem?_cons_zero, Option.map_some, if_neg hMark]
    | succ p =>
      rw [bindRow, List.take_succ_cons, markNumber, List.countP_cons, ← markNumber]
      split
      · simp only [List.getElem?_cons_succ, ih]
        rw [Nat.add_assoc, Nat.add_comm 1]
      · simp only [List.getElem?_cons_succ, ih, Nat.add_zero]

theorem getElem?_bindRows (bound : List Value) (i : Nat) (rows : List (List Expr)) (r : Nat) :
    (bindRows bound i rows)[r]? = rows[r]?.map fun exprs =>
      (bindRow bound (i + markNumber (rows.take r).flatten) exprs).1 := by
  induction rows generalizing i r with
  | nil => rfl
  | cons exprs rest ih =>
    rw [bindRows]
    simp only []
    cases r with
    | zero => rfl
    | succ r =>
      rw [List.getElem?_cons_succ, ih, bindRow_next, List.getElem?_cons_succ, List.take_succ_cons,
        List.flatten_cons, markNumber, markNumber, markNumber, List.countP_append, Nat.add_assoc]

-- ---------------------------------------------------------------------------
-- SELECT of one column
-- ---------------------------------------------------------------------------

/-- `SELECT c FROM name`. -/
def columnFrom (c : Ident) (name : ObjectName) : Query :=
  .mk (.select (.mk none [.unnamedExpr (.identifier c)] [.mk (.table name []) []] none
    (.expressions []) none)) none none none

/-- The values of the column, row by row. -/
theorem select_columnFrom {env : QueryEnv} {dbName : Str} {c : Ident} {name : ObjectName} {t : Table}
    {p : Nat} (hThere : Store.table? env.databases
      (resolveName dbName (TableFactor.table name []).toString).1
      (resolveName dbName (TableFactor.table name []).toString).2 = some t)
    (hColumn : columnPosition t.columns c.value = some p) :
    select env dbName (columnFrom c name) =
      .ok (.valueRows [c.value] (t.rows.map fun row => [row[p]?.getD .null])) := by
  have hFound : ∀ noDb noTable : Str, findTable env.databases
      (resolveName dbName (TableFactor.table name []).toString).1
      (resolveName dbName (TableFactor.table name []).toString).2 noDb noTable = .ok t := by
    intro noDb noTable
    obtain ⟨d, hDb, hTable⟩ := Option.bind_eq_some_iff.1 hThere
    rw [findTable, hDb]
    simp only [hTable]
  have hCols : projCols t.columns [.unnamedExpr (.identifier c)] = [(c.value, p)] := by
    show [SelectItem.unnamedExpr (.identifier c)].filterMap (projCol t.columns) = _
    rw [List.filterMap_cons, projCol, hColumn]
    rfl
  have hTable : selectTable env.now t none [.unnamedExpr (.identifier c)] none (.expressions []) none
      none none none = .ok (.valueRows [c.value] (t.rows.map fun row => [row[p]?.getD .null])) := by
    show selectPlain env.now t none [.unnamedExpr (.identifier c)] none none none none = _
    rw [selectPlain, hCols]
    · cases t.pkColIdx <;> rfl
    · intro _ _ _ hWhere
      cases hWhere
  show selectFrom env dbName none none none (.mk none [.unnamedExpr (.identifier c)]
    [.mk (.table name []) []] none (.expressions []) none) = _
  rw [selectFrom]
  simp only [derivedSource, resolveSelection, pure_bind, TableWithJoins.joins, TableWithJoins.relation,
    List.isEmpty_nil, Bool.not_true, Bool.false_eq_true, if_false, hFound]
  exact hTable

-- ---------------------------------------------------------------------------
-- The row that was inserted
-- ---------------------------------------------------------------------------

/-- What a text is taken for and displayed as. -/
def ComesBackAs (s shown : Str) : Prop :=
  match parseI64 s with
  | some n => i64ToString n = shown
  | none =>
    match f64Parse s with
    | some f => f64ToString f = shown
    | none => s = shown

theorem comesBackAs_iff (s shown : Str) :
    (retype (some s)).toDisplay = some shown ↔ ComesBackAs s shown := by
  rw [retype, ComesBackAs]
  cases parseI64 s with
  | some n => exact Option.some_inj
  | none =>
    cases f64Parse s with
    | some f => exact Option.some_inj
    | none => exact Option.some_inj

/-- A text that is no number comes back as it is. -/
theorem ComesBackAs.of_no_number {s : Str} (hInt : parseI64 s = none) (hFloat : f64Parse s = none) :
    ComesBackAs s s := by
  rw [ComesBackAs, hInt, hFloat]

/-- A text that is an integer comes back as it is when it is the integer's own. -/
theorem comesBackAs_of_int {s : Str} {n : Int64} (hInt : parseI64 s = some n) :
    ComesBackAs s s ↔ s = i64ToString n := by
  rw [ComesBackAs, hInt]
  exact eq_comm

/-- The text shown for the expression at position `p` of a row of VALUES, with
these expressions in the rows before it. -/
def CellShows (ps : List SentParam) (before exprs : List Expr) (p : Nat) (shown : Str) : Prop :=
  match exprs[p]? with
  | none => False
  | some e =>
    if e.isPlaceholder then
      ∃ s, (ps[markNumber before + markNumber (exprs.take p)]?.bind SentParam.value) = some s ∧
        ComesBackAs s shown
    else (exprToValue e).toDisplay = some shown

theorem getD_bound (ps : List SentParam) (i : Nat) :
    ((ps.map SentParam.value).map bindParam).getD i .null =
      retype (ps[i]?.bind SentParam.value) := by
  rw [List.getD_eq_getElem?_getD, List.getElem?_map, List.getElem?_map]
  cases ps[i]? with
  | none => rfl
  | some p => rfl

theorem toDisplay_retype (value : Option Str) (shown : Str) :
    (retype value).toDisplay = some shown ↔ ∃ s, value = some s ∧ ComesBackAs s shown := by
  cases value with
  | none =>
    constructor
    · intro h
      cases h
    · rintro ⟨s, h, -⟩
      cases h
  | some s =>
    rw [comesBackAs_iff]
    exact ⟨fun h => ⟨s, rfl, h⟩, by rintro ⟨s', h, hBack⟩; rwa [Option.some.inj h]⟩

/-- The cell of the row that VALUES makes. -/
theorem cell_shows_iff (ps : List SentParam) {rows : List (List Expr)} {r : Nat} {exprs : List Expr}
    (hRow : rows[r]? = some exprs) (p : Nat) (shown : Str) :
    (((bindRows ((ps.map SentParam.value).map bindParam) 0 rows)[r]?.bind (·[p]?)).bind
        Value.toDisplay) = some shown ↔
      CellShows ps (rows.take r).flatten exprs p shown := by
  rw [getElem?_bindRows, hRow, Option.map_some, Option.bind_some, getElem?_bindRow, CellShows,
    Nat.zero_add]
  cases exprs[p]? with
  | none =>
    constructor
    · intro h
      cases h
    · intro h
      cases h
  | some e =>
    rw [Option.map_some, Option.bind_some]
    simp only []
    split
    · rw [getD_bound]
      exact toDisplay_retype ..
    · exact Iff.rfl

-- ---------------------------------------------------------------------------
-- The whole way
-- ---------------------------------------------------------------------------

/-- The text a client reads in row `i`, column `j` of a result. -/
def QueryResult.cell (result : QueryResult) (i j : Nat) : Option Str :=
  match result with
  | .rows _ texts => (texts[i]?.bind (·[j]?)).join
  | .valueRows _ values => (values[i]?.bind (·[j]?)).bind Value.toDisplay
  | _ => none

/-- Of the row `exprs` of VALUES the INSERT gives column `p` of the table the
expression at `j`: a `?` for which the string `s` is sent. -/
structure GivesColumn (ins : Insert) (cols : List Column) (ps : List SentParam)
    (before exprs : List Expr) (j p : Nat) (s : Str) : Prop where
  target : (ins.columns = [] ∧ j = p) ∨
    ∃ n, ins.columns[j]? = some n ∧ columnPosition cols n.value = some p
  mark : ∃ e, exprs[j]? = some e ∧ e.isPlaceholder = true
  param : ps[markNumber before + markNumber (exprs.take j)]? = some (.text s)

/-- In its own place the cell takes the string. -/
theorem GivesColumn.cellShows_iff {ins : Insert} {cols : List Column} {ps : List SentParam}
    {before exprs : List Expr} {p : Nat} {s : Str} (h : GivesColumn ins cols ps before exprs p p s)
    (shown : Str) : CellShows ps before exprs p shown ↔ ComesBackAs s shown := by
  obtain ⟨e, hAt, hMark⟩ := h.mark
  rw [CellShows, hAt]
  simp only [hMark, if_true, h.param, Option.bind_some, SentParam.value, Option.some.injEq]
  exact ⟨by rintro ⟨s', rfl, hBack⟩; exact hBack, fun hBack => ⟨s, rfl, hBack⟩⟩

/-- The engine with another table in a place. -/
def Engine.putTable (e : Engine) (db table : Str) (t : Table) : Engine :=
  { e with databases := Store.modifyTables e.databases db fun tables => tables.modify table fun _ => t }

theorem Engine.users_putTable (e : Engine) (db table : Str) (t : Table) :
    (e.putTable db table t).users = e.users := rfl

/-- A prepared INSERT of VALUES into a table that is there. -/
theorem exec_insertPrepared {q : Query} {rows : List (List Expr)} (hValues : q.body = .values rows)
    {dbName name : Str} {e : Engine} {t : Table}
    (hThere : Store.table? e.databases (resolveName dbName name).1 (resolveName dbName name).2 = some t)
    (bound : List Value) :
    ((insertPrepared dbName name (some q) bound).exec e).2 =
      e.putTable (resolveName dbName name).1 (resolveName dbName name).2
        (Trace.run Table.push t (bindRows bound 0 rows)) := by
  rw [insertPrepared]
  simp only [hValues]
  rw [exec_withTable, actOn_found hThere, exec_insertRowsPrepared]
  rfl

theorem privilegeCheck_read {users : HashMap Str DbUser} {userName : Str} {currentDb : Option Str}
    {stmts : List Statement} (h : privilegeCheck users userName currentDb stmts = none) (q : Query) :
    privilegeCheck users userName currentDb [.query q] = none := by
  rw [privilegeCheck] at h ⊢
  cases hUser : users.get userName with
  | none => rfl
  | some user =>
    rw [hUser] at h
    simp only at h ⊢
    split at h
    · cases h
    · show (if !user.canWrite && false then _ else _) = _
      rw [Bool.and_false]
      rfl

theorem columns_run_push (rows : List Row) (t : Table) :
    (Trace.run Table.push t rows).columns = t.columns := by
  induction rows generalizing t with
  | nil => rfl
  | cons row rows ih => exact ih (t.push row)

/-- **String parameters.** The SELECT of the column a string parameter is given
to shows the string in the row of the INSERT exactly when the column stands
where its `?` does and the text is no number of another text; or, in another
place, when what stands in that place happens to show it. -/
theorem stringParam_shown_iff {now now' : Nat} {sql sql' : Str} {currentDb : Option Str}
    {userName : Str} {e : Engine} {buf rest : Bytes} {seq : UInt8} {stmtId : Nat}
    {ps : List SentParam} {ins : Insert} {q : Query} {rows : List (List Expr)} {c : Ident}
    {name : ObjectName} {t : Table} {r j p : Nat} {exprs : List Expr} {s : Str}
    (hArrives : decodePacket buf = some (executePayload stmtId ps, seq, rest))
    (hParse : parseAnswer e sql = .ok [.insert ins]) (hSource : ins.source = some q)
    (hValues : q.body = .values rows)
    (hText : parseAnswer (e.parsed sql) sql' = .ok [.query (columnFrom c name)])
    (hOrdinary : Ordinary (toUppercase (trim sql')))
    (hAllowed : privilegeCheck e.users userName currentDb [.insert ins] = none)
    (hSame : resolveName (dbOrTest currentDb) (TableFactor.table name []).toString =
      resolveName (dbOrTest currentDb) ins.table.toString)
    (hThere : Store.table? e.databases (resolveName (dbOrTest currentDb) ins.table.toString).1
      (resolveName (dbOrTest currentDb) ins.table.toString).2 = some t)
    (hColumn : columnPosition t.columns c.value = some p) (hRow : rows[r]? = some exprs)
    (hGives : GivesColumn ins t.columns ps (rows.take r).flatten exprs j p s) :
    (((execute now' sql' currentDb userName).exec
        ((executePrepared now sql (parseExecuteParams (executePayload stmtId ps) ps.length)
          currentDb userName).exec e).2).1.map fun result => result.cell (t.rows.length + r) 0) =
        .ok (some s) ↔
      (j = p ∧ ComesBackAs s s) ∨ (j ≠ p ∧ CellShows ps (rows.take r).flatten exprs p s) := by
  have hDecoded := parseExecuteParams_executePayload (length_of_decodePacket hArrives)
  have hInserted : ((executePrepared now sql (ps.map SentParam.value) currentDb userName).exec e).2 =
      (e.parsed sql).putTable (resolveName (dbOrTest currentDb) ins.table.toString).1
        (resolveName (dbOrTest currentDb) ins.table.toString).2 (Trace.run Table.push t
          (bindRows ((ps.map SentParam.value).map bindParam) 0 rows)) := by
    rw [exec_executePrepared_one hParse, hAllowed]
    simp only [execStmtPrepared, hSource]
    exact exec_insertPrepared hValues (e := e.parsed sql) hThere _
  have hShown : CellShows ps (rows.take r).flatten exprs p s ↔
      (j = p ∧ ComesBackAs s s) ∨ (j ≠ p ∧ CellShows ps (rows.take r).flatten exprs p s) := by
    by_cases hPlace : j = p
    · subst hPlace
      rw [hGives.cellShows_iff]
      simp
    · simp [hPlace]
  rw [hDecoded, hInserted, ← hShown, ← cell_shows_iff ps hRow p s]
  generalize bindRows ((ps.map SentParam.value).map bindParam) 0 rows = pushed
  have hNew : Store.table? ((e.parsed sql).putTable
      (resolveName (dbOrTest currentDb) ins.table.toString).1
      (resolveName (dbOrTest currentDb) ins.table.toString).2 (Trace.run Table.push t pushed)).databases
      (resolveName (dbOrTest currentDb) (TableFactor.table name []).toString).1
      (resolveName (dbOrTest currentDb) (TableFactor.table name []).toString).2 =
        some (Trace.run Table.push t pushed) := by
    rw [hSame, Engine.putTable, table?_modifyTables, if_pos ⟨rfl, rfl⟩]
    exact (congrArg (Option.map fun _ => Trace.run Table.push t pushed) hThere).trans rfl
  have hColumn' : columnPosition (Trace.run Table.push t pushed).columns c.value = some p := by
    rw [columns_run_push]
    exact hColumn
  have hAfter := exec_execute_query ((shortcutOf_eq_none_iff _).2 hOrdinary)
    (e := (e.parsed sql).putTable (resolveName (dbOrTest currentDb) ins.table.toString).1
      (resolveName (dbOrTest currentDb) ins.table.toString).2 (Trace.run Table.push t pushed))
    hText now' currentDb userName
  rw [Engine.users_putTable, show (e.parsed sql).users = e.users from rfl,
    privilegeCheck_read hAllowed] at hAfter
  simp only [] at hAfter
  rw [hAfter]
  rw [select_columnFrom hNew hColumn', rows_run_push, Except.map, QueryResult.cell, Except.ok.injEq,
    List.getElem?_map, List.getElem?_append_right (Nat.le_add_right ..), Nat.add_sub_cancel_left]
  cases pushed[r]? with
  | none => exact Iff.rfl
  | some row =>
    simp only [Option.map_some, Option.bind_some, List.getElem?_cons_zero]
    cases row[p]? with
    | none => exact Iff.rfl
    | some v => exact Iff.rfl

end StringParams

-- ---------------------------------------------------------------------------
-- Texts that are numbers
-- ---------------------------------------------------------------------------

section Numbers

set_option maxRecDepth 2000

/-- `INSERT INTO t VALUES (?, ?)` -/
def insertTwoMarks : Insert where
  table := .tableName [⟨"t", none⟩]
  columns := []
  source := some (.mk (.values [[.value (.placeholder "?"), .value (.placeholder "?")]]) none none none)
  replaceInto := false

local instance stringParamsPlatform : Platform := tablePlatform
  [("INSERT INTO t VALUES (?, ?)", [.insert insertTwoMarks]),
    ("SELECT c FROM t", [.query (columnFrom ⟨"c", none⟩ [⟨"t", none⟩])])]

/-- `CREATE TABLE t (a INT, c VARCHAR(255))` without rows. -/
def textTable : Table :=
  Table.create "test" "t" [⟨"a", .int, true, false⟩, ⟨"c", .varChar 255, true, false⟩] []

/-- A TINY 1 and a string. -/
def oneAndText (s : Str) : List SentParam := [.tiny 1, .text s]

/-- The second `?` is for the second column. -/
theorem givesColumn_oneAndText (s : Str) :
    GivesColumn insertTwoMarks textTable.columns (oneAndText s) []
      [.value (.placeholder "?"), .value (.placeholder "?")] 1 1 s where
  target := .inl ⟨rfl, rfl⟩
  mark := ⟨_, rfl, rfl⟩
  param := rfl

/-- A text that is no number. -/
theorem stringParam_shown_iff_abc :
    (((execute 0 "SELECT c FROM t" none "root").exec
        ((executePrepared 0 "INSERT INTO t VALUES (?, ?)"
          (parseExecuteParams (executePayload 1 (oneAndText "abc")) 2) none "root").exec
            (Engine.ofTable textTable)).2).1.map fun result => result.cell 0 0) =
      .ok (some ("abc" : Str)) := by
  have hShort : (executePayload 1 (oneAndText "abc")).length < 2 ^ 24 := by decide +kernel
  have hArrives := decodePacket_encodePacket hShort 0 []
  have hOther : hashQuery "SELECT c FROM t" ≠ hashQuery "INSERT INTO t VALUES (?, ?)" := by
    decide +kernel
  have hText : parseAnswer ((Engine.ofTable textTable).parsed "INSERT INTO t VALUES (?, ?)")
      "SELECT c FROM t" = .ok [.query (columnFrom ⟨"c", none⟩ [⟨"t", none⟩])] := by
    rw [parseAnswer_uncached]
    · rfl
    · show (HashMap.insert HashMap.empty (hashQuery "INSERT INTO t VALUES (?, ?)") _).get _ = none
      rw [HashMap.get_insert, if_neg hOther]
      rfl
  exact (stringParam_shown_iff (r := 0) hArrives rfl rfl rfl hText
    ((shortcutOf_eq_none_iff _).1 (by decide +kernel)) rfl rfl rfl rfl rfl
    (givesColumn_oneAndText "abc")).2 (.inl ⟨rfl, .of_no_number rfl rfl⟩)

/-- `007` is the integer 7. -/
theorem not_stringParam_shown :
    ¬ ∀ (s : Str), decodePacket (encodePacket (executePayload 1 (oneAndText s)) 0) =
        some (executePayload 1 (oneAndText s), 0, []) →
      (((execute 0 "SELECT c FROM t" none "root").exec
          ((executePrepared 0 "INSERT INTO t VALUES (?, ?)"
            (parseExecuteParams (executePayload 1 (oneAndText s)) 2) none "root").exec
              (Engine.ofTable textTable)).2).1.map fun result => result.cell 0 0) = .ok (some s) := by
  intro hAll
  have hSame := hAll "007" (by decide +kernel)
  revert hSame
  decide +kernel

end Numbers

end RunAlexDb
