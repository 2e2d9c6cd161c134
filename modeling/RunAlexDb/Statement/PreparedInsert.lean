import RunAlexDb.Query.Placeholders
import RunAlexDb.Statement.PreparedText
import RunAlexDb.Store.RowKeys

/-!
# PreparedInsert — INSERT with parameters and its text

`insert_prepared` pushes the rows of VALUES as they stand. It reads neither the
column list nor REPLACE, moves no `next_auto` and keeps no last insert id; its
errors have other texts, and it looks the table up by another reading of the
name. It is compared with the INSERT in which the `?` are replaced by literals.

Main result: `insertPrepared_iff`.
-/

set_option linter.unusedSectionVars false

namespace RunAlexDb

open Text Platform

section PreparedInsert

variable [Platform]

-- ---------------------------------------------------------------------------
-- Rows that push nothing away
-- ---------------------------------------------------------------------------

/-- `next_auto` behind the key cell of an inserted row. -/
def passKey (auto : Int64) : Option Value → Int64
  | some (.int n) => if auto ≤ n then n + 1 else auto
  | _ => auto

theorem nextAuto_advanceAuto (t : Table) (row : Row) :
    (t.advanceAuto row).nextAuto = passKey t.nextAuto (t.pkColIdx.bind (row[·]?)) := by
  rw [Table.advanceAuto]
  split
  · rename_i n hKey
    rw [hKey, passKey]
    split <;> rfl
  · rename_i hKey
    rw [passKey]
    exact hKey

/-- The rows that source rows make, each in the order of the columns, with
`auto` the next automatic value; and the automatic value behind them. -/
def layOut (names : List Str) (cols : List Column) (pk : Option Nat) :
    Int64 → List Row → List Row × Int64
  | auto, [] => ([], auto)
  | auto, src :: rest =>
    let (row, next) :=
      if names.isEmpty || cols.isEmpty then (src, auto) else mapRow names src cols auto
    let (rows, last) := layOut names cols pk (passKey next (pk.bind (row[·]?))) rest
    (row :: rows, last)

/-- The row of the source row goes in without another one going. -/
def GoesIn (replaceInto : Bool) (names : List Str) (t : Table) (src : Row) : Prop :=
  (if replaceInto then t.replaced (t.sourceRow names src).1 else none) = none

/-- The table after such a row. -/
def Table.tookIn (t : Table) (names : List Str) (src : Row) : Table :=
  (Table.advanceAuto { t with nextAuto := (t.sourceRow names src).2 } (t.sourceRow names src).1).push
    (t.sourceRow names src).1

theorem insertStep_goesIn {replaceInto : Bool} {names : List Str} {t : Table} {src : Row}
    (h : GoesIn replaceInto names t src) : insertStep replaceInto names t src = t.tookIn names src := by
  rw [insertStep_eq]
  simp only
  rw [show (if replaceInto then t.replaced (t.sourceRow names src).1 else none) = none from h]
  rfl

theorem exec_insertRow_goesIn {replaceInto : Bool} {names : List Str} {t : Table} {src : Row}
    (h : GoesIn replaceInto names t src) :
    (insertRow replaceInto names src).exec t = (.ok (), t.tookIn names src) := by
  rw [Table.tookIn, insertRow, Prog.exec_get_bind, ← Table.sourceRow]
  rw [GoesIn] at h
  rcases hSource : t.sourceRow names src with ⟨row, next⟩
  rw [hSource] at h
  simp only [Prog.exec_set_bind]
  cases replaceInto with
  | false => rfl
  | true =>
    simp only [if_true, Table.replaced] at h
    simp only [if_true, Prog.exec_bind, replaceExisting, Prog.exec_get]
    cases hPk : t.pkColIdx with
    | none => rfl
    | some p =>
      rw [hPk, Option.bind_some, Option.map_eq_none_iff] at h
      simp only [h]
      rfl

theorem tookIn_eq (t : Table) (names : List Str) (src : Row) :
    t.tookIn names src =
      { t.push (t.sourceRow names src).1 with
        nextAuto := passKey (t.sourceRow names src).2
          (t.pkColIdx.bind ((t.sourceRow names src).1[·]?)) } := by
  rw [Table.tookIn, advanceAuto_eq, nextAuto_advanceAuto]
  rfl

/-- A row more, or one for another. -/
theorem length_insertStep (replaceInto : Bool) (names : List Str) (t : Table) (src : Row) :
    (GoesIn replaceInto names t src ∧
        (insertStep replaceInto names t src).rows.length = t.rows.length + 1) ∨
      (¬GoesIn replaceInto names t src ∧
        (insertStep replaceInto names t src).rows.length = t.rows.length) := by
  by_cases hIn : GoesIn replaceInto names t src
  · refine .inl ⟨hIn, ?_⟩
    rw [insertStep_goesIn hIn, tookIn_eq]
    exact List.length_append
  · refine .inr ⟨hIn, ?_⟩
    rw [insertStep_eq]
    simp only
    rw [GoesIn] at hIn
    cases hReplaced : (if replaceInto then t.replaced (t.sourceRow names src).1 else none) with
    | none => exact absurd hReplaced hIn
    | some pi =>
      obtain ⟨p, i⟩ := pi
      simp only
      split
      · rename_i hLt
        rw [advanceAuto_eq]
        show ((t.rows.eraseIdx i) ++ [_]).length = _
        rw [List.length_append, List.length_eraseIdx_of_lt hLt, List.length_singleton]
        omega
      · rfl

/-- As many rows more as there are source rows: each of them went in. -/
theorem goesIn_of_length {replaceInto : Bool} {names : List Str} {srcs : List Row} {t : Table}
    (h : t.rows.length + srcs.length ≤
      ((Prog.forEach (insertRow replaceInto names) srcs).exec t).2.rows.length) :
    Trace.Along (insertStep replaceInto names) (GoesIn replaceInto names) t srcs := by
  have hRun : ∀ (done : List Row) (t : Table),
      (Trace.run (insertStep replaceInto names) t done).rows.length ≤ t.rows.length + done.length ∧
        (t.rows.length + done.length ≤
            (Trace.run (insertStep replaceInto names) t done).rows.length →
          Trace.Along (insertStep replaceInto names) (GoesIn replaceInto names) t done) := by
    intro done
    induction done with
    | nil => exact fun t => ⟨Nat.le_refl _, fun _ => trivial⟩
    | cons src done ih =>
      intro t
      obtain ⟨hBound, hAll⟩ := ih (insertStep replaceInto names t src)
      have hStep := length_insertStep replaceInto names t src
      rw [Trace.run_cons, List.length_cons]
      refine ⟨by omega, fun hLe => ?_⟩
      rcases hStep with ⟨hIn, hLength⟩ | ⟨-, hLength⟩
      · exact ⟨hIn, hAll (by omega)⟩
      · exfalso
        omega
  obtain ⟨done, ⟨rest, hDone⟩, hEq⟩ := Prog.exec_forEach (insertRow replaceInto names) srcs t
  have hSame : ((Prog.forEach (insertRow replaceInto names) srcs).exec t).2 =
      Trace.run (insertStep replaceInto names) t done := hEq
  obtain ⟨hBound, hAll⟩ := hRun done t
  have hLength := congrArg List.length hDone
  rw [hSame] at h
  rw [List.length_append] at hLength
  have hRest : rest = [] := List.eq_nil_of_length_eq_zero (by omega)
  rw [hRest, List.append_nil] at hDone
  rw [← hDone]
  exact hAll (by omega)

theorem run_push_nextAuto (rows : List Row) (t : Table) (auto : Int64) :
    Trace.run Table.push { t with nextAuto := auto } rows =
      { Trace.run Table.push t rows with nextAuto := auto } := by
  induction rows generalizing t with
  | nil => rfl
  | cons row rows ih => exact ih (t.push row)

/-- When each of them goes in, the rows are pushed as they are laid out. -/
theorem exec_insertRows_goesIn {replaceInto : Bool} {names : List Str} {srcs : List Row} {t : Table}
    (h : Trace.Along (insertStep replaceInto names) (GoesIn replaceInto names) t srcs) :
    (Prog.forEach (insertRow replaceInto names) srcs).exec t =
      (.ok (), { Trace.run Table.push t (layOut names t.columns t.pkColIdx t.nextAuto srcs).1 with
        nextAuto := (layOut names t.columns t.pkColIdx t.nextAuto srcs).2 }) := by
  induction srcs generalizing t with
  | nil => rfl
  | cons src srcs ih =>
    obtain ⟨hIn, hRest⟩ := h
    rw [insertStep_goesIn hIn] at hRest
    rw [Prog.forEach, Prog.exec_bind_ok (exec_insertRow_goesIn hIn), ih hRest, tookIn_eq,
      run_push_nextAuto]
    rfl

theorem rows_run_push (rows : List Row) (t : Table) :
    (Trace.run Table.push t rows).rows = t.rows ++ rows := by
  induction rows generalizing t with
  | nil => exact (List.append_nil _).symm
  | cons row rows ih =>
    rw [Trace.run_cons, ih]
    exact List.append_assoc t.rows [row] rows

theorem nextAuto_run_push (rows : List Row) (t : Table) :
    (Trace.run Table.push t rows).nextAuto = t.nextAuto := by
  induction rows generalizing t with
  | nil => rfl
  | cons row rows ih => exact ih (t.push row)

theorem pkColIdx_run_push (rows : List Row) (t : Table) :
    (Trace.run Table.push t rows).pkColIdx = t.pkColIdx := by
  induction rows generalizing t with
  | nil => rfl
  | cons row rows ih => exact ih (t.push row)

/-- No two of the rows have a key in common, and the index has none of theirs. -/
def FreeKeys (t : Table) (p : Nat) (rows : List Row) : Prop :=
  (rows.map (rowPkKey · p)).Nodup ∧ ∀ k ∈ rows.map (rowPkKey · p), t.pkIndex.get k = none

theorem freeKeys_cons {t : Table} {p : Nat} (hPk : t.pkColIdx = some p) (row : Row) (rows : List Row) :
    FreeKeys t p (row :: rows) ↔
      t.pkIndex.get (rowPkKey row p) = none ∧ FreeKeys (t.push row) p rows := by
  simp only [FreeKeys, List.map_cons, List.nodup_cons, List.forall_mem_cons, pkIndex_push hPk,
    HashMap.get_insert]
  constructor
  · rintro ⟨⟨hNot, hNodup⟩, hFree, hRest⟩
    refine ⟨hFree, hNodup, fun k hk => ?_⟩
    rw [if_neg fun hEq : k = rowPkKey row p => hNot (hEq ▸ hk)]
    exact hRest k hk
  · rintro ⟨hFree, hNodup, hRest⟩
    have hNe : ∀ k ∈ rows.map (rowPkKey · p), k ≠ rowPkKey row p := by
      rintro k hk rfl
      have hSome := hRest _ hk
      rw [if_pos rfl] at hSome
      cases hSome
    refine ⟨⟨fun hIn => hNe _ hIn rfl, hNodup⟩, hFree, fun k hk => ?_⟩
    have hNone := hRest k hk
    rwa [if_neg (hNe k hk)] at hNone

/-- REPLACE finds room when the keys are free; INSERT does not look. -/
theorem goesIn_iff {replaceInto : Bool} {names : List Str} {srcs : List Row} {t : Table} :
    Trace.Along (insertStep replaceInto names) (GoesIn replaceInto names) t srcs ↔
      (replaceInto = true → ∀ p, t.pkColIdx = some p →
        FreeKeys t p (layOut names t.columns t.pkColIdx t.nextAuto srcs).1) := by
  induction srcs generalizing t with
  | nil => exact iff_of_true trivial fun _ p _ => ⟨List.nodup_nil, fun k hk => absurd hk List.not_mem_nil⟩
  | cons src srcs ih =>
    have hHead : (layOut names t.columns t.pkColIdx t.nextAuto (src :: srcs)).1 =
        (t.sourceRow names src).1 :: (layOut names (t.tookIn names src).columns
          (t.tookIn names src).pkColIdx (t.tookIn names src).nextAuto srcs).1 := by
      rw [tookIn_eq]
      rfl
    have hFirst : GoesIn replaceInto names t src ↔ (replaceInto = true → ∀ p, t.pkColIdx = some p →
        t.pkIndex.get (rowPkKey (t.sourceRow names src).1 p) = none) := by
      rw [GoesIn]
      cases replaceInto with
      | false => simp
      | true =>
        rw [if_pos rfl, Table.replaced]
        cases t.pkColIdx <;> simp
    have hTook : (t.tookIn names src).pkColIdx = t.pkColIdx := by
      rw [tookIn_eq]
      rfl
    have hFree : ∀ p rows, FreeKeys (t.tookIn names src) p rows ↔
        FreeKeys (t.push (t.sourceRow names src).1) p rows := by
      intro p rows
      rw [tookIn_eq]
      rfl
    rw [hHead]
    constructor
    · rintro ⟨hIn, hRest⟩ hReplace p hPk
      rw [insertStep_goesIn hIn] at hRest
      exact (freeKeys_cons hPk _ _).2 ⟨hFirst.1 hIn hReplace p hPk,
        (hFree p _).1 (ih.1 hRest hReplace p (hTook.trans hPk))⟩
    · intro h
      have hIn : GoesIn replaceInto names t src :=
        hFirst.2 fun hReplace p hPk => ((freeKeys_cons hPk _ _).1 (h hReplace p hPk)).1
      refine ⟨hIn, ?_⟩
      rw [insertStep_goesIn hIn]
      exact ih.2 fun hReplace p hPk => (hFree p _).2
        ((freeKeys_cons (hTook.symm.trans hPk) _ _).1 (h hReplace p (hTook.symm.trans hPk))).2

-- ---------------------------------------------------------------------------
-- One table
-- ---------------------------------------------------------------------------

/-- The last insert id of rows: the key of the last one when it is an integer,
else 0. -/
def lastKeyOf (pk : Option Nat) (rows : List Row) : UInt64 :=
  match pk.bind fun p => rows.getLast?.bind fun r => r[p]? with
  | some (.int n) => n.toUInt64
  | _ => 0

/-- When INSERT of `srcs` and the pushing of `rows` are the same to a table. -/
structure TakenAlike (t : Table) (replaceInto : Bool) (names : List Str) (srcs rows : List Row) :
    Prop where
  /-- By the column list and `next_auto` the source rows make the pushed rows,
  and `next_auto` ends where it was. -/
  laidOut : layOut names t.columns t.pkColIdx t.nextAuto srcs = (rows, t.nextAuto)
  /-- REPLACE has nothing to replace. -/
  free : replaceInto = true → ∀ p, t.pkColIdx = some p → FreeKeys t p rows
  /-- There is no insert id to report. -/
  unkeyed : lastKeyOf t.pkColIdx rows = 0

theorem lastKey_run_push {rows : List Row} (hRows : rows ≠ []) (t : Table) (auto : Int64) :
    Table.lastKey { Trace.run Table.push t rows with nextAuto := auto } =
      lastKeyOf t.pkColIdx rows := by
  have hLast : (t.rows ++ rows).getLast? = rows.getLast? := by
    rw [List.getLast?_append, List.getLast?_eq_some_getLast hRows]
    rfl
  show lastKeyOf (Trace.run Table.push t rows).pkColIdx (Trace.run Table.push t rows).rows = _
  rw [pkColIdx_run_push, rows_run_push, lastKeyOf, hLast]
  rfl

theorem exec_insertRows_alike {t : Table} {replaceInto : Bool} {names : List Str}
    {srcs rows : List Row} (h : TakenAlike t replaceInto names srcs rows) (hRows : rows ≠ [])
    (hLength : srcs.length = rows.length) :
    (insertRows replaceInto names srcs).exec t = (insertRowsPrepared rows).exec t := by
  have hAlong : Trace.Along (insertStep replaceInto names) (GoesIn replaceInto names) t srcs := by
    refine goesIn_iff.2 fun hReplace p hPk => ?_
    rw [h.laidOut]
    exact h.free hReplace p hPk
  have hLoop := exec_insertRows_goesIn hAlong
  rw [h.laidOut] at hLoop
  have hKey := (lastKey_run_push hRows t t.nextAuto).trans h.unkeyed
  have hTable : { Trace.run Table.push t rows with nextAuto := t.nextAuto } =
      Trace.run Table.push t rows := by
    rw [← run_push_nextAuto]
  rw [hTable] at hLoop hKey
  rw [insertRows, Prog.exec_bind_ok hLoop, Prog.exec_get_bind, Prog.exec_pure,
    exec_insertRowsPrepared, hKey, hLength]

/-- What the two leave tells how the rows went in. -/
theorem alike_of_insertRows {t t' : Table} {replaceInto : Bool} {names : List Str}
    {srcs rows : List Row} {count : UInt64} (hRows : rows ≠ []) (hLength : srcs.length = rows.length)
    (hText : (insertRows replaceInto names srcs).exec t = (.ok (.ok count 0), t'))
    (hTable : t' = Trace.run Table.push t rows) : TakenAlike t replaceInto names srcs rows := by
  have hLoop : ((Prog.forEach (insertRow replaceInto names) srcs).exec t).2 = t' := by
    rw [insertRows, Prog.exec_bind] at hText
    rcases hRun : (Prog.forEach (insertRow replaceInto names) srcs).exec t with ⟨_ | _, t₁⟩ <;>
      rw [hRun] at hText
    · cases hText
    · exact congrArg Prod.snd hText
  have hAlong : Trace.Along (insertStep replaceInto names) (GoesIn replaceInto names) t srcs := by
    refine goesIn_of_length ?_
    rw [hLoop, hTable, rows_run_push, List.length_append, hLength]
  have hGoes := exec_insertRows_goesIn hAlong
  rw [hGoes] at hLoop
  have hNext := congrArg Table.nextAuto (hLoop.trans hTable)
  have hAll := congrArg Table.rows (hLoop.trans hTable)
  simp only [nextAuto_run_push, rows_run_push] at hNext hAll
  have hLaid : layOut names t.columns t.pkColIdx t.nextAuto srcs = (rows, t.nextAuto) :=
    Prod.ext (List.append_cancel_left hAll) hNext
  refine ⟨hLaid, fun hReplace p hPk => ?_, ?_⟩
  · have hFree := goesIn_iff.1 hAlong hReplace p hPk
    rwa [hLaid] at hFree
  · rw [insertRows, Prog.exec_bind_ok hGoes, Prog.exec_get_bind, Prog.exec_pure, hLaid,
      lastKey_run_push hRows] at hText
    exact (QueryResult.ok.inj (Except.ok.inj (congrArg Prod.fst hText))).2

-- ---------------------------------------------------------------------------
-- The two statements
-- ---------------------------------------------------------------------------

/-- A row of VALUES with its `?` replaced by literals from parameter `i` on. -/
def literalRow (literal : Value → Expr) (bound : List Value) : Nat → List Expr → List Expr × Nat
  | i, [] => ([], i)
  | i, e :: rest =>
    if e.isPlaceholder then
      let (row, next) := literalRow literal bound (i + 1) rest
      (literal (bound.getD i .null) :: row, next)
    else
      let (row, next) := literalRow literal bound i rest
      (e :: row, next)

def literalRows (literal : Value → Expr) (bound : List Value) :
    Nat → List (List Expr) → List (List Expr)
  | _, [] => []
  | i, exprs :: rest =>
    let (row, next) := literalRow literal bound i exprs
    row :: literalRows literal bound next rest

/-- The statement of the text: in VALUES every `?` is the literal of its value. -/
def Insert.withLiterals (literal : Value → Expr) (bound : List Value) (ins : Insert) : Insert :=
  { ins with
    source := ins.source.map fun q =>
      match q with
      | .mk (.values rows) orderBy limit offset =>
        .mk (.values (literalRows literal bound 0 rows)) orderBy limit offset
      | q => q }

/-- The source rows of the text. -/
def textSources (literal : Value → Expr) (bound : List Value) (rows : List (List Expr)) : List Row :=
  (literalRows literal bound 0 rows).map fun exprs => exprs.map exprToValue

theorem length_literalRows (literal : Value → Expr) (bound : List Value) (i : Nat)
    (rows : List (List Expr)) : (literalRows literal bound i rows).length = rows.length := by
  induction rows generalizing i with
  | nil => rfl
  | cons exprs rest ih =>
    rw [literalRows, List.length_cons, List.length_cons, ih]

theorem length_bindRows (bound : List Value) (i : Nat) (rows : List (List Expr)) :
    (bindRows bound i rows).length = rows.length := by
  induction rows generalizing i with
  | nil => rfl
  | cons exprs rest ih =>
    rw [bindRows, List.length_cons, List.length_cons, ih]

/-- A name that both read alike: it has a dot, or no quotes around it. -/
def PlainName (name : Str) : Prop := (splitOnce '.' name).isSome = true ∨ trimMatches '`' name = name

theorem resolveName_eq_iff (dbName name : Str) :
    resolveName dbName name = insertTarget dbName name ↔ PlainName name := by
  rw [resolveName, insertTarget, PlainName]
  cases splitOnce '.' name with
  | some parts => simp
  | none => simp

/-- When `insert_prepared` does what the text's INSERT does: the name is plain,
the table is there and takes the rows alike, and the last insert id is 0. -/
structure InsertsAlike (s : Store) (lastInsertId : UInt64) (dbName : Str) (ins : Insert)
    (srcs rows : List Row) : Prop where
  name : PlainName ins.table.toString
  table : ∃ t, s.table? (insertTarget dbName ins.table.toString).1
    (insertTarget dbName ins.table.toString).2 = some t ∧
      TakenAlike t ins.replaceInto (ins.columns.map Ident.value) srcs rows
  lastInsertId : lastInsertId = 0

/-- The last insert id after an INSERT with the given result. -/
def idAfter (lastInsertId : UInt64) : Except Fault QueryResult → UInt64
  | .ok (.ok _ k) => k
  | _ => lastInsertId

theorem outcome_insertPrepared {q : Query} {rows : List (List Expr)} (hValues : q.body = .values rows)
    (bound : List Value) (dbName name : Str) (e : Engine) :
    outcome ((insertPrepared dbName name (some q) bound).exec e) =
      let a := actOn e.databases (resolveName dbName name).1 (resolveName dbName name).2
        "Unknown database" "Table not found" (insertRowsPrepared (bindRows bound 0 rows))
      (a.1, a.2, e.lastInsertId) := by
  rw [insertPrepared]
  simp only [hValues]
  rcases resolveName dbName name with ⟨db, table⟩
  simp only []
  rw [exec_withTable]
  rfl

/-- INSERT reports OK or does not return. -/
theorem insertRows_result (replaceInto : Bool) (names : List Str) (srcs : List Row) (t : Table) :
    (∃ fault, ((insertRows replaceInto names srcs).exec t).1 = .error fault) ∨
      ∃ count k, ((insertRows replaceInto names srcs).exec t).1 = .ok (.ok count k) := by
  rw [insertRows, Prog.exec_bind]
  rcases (Prog.forEach (insertRow replaceInto names) srcs).exec t with ⟨fault | _, t'⟩
  · exact .inl ⟨fault, rfl⟩
  · exact .inr ⟨_, _, rfl⟩

theorem outcome_insert_values {q : Query} {rows : List (List Expr)} (hValues : q.body = .values rows)
    (now : Nat) (replaceInto : Bool) (names : List Str) (dbName name : Str) (e : Engine) :
    outcome ((insert now dbName name (some q) replaceInto names).exec e) =
      let target := insertTarget dbName name
      let b := actOn e.databases target.1 target.2 (unknownDatabase target.1)
        (unknownTable (target.1 ++ "." ++ target.2))
        (insertRows replaceInto names (rows.map fun exprs => exprs.map exprToValue))
      (b.1, b.2, idAfter e.lastInsertId b.1) := by
  rw [insert]
  rcases insertTarget dbName name with ⟨db, table⟩
  have hSource : (sourceRows now db table q).exec e =
      (.ok (.ok (rows.map fun exprs => exprs.map exprToValue)), e) := by
    rw [sourceRows, hValues]
    rfl
  simp only []
  rw [Prog.exec_bind_ok hSource]
  simp only []
  rw [Prog.exec_bind, exec_withTable]
  rcases actOn_cases e.databases db table (unknownDatabase db) (unknownTable (db ++ "." ++ table))
    (insertRows replaceInto names (rows.map fun exprs => exprs.map exprToValue)) with
    ⟨-, hMissing | hMissing⟩ | ⟨t, -, hFound⟩
  · rw [hMissing]
    rfl
  · rw [hMissing]
    rfl
  · rw [hFound]
    rcases insertRows_result replaceInto names (rows.map fun exprs => exprs.map exprToValue) t with
      ⟨fault, hResult⟩ | ⟨count, k, hResult⟩
    · rw [hResult]
      rfl
    · rw [hResult]
      rfl

theorem reportsNoError_insertRows (replaceInto : Bool) (names : List Str) (srcs : List Row) :
    ReportsNoError (insertRows replaceInto names srcs) := by
  intro t r hResult
  rcases insertRows_result replaceInto names srcs t with ⟨fault, hError⟩ | ⟨count, k, hOk⟩
  · rw [hError] at hResult
    cases hResult
  · rw [hOk] at hResult
    cases hResult
    rfl

theorem reportsNoError_insertRowsPrepared (rows : List Row) :
    ReportsNoError (insertRowsPrepared rows) := by
  intro t r hResult
  rw [exec_insertRowsPrepared] at hResult
  cases hResult
  rfl

theorem unknownDatabase_ne (db : Str) : ("Unknown database" : Str) ≠ unknownDatabase db := by
  intro h
  have hNext := congrArg (fun s : Str => s.drop 16) h
  exact absurd hNext (by intro hNil; cases hNil)

theorem unknownTable_ne (name : Str) : ("Table not found" : Str) ≠ unknownTable name := by
  intro h
  have hSeventh := congrArg (fun s : Str => s[6]?) h
  have hQuote : (unknownTable name)[6]? = some '\'' := rfl
  simp only [hQuote] at hSeventh
  exact absurd hSeventh (by decide)

/-- **One INSERT** of at least one row. -/
theorem outcomes_insert_iff {s : Store} {lastInsertId : UInt64} {dbName : Str} {ins : Insert}
    {srcs rows : List Row} (hRows : rows ≠ []) (hLength : srcs.length = rows.length)
    {a b : Except Fault QueryResult × Store}
    (hPrepared : a = actOn s (resolveName dbName ins.table.toString).1
      (resolveName dbName ins.table.toString).2 "Unknown database" "Table not found"
      (insertRowsPrepared rows))
    (hText : b = actOn s (insertTarget dbName ins.table.toString).1
      (insertTarget dbName ins.table.toString).2
      (unknownDatabase (insertTarget dbName ins.table.toString).1)
      (unknownTable ((insertTarget dbName ins.table.toString).1 ++ "." ++
        (insertTarget dbName ins.table.toString).2))
      (insertRows ins.replaceInto (ins.columns.map Ident.value) srcs)) :
    (a.1, a.2, lastInsertId) = (b.1, b.2, idAfter lastInsertId b.1) ↔
      InsertsAlike s lastInsertId dbName ins srcs rows := by
  constructor
  · intro h
    simp only [Prod.mk.injEq] at h
    obtain ⟨hResult, hStores, hId⟩ := h
    have hSame : a = b := Prod.ext hResult hStores
    rw [hPrepared, hText] at hSame
    obtain ⟨t, t', hThere, hThere', hReport, hStore⟩ := actOn_eq_found
      (reportsNoError_insertRowsPrepared _) (reportsNoError_insertRows _ _ _) (unknownDatabase_ne _)
      (unknownTable_ne _) hSame
    rw [exec_insertRowsPrepared] at hReport hStore
    have hGrows : Trace.run Table.push t rows ≠ t := by
      intro hStays
      have hAll := congrArg Table.rows hStays
      rw [rows_run_push] at hAll
      exact hRows (List.append_cancel_left (hAll.trans (List.append_nil _).symm))
    obtain ⟨⟨hDb, hTable⟩, hLeft⟩ := modifyTables_inj hThere hGrows hStore
    have hOne : t' = t := by
      rw [← hDb, ← hTable, hThere] at hThere'
      exact (Option.some.inj hThere').symm
    subst hOne
    have hZero : lastInsertId = 0 := by
      rw [hText, actOn_found hThere', ← hReport] at hId
      exact hId
    refine ⟨(resolveName_eq_iff _ _).1 (Prod.ext hDb hTable), ⟨t', hThere', ?_⟩, hZero⟩
    exact alike_of_insertRows hRows hLength (Prod.ext hReport.symm hLeft.symm) rfl
  · rintro ⟨hName, ⟨t, hThere, hAlike⟩, rfl⟩
    have hThere' := hThere
    rw [← (resolveName_eq_iff _ _).2 hName] at hThere'
    have hSame : a = b := by
      rw [hPrepared, hText, actOn_found hThere, actOn_found hThere',
        exec_insertRows_alike hAlike hRows hLength, (resolveName_eq_iff _ _).2 hName]
    have hId : idAfter 0 b.1 = 0 := by
      rw [hText, actOn_found hThere, exec_insertRows_alike hAlike hRows hLength,
        exec_insertRowsPrepared]
      rfl
    rw [hSame, hId]

/-- An INSERT asks for the same rights with and without `?`. -/
theorem privilegeCheck_insert (users : HashMap Str DbUser) (userName : Str) (currentDb : Option Str)
    (ins ins' : Insert) :
    privilegeCheck users userName currentDb [.insert ins] =
      privilegeCheck users userName currentDb [.insert ins'] := by
  rfl

/-- No answer of a prepared INSERT is a built-in one. -/
theorem not_builtin_insertPrepared {q : Query} {rows : List (List Expr)}
    (hValues : q.body = .values rows) (hRows : UInt64.ofNat rows.length ≠ 0) (bound : List Value)
    (dbName name : Str) (e : Engine) :
    ∃ r, (outcome ((insertPrepared dbName name (some q) bound).exec e)).1 = .ok r ∧
      ¬BuiltinAnswer r := by
  rw [outcome_insertPrepared hValues]
  rcases actOn_cases e.databases (resolveName dbName name).1 (resolveName dbName name).2
    "Unknown database" "Table not found" (insertRowsPrepared (bindRows bound 0 rows)) with
    ⟨-, hMissing | hMissing⟩ | ⟨t, -, hFound⟩
  · refine ⟨_, congrArg Prod.fst hMissing, ?_⟩
    rintro (hCode | hCode | hCode) <;> cases hCode
  · refine ⟨_, congrArg Prod.fst hMissing, ?_⟩
    rintro (hCode | hCode | hCode) <;> cases hCode
  · rw [exec_insertRowsPrepared] at hFound
    refine ⟨_, congrArg Prod.fst hFound, ?_⟩
    rintro ⟨hNone, -⟩
    rw [length_bindRows] at hNone
    exact hRows hNone

/-- **Prepared INSERTs.** For every state, user, database, parameter list and
reading of the literals: a prepared INSERT or REPLACE of VALUES gives the result
of the text and leaves its databases and last insert id exactly when the text
reaches the parser and either the user is refused, or the name is plain, the
table is there and takes the rows alike, and the last insert id was 0. -/
theorem insertPrepared_iff {now : Nat} {sql sql' : Str} {params : List (Option Str)}
    {currentDb : Option Str} {userName : Str} {e : Engine} {ins : Insert} {q : Query}
    {rows : List (List Expr)} (literal : Value → Expr) (hParse : parseAnswer e sql = .ok [.insert ins])
    (hSource : ins.source = some q) (hValues : q.body = .values rows)
    (hRows : UInt64.ofNat rows.length ≠ 0)
    (hText : parseAnswer e sql' = .ok [.insert (ins.withLiterals literal (params.map bindParam))]) :
    outcome ((executePrepared now sql params currentDb userName).exec e) =
        outcome ((execute now sql' currentDb userName).exec e) ↔
      Ordinary (toUppercase (trim sql')) ∧
        (privilegeCheck e.users userName currentDb [.insert ins] ≠ none ∨
          InsertsAlike e.databases e.lastInsertId (dbOrTest currentDb) ins
            (textSources literal (params.map bindParam) rows)
            (bindRows (params.map bindParam) 0 rows)) := by
  by_cases hOrdinary : Ordinary (toUppercase (trim sql'))
  · rw [outcome_execute_one hOrdinary hText, exec_executePrepared_one hParse,
      privilegeCheck_insert e.users userName currentDb
        (ins.withLiterals literal (params.map bindParam)) ins]
    cases hCheck : privilegeCheck e.users userName currentDb [.insert ins] with
    | some refusal =>
      exact iff_of_true rfl ⟨hOrdinary, .inl (by intro hNone; cases hNone)⟩
    | none =>
      obtain ⟨body, orderBy, limit, offset⟩ := q
      obtain rfl : body = .values rows := hValues
      have hPrepared := outcome_insertPrepared (q := .mk (.values rows) orderBy limit offset) rfl
        (params.map bindParam) (dbOrTest currentDb) ins.table.toString (e.parsed sql)
      have hTree : (ins.withLiterals literal (params.map bindParam)).source =
          some (.mk (.values (literalRows literal (params.map bindParam) 0 rows)) orderBy limit
            offset) := by
        rw [Insert.withLiterals, hSource]
        rfl
      have hInserted := outcome_insert_values
        (q := .mk (.values (literalRows literal (params.map bindParam) 0 rows)) orderBy limit offset)
        rfl now ins.replaceInto (ins.columns.map Ident.value) (dbOrTest currentDb)
        ins.table.toString (e.parsed sql')
      have hLeft : execStmtPrepared now (params.map bindParam) currentDb (.insert ins) =
          insertPrepared (dbOrTest currentDb) ins.table.toString
            (some (.mk (.values rows) orderBy limit offset)) (params.map bindParam) := by
        rw [execStmtPrepared, hSource]
      have hRight : execStmt now (Statement.effDb currentDb
            (.insert (ins.withLiterals literal (params.map bindParam))))
            (.insert (ins.withLiterals literal (params.map bindParam))) =
          insert now (dbOrTest currentDb) ins.table.toString
            (some (.mk (.values (literalRows literal (params.map bindParam) 0 rows)) orderBy limit
              offset)) ins.replaceInto (ins.columns.map Ident.value) := by
        rw [execStmt, hTree]
        rfl
      simp only []
      rw [hLeft, hRight, hPrepared, hInserted]
      have hNonempty : bindRows (params.map bindParam) 0 rows ≠ [] := by
        intro hNil
        have hLength := length_bindRows (params.map bindParam) 0 rows
        rw [hNil] at hLength
        rw [← hLength] at hRows
        exact hRows rfl
      have hLength : (textSources literal (params.map bindParam) rows).length =
          (bindRows (params.map bindParam) 0 rows).length := by
        rw [textSources, List.length_map, length_literalRows, length_bindRows]
      exact (outcomes_insert_iff hNonempty hLength rfl rfl).trans
        ⟨fun h => ⟨hOrdinary, .inr h⟩, fun h => h.2.resolve_left (by simp)⟩
  · refine iff_of_false (fun hSame => ?_) fun h => hOrdinary h.1
    have hFirst := congrArg Prod.fst hSame
    rw [exec_executePrepared_one hParse] at hFirst
    cases hCheck : privilegeCheck e.users userName currentDb [.insert ins] with
    | some refusal =>
      rw [hCheck] at hFirst
      exact not_builtin_refusal hCheck (outcome_execute_builtin hOrdinary hFirst.symm)
    | none =>
      rw [hCheck] at hFirst
      obtain ⟨r, hResult, hNot⟩ := not_builtin_insertPrepared hValues hRows (params.map bindParam)
        (dbOrTest currentDb) ins.table.toString (e.parsed sql)
      have hLeft : execStmtPrepared now (params.map bindParam) currentDb (.insert ins) =
          insertPrepared (dbOrTest currentDb) ins.table.toString (some q) (params.map bindParam) := by
        rw [execStmtPrepared, hSource]
      simp only [hLeft] at hFirst
      exact hNot (outcome_execute_builtin hOrdinary (hFirst.symm.trans hResult))

-- ---------------------------------------------------------------------------
-- Tables without a key
-- ---------------------------------------------------------------------------

theorem map_literalRow {literal : Value → Expr} {bound : List Value}
    (h : ∀ i, exprToValue (literal (bound.getD i .null)) = bound.getD i .null) (i : Nat)
    (exprs : List Expr) :
    ((literalRow literal bound i exprs).1.map exprToValue, (literalRow literal bound i exprs).2) =
      bindRow bound i exprs := by
  induction exprs generalizing i with
  | nil => rfl
  | cons e rest ih =>
    rw [literalRow, bindRow]
    split
    · rw [← ih (i + 1)]
      simp only [List.map_cons, h i]
    · rw [← ih i]
      simp only [List.map_cons]

/-- Literals that read back make the rows of the text those of the values. -/
theorem textSources_eq {literal : Value → Expr} {bound : List Value}
    (h : ∀ i, exprToValue (literal (bound.getD i .null)) = bound.getD i .null)
    (rows : List (List Expr)) : textSources literal bound rows = bindRows bound 0 rows := by
  have hFrom : ∀ i, (literalRows literal bound i rows).map (fun exprs => exprs.map exprToValue) =
      bindRows bound i rows := by
    induction rows with
    | nil => exact fun i => rfl
    | cons exprs rest ih =>
      intro i
      have hRow := map_literalRow h i exprs
      rw [literalRows, bindRows, List.map_cons, ih, ← hRow]
  exact hFrom 0

theorem layOut_keyless (cols : List Column) (auto : Int64) (srcs : List Row) :
    layOut [] cols none auto srcs = (srcs, auto) := by
  induction srcs with
  | nil => rfl
  | cons src rest ih =>
    rw [layOut]
    simp only [List.isEmpty_nil, Bool.true_or, if_true, Option.bind_none, passKey, ih]

/-- Without a key and a column list the rows are taken alike. -/
theorem takenAlike_keyless {t : Table} (hPk : t.pkColIdx = none) (replaceInto : Bool)
    (rows : List Row) : TakenAlike t replaceInto [] rows rows where
  laidOut := by rw [hPk, layOut_keyless]
  free _ p hSome := by rw [hPk] at hSome; cases hSome
  unkeyed := by rw [hPk]; rfl

end PreparedInsert

-- ---------------------------------------------------------------------------
-- A column list that is not read
-- ---------------------------------------------------------------------------

section ColumnList

set_option maxRecDepth 2000

/-- `INSERT INTO t (columns) VALUES (row)` -/
def insertListed (columns : List Str) (row : List SqlValue) : Insert where
  table := .tableName [⟨"t", none⟩]
  columns := columns.map Ident.new
  source := some (.mk (.values [row.map Expr.value]) none none none)
  replaceInto := false

local instance preparedInsertPlatform : Platform := tablePlatform
  [("INSERT INTO t VALUES (?)", [.insert (insertListed [] [.placeholder "?"])]),
    ("INSERT INTO t VALUES (7)", [.insert (insertListed [] [.number "7" false])]),
    ("INSERT INTO t (b, a) VALUES (?, ?)",
      [.insert (insertListed [("b" : Str), ("a" : Str)] [.placeholder "?", .placeholder "?"])]),
    ("INSERT INTO t (b, a) VALUES (1, 2)",
      [.insert (insertListed [("b" : Str), ("a" : Str)] [.number "1" false, .number "2" false])])]

/-- A table of INT columns without a key. -/
def intTable (names : List Str) : Table :=
  Table.create "test" "t" (names.map fun n => ⟨n, .int, true, false⟩) []

/-- One value, no column list and no key. -/
theorem insertPrepared_iff_one :
    outcome ((executePrepared 0 "INSERT INTO t VALUES (?)" [some "7"] none "root").exec
        (Engine.ofTable (intTable [("a" : Str)]))) =
      outcome ((execute 0 "INSERT INTO t VALUES (7)" none "root").exec
        (Engine.ofTable (intTable [("a" : Str)]))) := by
  have hReads : ∀ i, exprToValue (paramLiteral
      (([some ("7" : Str)].map bindParam).getD i .null)) =
        ([some ("7" : Str)].map bindParam).getD i .null := by
    rintro (_ | i)
    · rfl
    · rfl
  refine (insertPrepared_iff paramLiteral rfl rfl rfl (by decide) rfl).2
    ⟨(shortcutOf_eq_none_iff _).1 (by decide +kernel), .inr ⟨.inr (by decide), ?_, rfl⟩⟩
  rw [textSources_eq hReads]
  exact ⟨_, rfl, takenAlike_keyless rfl _ _⟩

/-- The first value goes to column a, not to b. -/
theorem not_insertPrepared :
    ¬ ∀ (now : Nat) (sql sql' : Str) (params : List (Option Str)) (currentDb : Option Str)
      (userName : Str) (e : Engine) (ins : Insert), parseAnswer e sql = .ok [.insert ins] →
        parseAnswer e sql' = .ok [.insert (ins.withLiterals paramLiteral
            (params.map bindParam))] →
          outcome ((executePrepared now sql params currentDb userName).exec e) =
            outcome ((execute now sql' currentDb userName).exec e) := by
  intro hAll
  have hSame := hAll 0 "INSERT INTO t (b, a) VALUES (?, ?)" "INSERT INTO t (b, a) VALUES (1, 2)"
    [some "1", some "2"] none "root" (Engine.ofTable (intTable [("a" : Str), ("b" : Str)]))
    (insertListed [("b" : Str), ("a" : Str)] [.placeholder "?", .placeholder "?"]) rfl rfl
  have hRows := congrArg (fun x => (Store.table? x.2.1 "test" "t").map Table.rows) hSame
  revert hRows
  decide +kernel

end ColumnList

end RunAlexDb
