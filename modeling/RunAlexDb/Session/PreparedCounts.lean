import RunAlexDb.Model.Concrete
import RunAlexDb.Model.Server
import RunAlexDb.Session.ParamBounds
import RunAlexDb.Lib.Utf8

/-!
# PreparedCounts — how many parameters a prepared statement is said to have

`COM_STMT_PREPARE` counts the bytes `?` of the text. The parser cuts the text into
tokens and makes a placeholder of each `?` that is a token of its own; a `?` in a
string, in a quoted identifier or in a comment is counted all the same.

Main result: `preparedInFull_iff`.
-/

set_option linter.unusedSectionVars false

namespace RunAlexDb

open Text Platform

section Counts

variable [Platform]

-- ---------------------------------------------------------------------------
-- Tokens
-- ---------------------------------------------------------------------------

/-- A token of a text, white space and comments included. -/
structure Token where
  isPlaceholder : Bool
  text : Str
deriving DecidableEq, Repr

/-- What the parser makes of the texts it accepts: their tokens, which put together are
the text, and the number of `?` placeholders in the statements, one for each such token. -/
structure TokenParser where
  tokens : Str → List Token
  placeholders : Str → Nat
  spells : ∀ sql stmts, parseSql sql = .ok stmts → (tokens sql).flatMap Token.text = sql
  reads : ∀ sql stmts, parseSql sql = .ok stmts →
    ∀ t ∈ tokens sql, t.isPlaceholder = true → t.text = "?"
  counts : ∀ sql stmts, parseSql sql = .ok stmts →
    placeholders sql = (tokens sql).countP Token.isPlaceholder

/-- How often `?` stands in tokens that are no placeholders. -/
def TokenParser.strayMarks (parser : TokenParser) (sql : Str) : Nat :=
  (((parser.tokens sql).filter fun t => !t.isPlaceholder).map fun t => t.text.count '?').sum

/-- Each mark is a placeholder or a stray one. -/
theorem count_tokens {ts : List Token} (h : ∀ t ∈ ts, t.isPlaceholder = true → t.text = "?") :
    (ts.flatMap Token.text).count '?' = ts.countP Token.isPlaceholder +
      ((ts.filter fun t => !t.isPlaceholder).map fun t => t.text.count '?').sum := by
  induction ts with
  | nil => rfl
  | cons t ts ih =>
    have hRest := ih fun u hu => h u (List.mem_cons_of_mem t hu)
    rw [List.flatMap_cons, List.count_append, hRest, List.countP_cons, List.filter_cons]
    cases hIs : t.isPlaceholder with
    | true =>
      have hOne : t.text.count '?' = 1 := by
        rw [h t (List.mem_cons_self ..) hIs]
        decide
      rw [hOne, Bool.not_true, if_neg Bool.false_ne_true, if_pos rfl]
      omega
    | false =>
      rw [Bool.not_false, if_pos rfl, if_neg Bool.false_ne_true, List.map_cons, List.sum_cons]
      omega

theorem count_marks (parser : TokenParser) {sql : Str} {stmts : List Statement}
    (hParse : parseSql sql = .ok stmts) :
    (bytes sql).count 0x3f = parser.placeholders sql + parser.strayMarks sql := by
  have hText : (bytes sql).count 0x3f = sql.count '?' := count_bytes (c := '?') (by decide) sql
  rw [hText, parser.counts sql stmts hParse, TokenParser.strayMarks,
    ← count_tokens (parser.reads sql stmts hParse), parser.spells sql stmts hParse]

-- ---------------------------------------------------------------------------
-- The statement that is stored
-- ---------------------------------------------------------------------------

/-- A session after it has answered COM_STMT_PREPARE. -/
def Conn.prepare (c : Conn) (sql : Str) : Conn := ((handleStmtPrepare sql).exec c).2

/-- The number that is stored. -/
def countedParams (sql : Str) : Nat := (bytes sql).count 0x3f % 2 ^ 16

theorem stmtCache_prepare (c : Conn) (sql : Str) :
    (c.prepare sql).stmtCache.get c.nextStmtId = some ⟨sql, countedParams sql⟩ := by
  have hCache : (c.prepare sql).stmtCache = c.stmtCache.insert c.nextStmtId ⟨sql, countedParams sql⟩ := rfl
  rw [hCache, HashMap.get_insert, if_pos rfl]

/-- The answer begins with the packet that announces the number. -/
theorem events_prepare (c : Conn) (sql : Str) : ∃ rest, (c.prepare sql).events =
    c.events ++ [.reply (encodePacket (stmtPrepareOk c.nextStmtId (countedParams sql) 0) 1 ++ rest)] :=
  ⟨_, rfl⟩

/-- What a client may expect of a prepared text: the number of its placeholders is stored and
announced, and from a whole NULL bitmap on as many values are decoded. -/
structure PreparedInFull (parser : TokenParser) (c : Conn) (sql : Str) : Prop where
  stored : (c.prepare sql).stmtCache.get c.nextStmtId = some ⟨sql, parser.placeholders sql⟩
  announced : ∃ rest, (c.prepare sql).events = c.events ++
    [.reply (encodePacket (stmtPrepareOk c.nextStmtId (parser.placeholders sql) 0) 1 ++ rest)]
  decoded : ∀ stmt, (c.prepare sql).stmtCache.get c.nextStmtId = some stmt →
    ∀ payload : Bytes, 10 + (parser.placeholders sql + 7) / 8 ≤ payload.length →
      (parseExecuteParams payload stmt.numParams).length = parser.placeholders sql

/-- **Placeholders.** A text that is parsed, with no more placeholders than a count has room for,
is prepared in full exactly when the stray marks leave the count of 16 bits as it is. -/
theorem preparedInFull_iff (parser : TokenParser) (c : Conn) {sql : Str} {stmts : List Statement}
    (hParse : parseSql sql = .ok stmts) (hFew : parser.placeholders sql ≤ 65535) :
    PreparedInFull parser c sql ↔ 65536 ∣ parser.strayMarks sql := by
  have hCounted : countedParams sql = (parser.placeholders sql + parser.strayMarks sql) % 65536 :=
    congrArg (· % 65536) (count_marks parser hParse)
  constructor
  · intro hFull
    have hStored := (stmtCache_prepare c sql).symm.trans hFull.stored
    have hSame := congrArg PreparedStmt.numParams (Option.some.inj hStored)
    rw [hCounted] at hSame
    dsimp only at hSame
    omega
  · intro hStray
    have hSame : countedParams sql = parser.placeholders sql := by omega
    have hCache := stmtCache_prepare c sql
    have hEvents := events_prepare c sql
    rw [hSame] at hCache hEvents
    refine ⟨hCache, hEvents, fun stmt hStmt payload hWhole => ?_⟩
    rw [hCache] at hStmt
    obtain rfl := Option.some.inj hStmt
    exact (parseExecuteParams_whole hWhole).1

end Counts

-- ---------------------------------------------------------------------------
-- A mark in a string
-- ---------------------------------------------------------------------------

section Quoted

/-- One placeholder. -/
def plainInsert : Str := "INSERT INTO t VALUES (?)"

/-- One placeholder, and a mark in a string. -/
def quotedInsert : Str := "INSERT INTO t VALUES ('?', ?)"

def insertTree (row : List Expr) : List Statement :=
  [.insert {
    table := .tableName [⟨"t", none⟩], columns := [], replaceInto := false,
    source := some (.mk (.values [row]) none none none) }]

local instance quotedPlatform : Platform := tablePlatform
  [(plainInsert, insertTree [.value (.placeholder "?")]),
    (quotedInsert, insertTree [.value (.singleQuotedString "?"), .value (.placeholder "?")])]

/-- The tokens of both texts. -/
def insertTokens (sql : Str) : List Token :=
  let head : List Token := [⟨false, "INSERT"⟩, ⟨false, " "⟩, ⟨false, "INTO"⟩, ⟨false, " "⟩, ⟨false, "t"⟩,
    ⟨false, " "⟩, ⟨false, "VALUES"⟩, ⟨false, " "⟩, ⟨false, "("⟩]
  if sql = plainInsert then head ++ [⟨true, "?"⟩, ⟨false, ")"⟩]
  else head ++ [⟨false, "'?'"⟩, ⟨false, ","⟩, ⟨false, " "⟩, ⟨true, "?"⟩, ⟨false, ")"⟩]

theorem parsed_cases {sql : Str} {stmts : List Statement} (h : parseSql sql = .ok stmts) :
    sql = plainInsert ∨ sql = quotedInsert := by
  by_contra hOther
  obtain ⟨hPlain, hQuoted⟩ := not_or.1 hOther
  have hNone : parseSql sql = .error "sql parser error" := by
    show parseByTable _ sql = _
    unfold parseByTable
    simp only [List.lookup_cons, List.lookup_nil, beq_false_of_ne hPlain, beq_false_of_ne hQuoted]
  rw [hNone] at h
  cases h

def insertParser : TokenParser where
  tokens := insertTokens
  placeholders _ := 1
  spells sql stmts h := by
    rcases parsed_cases h with rfl | rfl
    · rfl
    · rfl
  reads sql stmts h := by
    rcases parsed_cases h with rfl | rfl
    · decide
    · decide
  counts sql stmts h := by
    rcases parsed_cases h with rfl | rfl
    · rfl
    · rfl

/-- A session. -/
def preparing : Conn := { Conn.start ⟨[]⟩ [] (Engine.fresh []) [] with phase := .command }

theorem preparedInFull_iff_plain : PreparedInFull insertParser preparing plainInsert := by
  have hParse : parseSql plainInsert = .ok _ := rfl
  exact (preparedInFull_iff insertParser preparing hParse (by decide)).2 (by decide)

/-- Two parameters are announced, and one is there. -/
theorem not_preparedInFull : ¬ ∀ (parser : TokenParser) (c : Conn) (sql : Str) (stmts : List Statement),
    parseSql sql = .ok stmts → parser.placeholders sql ≤ 65535 → PreparedInFull parser c sql := by
  intro hAll
  have hFull := hAll insertParser preparing quotedInsert
    (insertTree [.value (.singleQuotedString "?"), .value (.placeholder "?")]) rfl (by decide)
  have hStored := (stmtCache_prepare preparing quotedInsert).symm.trans hFull.stored
  have hSame := congrArg PreparedStmt.numParams (Option.some.inj hStored)
  exact absurd hSame (by decide)

end Quoted

end RunAlexDb
