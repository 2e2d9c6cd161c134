import RunAlexDb.Lib.Trace
import RunAlexDb.Model.Concrete
import RunAlexDb.Statement.Calls

/-!
# ParseCache — the statement cache and the texts behind it

An entry of the cache holds the statements of the text it was made for under
the hash of that text, and nothing of the text itself. `holders` are the texts
the entries were made for.

Main result: `parse_cached_iff`, when a sequence of calls answers as the parser
does.
-/

set_option linter.unusedSectionVars false

namespace RunAlexDb

open Text Platform

section ParseCache

variable [Platform]

-- ---------------------------------------------------------------------------
-- Who holds an entry
-- ---------------------------------------------------------------------------

/-- The texts the entries of a cache were made for. -/
abbrev Holders := HashMap UInt64 Str

/-- A text that is parsed takes the entry of its hash; a full cache is cleared
before that. -/
def Holders.step (held : Holders) (sql : Str) : Holders :=
  match held.get (hashQuery sql), parseSql sql with
  | none, .ok _ => (if 8192 < held.size then HashMap.empty else held).insert (hashQuery sql) sql
  | _, _ => held

/-- The texts whose statements are cached after the given calls. -/
def holders (texts : List Str) : Holders := Trace.run Holders.step HashMap.empty texts

/-- The statements of a text that parses. -/
def statementsOf (sql : Str) : List Statement :=
  match parseSql sql with
  | .ok stmts => stmts
  | .error _ => []

/-- The engine a call of the cache leaves. -/
def parseStep (e : Engine) (sql : Str) : Engine := ((parseCached sql).exec e).2

theorem parseStep_eq : parseStep = Engine.parsed := by
  funext e sql
  rw [parseStep, exec_parseCached]

/-- The cache holds, for each hash, the statements of the text that holds it. -/
structure HeldBy (held : Holders) (e : Engine) : Prop where
  cache : e.stmtCache = held.mapValues fun _ sql => statementsOf sql
  parses : ∀ key sql, held.get key = some sql → directParse sql = .ok (statementsOf sql)

theorem HeldBy.get {held : Holders} {e : Engine} (h : HeldBy held e) (key : UInt64) :
    e.stmtCache.get key = (held.get key).map statementsOf := by
  rw [h.cache, HashMap.get_mapValues]

theorem directParse_ok {sql : Str} {stmts : List Statement} (h : parseSql sql = .ok stmts) :
    directParse sql = .ok (statementsOf sql) := by
  rw [directParse, statementsOf, h]

theorem HeldBy.step {held : Holders} {e : Engine} (h : HeldBy held e) (sql : Str) :
    HeldBy (held.step sql) (e.parsed sql) := by
  have hGet := h.get (hashQuery sql)
  have hSize : e.stmtCache.size = held.size := by
    rw [h.cache, HashMap.size, HashMap.size, HashMap.mapValues, List.length_map]
  rw [Holders.step, Engine.parsed, cacheAfter, hGet]
  cases hHeld : held.get (hashQuery sql) with
  | some other => exact ⟨h.cache, h.parses⟩
  | none =>
    cases hParse : parseSql sql with
    | error msg => exact ⟨h.cache, h.parses⟩
    | ok stmts =>
      have hStmts : statementsOf sql = stmts := by rw [statementsOf, hParse]
      simp only [Option.map_none, hSize]
      constructor
      · -- the entries of the cleared or kept cache, and the new one
        rw [HashMap.mapValues_insert, hStmts]
        split <;> [rfl; rw [h.cache]]
      · intro key other hOther
        rw [HashMap.get_insert] at hOther
        split at hOther
        · obtain rfl := Option.some.inj hOther
          exact directParse_ok hParse
        · split at hOther
          · cases hOther
          · exact h.parses key other hOther

theorem heldBy_run {e : Engine} (h : e.stmtCache = HashMap.empty) (texts : List Str) :
    HeldBy (holders texts) (Trace.run Engine.parsed e texts) := by
  have hStart : HeldBy HashMap.empty e := ⟨h, fun _ _ hNone => by cases hNone⟩
  exact Trace.related_run (C := fun _ _ => True) (fun _ _ sql hHeld _ => hHeld.step sql) hStart
    (Trace.along_true _ _)

/-- **What a call of the cache answers**: the statements of the text that holds
the hash, or those the parser gives. -/
theorem parseAnswer_heldBy {held : Holders} {e : Engine} (h : HeldBy held e) (sql : Str) :
    parseAnswer e sql = directParse ((held.get (hashQuery sql)).getD sql) := by
  rw [parseAnswer, h.get]
  cases hHeld : held.get (hashQuery sql) with
  | some other => exact (h.parses _ other hHeld).symm
  | none => rfl

/-- **The statement cache.** In a sequence of calls on an empty cache every call
answers as the parser does exactly when no call finds the hash of its text held
by a text with other statements. -/
theorem parse_cached_iff (e : Engine) (hEmpty : e.stmtCache = HashMap.empty) (texts : List Str) :
    (∀ before sql rest, texts = before ++ sql :: rest →
        ((parseCached sql).exec (Trace.run parseStep e before)).1 = .ok (directParse sql)) ↔
      ∀ before sql rest, texts = before ++ sql :: rest →
        ∀ held, (holders before).get (hashQuery sql) = some held →
          directParse held = directParse sql := by
  refine forall_congr' fun before => forall_congr' fun sql => forall_congr' fun rest =>
    forall_congr' fun _ => ?_
  rw [parseStep_eq, exec_parseCached, parseAnswer_heldBy (heldBy_run hEmpty before)]
  cases (holders before).get (hashQuery sql) with
  | none => simp
  | some held => simp

end ParseCache

-- ---------------------------------------------------------------------------
-- Two texts with one hash
-- ---------------------------------------------------------------------------

set_option maxRecDepth 2000

section Collision

local instance parseCachePlatform : Platform := tablePlatform
  [("SELECT * FROM hulzot", [.query (.mk (.select (.mk none [.wildcard "*"]
      [.mk (.table [⟨"hulzot", none⟩] []) []] none (.expressions []) none)) none none none)]),
    ("DROP TABLE oxciym", [.drop .table [[⟨"oxciym", none⟩]] false])]

/-- The kinds of the statements of an answer: a SELECT or something else. -/
def readsOnly (answer : Except Str (List Statement)) : Bool :=
  match answer with
  | .ok stmts => stmts.all fun stmt => !stmt.writes
  | .error _ => true

theorem parse_cached_iff_select :
    (∀ before sql rest, ([("SELECT * FROM hulzot" : Str)] : List Str) = before ++ sql :: rest →
        ((parseCached sql).exec (Trace.run parseStep (Engine.fresh []) before)).1 =
          .ok (directParse sql)) ↔
      ∀ before sql rest, ([("SELECT * FROM hulzot" : Str)] : List Str) = before ++ sql :: rest →
        ∀ held, (holders before).get (hashQuery sql) = some held →
          directParse held = directParse sql :=
  parse_cached_iff (Engine.fresh []) rfl ["SELECT * FROM hulzot"]

/-- After the DROP the text of the SELECT gets the statements of the DROP. -/
theorem not_parse_cached :
    ¬ ∀ (e : Engine), e.stmtCache = HashMap.empty → ∀ texts before sql rest,
      texts = before ++ sql :: rest →
        ((parseCached sql).exec (Trace.run parseStep e before)).1 = .ok (directParse sql) := by
  intro hAll
  have hAnswer := hAll (Engine.fresh []) rfl ["DROP TABLE oxciym", "SELECT * FROM hulzot"]
    ["DROP TABLE oxciym"] "SELECT * FROM hulzot" [] rfl
  have hReads := congrArg (fun r : Except Fault (Except Str (List Statement)) => r.map readsOnly)
    hAnswer
  revert hReads
  decide +kernel

end Collision

end RunAlexDb
