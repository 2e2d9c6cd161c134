import RunAlexDb.Session.WebReplies

/-!
# WebQueries — a browser that signs in and queries

A browser reads its session from the answer to its login and sends it back with a
query. Whatever happens in between, short of a logout of that session and of eight
hours, the statement runs for the user who signed in, and the browser reads the result.

Main results: `parseRequest_requestText`, `readResult_resultValue` and `signed_in_run`.
-/

set_option linter.unusedSectionVars false

namespace RunAlexDb

open Text Platform HeaderBlocks Leases

-- ---------------------------------------------------------------------------
-- Requests
-- ---------------------------------------------------------------------------

/-- A request: method, target, header lines and a body. -/
def requestText (method target : Str) (headers : List Str) (body : Str) : Str :=
  block ((method ++ ' ' :: (target ++ " HTTP/1.1")) :: headers) body

/-- The header line that sends these cookies. -/
def cookieLine (cookies : List Str) : Str := "Cookie: " ++ join "; " cookies

/-- A cookie as it stands in the line: ASCII, no semicolon, no blank. -/
structure IsCookie (s : Str) : Prop where
  plain : PlainWord s
  single : ';' ∉ s

section Requests

variable [Platform]

/-- ASCII letters in lower case, as `to_lowercase` has them. -/
def LowerAscii : Prop :=
  ∀ s : Str, (∀ c ∈ s, c.toNat < 128) → toLowercase s = s.map Char.toLower

/-- The cookies of a line, piece by piece. -/
theorem split_join {cookies : List Str} (hSome : cookies ≠ []) (h : ∀ s ∈ cookies, ';' ∉ s) :
    split ';' (' ' :: join "; " cookies) = cookies.map fun s => ' ' :: s := by
  induction cookies with
  | nil => exact absurd rfl hSome
  | cons first rest ih =>
    have hFirst : ∀ c ∈ ' ' :: first, (c == ';') = false := by
      intro c hc
      rw [beq_eq_false_iff_ne]
      rintro rfl
      exact h first (List.mem_cons_self ..) (by simpa using hc)
    rcases rest with _ | ⟨next, rest⟩
    · exact List.splitOnP_eq_singleton hFirst
    · have hCut : ' ' :: join "; " (first :: next :: rest) =
          (' ' :: first) ++ ';' :: ' ' :: join "; " (next :: rest) := by
        simp [join]
      have hRest := ih (List.cons_ne_nil _ _) fun s hs => h s (List.mem_cons_of_mem _ hs)
      unfold split at hRest ⊢
      rw [hCut, List.splitOnP_append_cons _ _ (by rfl), List.splitOnP_eq_singleton hFirst, hRest]
      rfl

/-- The pieces without the blanks are the cookies. -/
theorem trimmed_pieces {cookies : List Str} (hSome : cookies ≠ []) (h : ∀ s ∈ cookies, IsCookie s) :
    (split ';' (' ' :: join "; " cookies)).map trim = cookies := by
  have hTrim : ∀ s ∈ cookies, trim (' ' :: s) = s := by
    intro s hs
    have hBlank : trim (' ' :: s) = trim s := rfl
    rw [hBlank, trim_of_trimmed (h s hs).plain.trimmed]
  rw [split_join hSome fun s hs => (h s hs).single, List.map_map]
  exact (List.map_congr_left hTrim).trans (List.map_id _)

/-- The first cookie of that name is what the line gives. -/
theorem findSome_cookies {before : List Str} (after : List Str) (token : Str)
    (hBefore : ∀ s ∈ before, startsWith s "session=" = false) :
    (before ++ ("session=" ++ token) :: after).findSome? (fun part =>
      (stripStart "session=" part).map trim) = some (trim token) := by
  have hSkip : before.findSome? (fun part => (stripStart "session=" part).map trim) = none := by
    rw [List.findSome?_eq_none_iff]
    intro s hs
    unfold stripStart
    rw [hBefore s hs]
    rfl
  have hStart : startsWith ("session=" ++ token) "session=" = true := by
    unfold startsWith
    exact List.isPrefixOf_iff_prefix.2 (List.prefix_append ..)
  rw [List.findSome?_append, hSkip, Option.none_or, List.findSome?_cons]
  unfold stripStart
  rw [if_pos hStart, List.drop_left]
  rfl

/-- What holds of the characters of the parts, and of those between them. -/
theorem forall_join {P : Char → Prop} {sep : Str} {parts : List Str} (hSep : ∀ c ∈ sep, P c)
    (h : ∀ s ∈ parts, ∀ c ∈ s, P c) : ∀ c ∈ join sep parts, P c := by
  induction parts with
  | nil => exact fun c hc => absurd hc List.not_mem_nil
  | cons first rest ih =>
    have hRest := ih fun s hs => h s (List.mem_cons_of_mem _ hs)
    have hFirst := h first (List.mem_cons_self ..)
    rcases rest with _ | ⟨next, rest⟩
    · exact hFirst
    · intro c hc
      rcases List.mem_append.1 (show c ∈ first ++ sep ++ join sep (next :: rest) from hc) with hc | hc
      · exact (List.mem_append.1 hc).elim (hFirst c) (hSep c)
      · exact hRest c hc

theorem isLine_cookieLine {cookies : List Str} (h : ∀ s ∈ cookies, IsCookie s) :
    IsLine (cookieLine cookies) := by
  have hSep := isLine_of_all (l := "; ") (by decide)
  have hReturn := forall_join (fun c hc => ne_of_mem_of_not_mem hc hSep.noReturn) fun s hs c hc =>
    ne_of_mem_of_not_mem hc (IsLine.of_plainWord (h s hs).plain).noReturn
  have hFeed := forall_join (fun c hc => ne_of_mem_of_not_mem hc hSep.noFeed) fun s hs c hc =>
    ne_of_mem_of_not_mem hc (IsLine.of_plainWord (h s hs).plain).noFeed
  have hName : IsLine ("Cookie: " : Str) := isLine_of_all (by decide)
  exact hName.append (fun hIn => hReturn _ hIn rfl) fun hIn => hFeed _ hIn rfl

theorem isCookie_session {token : Str} (hToken : TokenText token) : IsCookie ("session=" ++ token) := by
  have hPlain := hToken.all (p := isPlain) (by decide)
  have hSingle := hToken.all (p := (· != ';')) (by decide)
  have hStart : PlainWord ("session=" : Str) := .of_all (by decide)
  refine ⟨hStart.append hPlain, fun hIn => ?_⟩
  rcases List.mem_append.1 hIn with hIn | hIn
  · exact absurd hIn (by decide)
  · exact absurd (hSingle _ hIn) (by decide)

/-- A session among other cookies. -/
theorem isCookie_all {before after : List Str} {token : Str} (hBefore : ∀ s ∈ before, IsCookie s)
    (hAfter : ∀ s ∈ after, IsCookie s) (hToken : TokenText token) :
    ∀ s ∈ before ++ ("session=" ++ token) :: after, IsCookie s := by
  intro s hs
  rcases List.mem_append.1 hs with hs | hs
  · exact hBefore s hs
  · exact (List.mem_cons.1 hs).elim (fun hSame => hSame ▸ isCookie_session hToken) (hAfter s)

/-- The line of cookies gives the session in it. -/
theorem cookieInLine_cookieLine (hLower : LowerAscii) {before after : List Str} {token : Str}
    (hBefore : ∀ s ∈ before, IsCookie s ∧ startsWith s "session=" = false)
    (hAfter : ∀ s ∈ after, IsCookie s) (hToken : TokenText token) :
    cookieInLine "session" (cookieLine (before ++ ("session=" ++ token) :: after)) = .ok (some token) := by
  have hAll := isCookie_all (fun s hs => (hBefore s hs).1) hAfter hToken
  have hSep : ("; " : Str).all (fun c => c.toNat < 128) = true := by decide
  have hAscii := forall_join (fun c hc => of_decide_eq_true (List.all_eq_true.1 hSep c hc)) fun s hs =>
    ascii_of_plain (hAll s hs).plain.plain
  have hName : ("Cookie: " : Str).all (fun c => c.toNat < 128) = true := by decide
  have hHead : ∀ c ∈ ("Cookie: " : Str), c.toNat < 128 :=
    fun c hc => of_decide_eq_true (List.all_eq_true.1 hName c hc)
  have hTrim : trim token = token := by
    refine trim_of_noSpace fun c hc => ?_
    have hSolid := hToken.all (p := fun c => !isWhitespace c) (by decide) c hc
    simpa using hSolid
  have hStart : startsWith (toLowercase (cookieLine (before ++ ("session=" ++ token) :: after)))
      "cookie:" = true := by
    unfold cookieLine
    rw [hLower _ fun c hc => (List.mem_append.1 hc).elim (hHead c) (hAscii c), List.map_append]
    unfold startsWith
    rfl
  have hSlice : sliceFrom (cookieLine (before ++ ("session=" ++ token) :: after)) 7 =
      some (' ' :: join "; " (before ++ ("session=" ++ token) :: after)) := by
    exact sliceFrom_append "Cookie:" (' ' :: join "; " (before ++ ("session=" ++ token) :: after))
  have hPieces := trimmed_pieces (List.append_ne_nil_of_right_ne_nil before (List.cons_ne_nil _ after)) hAll
  have hFound := findSome_cookies after token fun s hs => (hBefore s hs).2
  rw [← hPieces, List.findSome?_map, hTrim] at hFound
  unfold cookieInLine
  rw [if_pos hStart, hSlice]
  exact congrArg Except.ok hFound

/-- Lines without the cookie, then the one that has it. -/
theorem extractCookie_found {name token line : Str} {before after : List Str}
    (hBefore : ∀ l ∈ before, cookieInLine name l = .ok none)
    (hLine : cookieInLine name line = .ok (some token)) :
    extractCookie name (before ++ line :: after) = .ok (some token) := by
  induction before with
  | nil =>
    show extractCookie name (line :: after) = .ok (some token)
    unfold extractCookie
    rw [hLine]
    rfl
  | cons l before ih =>
    have hRest := ih fun x hx => hBefore x (List.mem_cons_of_mem _ hx)
    rw [List.cons_append]
    unfold extractCookie
    rw [hBefore l (List.mem_cons_self ..)]
    exact hRest

theorem splitWhitespace_plain {w : Str} (h : PlainWord w) : splitWhitespace w = [w] := by
  refine splitWhitespace_word h.some fun c hc => ?_
  have hPlain := h.plain c hc
  unfold isPlain at hPlain
  simpa using (Bool.and_eq_true_iff.1 hPlain).2

/-- **A request is read as the browser wrote it.** -/
theorem parseRequest_requestText {method target token line body : Str} {others rest : List Str}
    (hMethod : PlainWord method) (hTarget : PlainWord target)
    (hLines : ∀ l ∈ others ++ line :: rest, IsLine l)
    (hFirst : cookieInLine "session" (method ++ ' ' :: (target ++ " HTTP/1.1")) = .ok none)
    (hBefore : ∀ l ∈ others, cookieInLine "session" l = .ok none)
    (hLine : cookieInLine "session" line = .ok (some token)) :
    parseRequest (requestText method target (others ++ line :: rest) body) =
      .ok ⟨method, (split '?' target).headD "/", body, some token⟩ := by
  have hRequestLine : IsLine (method ++ ' ' :: (target ++ " HTTP/1.1")) := by
    have hTargetLine := IsLine.of_plainWord hTarget
    have hStart := (IsLine.of_plainWord hMethod).append (b := " ") (by decide) (by decide)
    have hPath := hStart.append hTargetLine.noReturn hTargetLine.noFeed
    have hAll := hPath.append (b := " HTTP/1.1") (by decide) (by decide)
    simpa using hAll
  have hEvery : ∀ l ∈ (method ++ ' ' :: (target ++ " HTTP/1.1")) :: (others ++ line :: rest), IsLine l :=
    List.forall_mem_cons.2 ⟨hRequestLine, hLines⟩
  have hWords : splitWhitespace (method ++ ' ' :: (target ++ " HTTP/1.1")) =
      [method, target, "HTTP/1.1"] := by
    have hBlank : isWhitespace ' ' = true := by decide
    have hVersion : target ++ " HTTP/1.1" = target ++ ' ' :: "HTTP/1.1" := rfl
    rw [splitWhitespace_append hBlank, splitWhitespace_plain hMethod, hVersion, splitWhitespace_append hBlank,
      splitWhitespace_plain hTarget]
    rfl
  have hToken : extractCookie "session" (lines (requestText method target (others ++ line :: rest) body)) =
      .ok (some token) := by
    unfold requestText
    rw [lines_block hEvery, ← List.cons_append, List.append_assoc]
    exact extractCookie_found (List.forall_mem_cons.2 ⟨hFirst, hBefore⟩) hLine
  have hHead : (lines (requestText method target (others ++ line :: rest) body)).headD [] =
      method ++ ' ' :: (target ++ " HTTP/1.1") := by
    unfold requestText
    rw [lines_block hEvery]
    rfl
  have hBody : after "\r\n\r\n" (requestText method target (others ++ line :: rest) body) = some body :=
    after_block hEvery body
  unfold parseRequest
  simp only [hHead, hToken, hWords, hBody]
  rfl

end Requests

-- ---------------------------------------------------------------------------
-- Results
-- ---------------------------------------------------------------------------

/-- What the page has of a result. -/
inductive WebResult
  | done (affected insertId : Nat)
  | failed (code : Nat) (message : Str)
  | table (columns : List Str) (rows : List TextRow)
deriving DecidableEq, Repr

namespace Json

def asNat : Json → Option Nat
  | .num digits => parseNat digits
  | _ => none

def items : Json → Option (List Json)
  | .arr items => some items
  | _ => none

/-- A cell: null, or a text. -/
def asCell : Json → Option (Option Str)
  | .null => some none
  | .str s => some (some s)
  | _ => none

def asRow (v : Json) : Option TextRow := v.items.bind fun cells => cells.mapM asCell

end Json

/-- The result in the JSON of an answer. -/
def readResult (v : Json) : Option WebResult :=
  match v.field "ok", v.field "error" with
  | .bool true, _ =>
    (v.field "affected").asNat.bind fun affected =>
      (v.field "insert_id").asNat.map fun insertId => .done affected insertId
  | _, .bool true =>
    (v.field "code").asNat.bind fun code =>
      (v.field "message").asStr.map fun message => .failed code message
  | _, _ =>
    ((v.field "columns").items.bind fun columns => columns.mapM Json.asStr).bind fun columns =>
      ((v.field "rows").items.bind fun rows => rows.mapM Json.asRow).map fun rows => .table columns rows

theorem mapM_written {α β : Type} {write : α → β} {read : β → Option α}
    (h : ∀ a, read (write a) = some a) (l : List α) : (l.map write).mapM read = some l := by
  induction l with
  | nil => rfl
  | cons a l ih =>
    rw [List.map_cons, List.mapM_cons, h, ih]
    rfl

theorem asNat_ofNat (n : Nat) : (Json.ofNat n).asNat = some n := parseNat_natToString n

theorem asCell_ofOption (c : Option Str) : (Json.ofOption c).asCell = some c := by
  rcases c with _ | s <;> rfl

theorem read_rowsJson (rows : List TextRow) :
    ((rowsJson rows).items.bind fun rows => rows.mapM Json.asRow) = some rows := by
  refine mapM_written (fun row => ?_) rows
  exact mapM_written asCell_ofOption row

section Results

variable [Platform] (site : Site)

/-- The result of a statement as the page has it. -/
def webResult : QueryResult → WebResult
  | .ok affected insertId => .done affected.toNat insertId.toNat
  | .err code message => .failed code message
  | .rows columns rows => .table columns rows
  | .valueRows columns rows => .table columns (rows.map fun row => row.map (webCell site))

/-- **The page reads the result of its statement.** -/
theorem readResult_resultValue (result : QueryResult) :
    readResult (resultValue site result) = some (webResult site result) := by
  have hTable : ∀ (columns : List Str) (rows : List TextRow),
      readResult (.obj [("columns", .arr (columns.map .str)), ("rows", rowsJson rows)]) =
        some (.table columns rows) := by
    intro columns rows
    have hText : ∀ s, (Json.str s).asStr = some s := fun _ => rfl
    have hColumns := mapM_written hText columns
    have hRead : readResult (.obj [("columns", .arr (columns.map .str)), ("rows", rowsJson rows)]) =
        ((columns.map Json.str).mapM Json.asStr).bind fun columns =>
          ((rowsJson rows).items.bind fun rows => rows.mapM Json.asRow).map fun rows =>
            .table columns rows :=
      rfl
    rw [hRead, hColumns, read_rowsJson]
    rfl
  rcases result with ⟨affected, insertId⟩ | ⟨code, message⟩ | ⟨columns, rows⟩ | ⟨columns, rows⟩
  · have hRead : readResult (resultValue site (.ok affected insertId)) =
        (Json.ofNat affected.toNat).asNat.bind fun affected =>
          (Json.ofNat insertId.toNat).asNat.map fun insertId => .done affected insertId :=
      rfl
    rw [hRead, asNat_ofNat, asNat_ofNat]
    rfl
  · have hRead : readResult (resultValue site (.err code message)) =
        (Json.ofNat code).asNat.bind fun code =>
          (Json.str message).asStr.map fun message => .failed code message :=
      rfl
    rw [hRead, asNat_ofNat]
    rfl
  · exact hTable columns rows
  · exact hTable columns _

end Results

-- ---------------------------------------------------------------------------
-- Steps
-- ---------------------------------------------------------------------------

section Steps

variable [Platform] (site : Site) {genToken : Nat → Str}

namespace WebUi

/-- A step logs this session out. -/
def LogsOut (w : WebUi) (l : WebStep) (token : Str) : Prop :=
  ∃ i r username, l = .route i ∧ w.tasks.get i = some (.looked r username) ∧ r.route = .logout ∧
    r.token = some token

/-- A task that has a request stays as it is until it looks up. -/
theorem received_step {fields : Str → Option (Option Str × Option Str)} {w : WebUi} {i : Nat} {r : Request}
    {l : WebStep} (h : w.tasks.get i = some (.received r)) (hOther : l ≠ .lookup i) :
    (w.step fields genToken l).tasks.get i = some (.received r) := by
  have hApart : ∀ {j : Nat} {task : Task}, w.tasks.get j = some task →
      (∀ r', task ≠ .received r') → i ≠ j := by
    rintro j task hTask hNot rfl
    exact hNot r (Option.some.inj (hTask.symm.trans h))
  rcases l with d | e | ⟨j, raw⟩ | j | j | j | _ | _
  case tick => exact h
  case engine => exact h
  case accept =>
    unfold step
    simp only
    split
    · rename_i hNone _
      have hDiffers : i ≠ j := by
        rintro rfl
        rw [h] at hNone
        cases hNone
      rw [HashMap.get_insert, if_neg hDiffers, h]
    · exact h
  case lookup =>
    have hDiffers : i ≠ j := fun hSame => hOther (hSame ▸ rfl)
    unfold step
    simp only
    split
    · exact (HashMap.get_insert ..).trans ((if_neg hDiffers).trans h)
    · exact h
  case route =>
    unfold step
    simp only
    split
    · rename_i r' name hTask
      have hDiffers := hApart hTask fun _ hTask => by cases hTask
      rcases routed_cases fields genToken w j r' with hEnd | ⟨username, hEnd⟩ | ⟨token, hEnd⟩ <;> rw [hEnd]
      · exact (HashMap.get_remove ..).trans ((if_neg hDiffers).trans h)
      · exact (HashMap.get_insert ..).trans ((if_neg hDiffers).trans h)
      · exact (HashMap.get_remove ..).trans ((if_neg hDiffers).trans h)
    · exact h
  case insert =>
    unfold step
    simp only
    split
    · rename_i hTask
      have hDiffers := hApart hTask fun _ hTask => by cases hTask
      exact (HashMap.get_remove ..).trans ((if_neg hDiffers).trans h)
    · exact h
  case cleanupNow => exact h
  case cleanupRetain =>
    unfold step
    simp only
    split <;> exact h

/-- The ledger grows, and a token is revoked only where it logs out. -/
theorem ledger_step (w : WebUi) (l : WebStep) : ∃ added,
    (w.serve site genToken l).ledger = w.ledger ++ added ∧
      ∀ token, .revoked token ∈ added → w.LogsOut l token := by
  have hSame : ∀ w' : WebUi, w'.ledger = w.ledger → ∃ added, w'.ledger = w.ledger ++ added ∧
      ∀ token, .revoked token ∈ added → w.LogsOut l token :=
    fun w' hEq => ⟨[], by rw [hEq, List.append_nil], fun token hIn => absurd hIn List.not_mem_nil⟩
  show ∃ added, (w.step site.loginFields genToken l).ledger = w.ledger ++ added ∧ _
  rcases l with d | e | ⟨j, raw⟩ | j | j | j | _ | _
  case tick => exact hSame _ rfl
  case engine => exact hSame _ rfl
  case accept =>
    refine hSame _ ?_
    unfold step
    simp only
    split <;> rfl
  case lookup =>
    refine hSame _ ?_
    unfold step
    simp only
    split <;> rfl
  case route =>
    unfold step
    simp only
    split
    · rename_i r name hTask
      unfold routed
      rcases hRoute : r.route
      case login =>
        simp only
        split <;> exact hSame _ rfl
      case logout =>
        rcases hToken : r.token with _ | token
        · exact hSame _ rfl
        · refine ⟨[.revoked token], rfl, fun t hIn => ?_⟩
          obtain rfl := Entry.revoked.inj (List.mem_singleton.1 hIn)
          exact ⟨j, r, name, rfl, hTask, hRoute, hToken⟩
      all_goals exact hSame _ rfl
    · exact hSame _ rfl
  case insert =>
    unfold step
    simp only
    split
    · rename_i username token now hTask
      refine ⟨[.issued token username now], rfl, fun t hIn => ?_⟩
      cases List.mem_singleton.1 hIn
    · exact hSame _ rfl
  case cleanupNow => exact hSame _ rfl
  case cleanupRetain =>
    refine hSame _ ?_
    unfold step
    simp only
    split <;> rfl

/-- Where nobody logs a session out, its token is not revoked. -/
theorem revokes_run {token : Str} {ls : List WebStep} : ∀ {w : WebUi},
    Trace.Along (serve site genToken) (fun w l => ¬w.LogsOut l token) w ls → ∃ added,
      (Trace.run (serve site genToken) w ls).ledger = w.ledger ++ added ∧ .revoked token ∉ added := by
  induction ls with
  | nil => exact fun _ => ⟨[], (List.append_nil _).symm, List.not_mem_nil⟩
  | cons l ls ih =>
    intro w h
    obtain ⟨first, hFirst, hOut⟩ := ledger_step site w l
    obtain ⟨rest, hRest, hNot⟩ := ih h.2
    refine ⟨first ++ rest, ?_, fun hIn => ?_⟩
    · rw [Trace.run_cons, hRest, hFirst, List.append_assoc]
    · exact (List.mem_append.1 hIn).elim (fun hIn => h.1 (hOut token hIn)) hNot

theorem received_run {i : Nat} {r : Request} {ls : List WebStep} (hNot : .lookup i ∉ ls) : ∀ {w : WebUi},
    w.tasks.get i = some (.received r) →
      (Trace.run (serve site genToken) w ls).tasks.get i = some (.received r) := by
  induction ls with
  | nil => exact fun h => h
  | cons l ls ih =>
    intro w h
    rw [List.mem_cons, not_or] at hNot
    have hNext : (w.step site.loginFields genToken l).tasks.get i = some (.received r) :=
      received_step h (Ne.symm hNot.1)
    exact ih hNot.2 hNext

theorem looked_stays {i : Nat} {r : Request} {name : Option Str} {ls : List WebStep} (hNot : .route i ∉ ls) :
    ∀ {w : WebUi}, w.tasks.get i = some (.looked r name) →
      (Trace.run (serve site genToken) w ls).tasks.get i = some (.looked r name) := by
  induction ls with
  | nil => exact fun h => h
  | cons l ls ih =>
    intro w h
    rw [List.mem_cons, not_or] at hNot
    exact ih hNot.2 (looked_step h (Ne.symm hNot.1))

end WebUi

/-- The JSON of a query. -/
def queryBody (db : Option Str) (sql : Str) : Json := .obj [("db", .ofOption db), ("sql", .str sql)]

/-- `serde_json` reads the value it has written. -/
def Site.RoundTrips (site : Site) (v : Json) : Prop := site.readJson (site.writeJson v) = some v

/-- The arm of a query: the statement runs for the user, and its result is the answer. -/
theorem answered_query (w : WebUi) {r : Request} (user : Str) {sql : Str} {db : Option Str}
    (hRead : site.RoundTrips (queryBody db sql)) (hMethod : r.method = "POST") 
    (hPath : r.path = "/api/query") (hBody : r.body = site.writeJson (queryBody db sql))
    (hSql : trim sql ≠ []) :
    w.answered site r (some user) =
      (((execute (site.unixTime w.clock) (trim sql) db user).exec w.engine).1.map fun result =>
          some (httpResponse 200 jsonType (bytes (resultToJson site result))),
        ((execute (site.unixTime w.clock) (trim sql) db user).exec w.engine).2) := by
  have hRoute : r.route = .api := by
    rw [route_api, hMethod, hPath]
    decide
  have hQuery : apiQuery site (site.unixTime w.clock) r.body user =
      resultToJson site <$> execute (site.unixTime w.clock) (trim sql) db user := by
    have hText : ((queryBody db sql).field "sql").asStr = some sql := rfl
    have hDb : ((queryBody db sql).field "db").asStr = db := by rcases db with _ | d <;> rfl
    have hSome : ¬(trim sql).isEmpty = true := by rwa [List.isEmpty_iff]
    unfold apiQuery
    rw [hBody, hRead]
    simp only [hText, hDb, Option.getD_some, if_neg hSome]
    exact bind_pure_comp ..
  have hDispatch : dispatchApi site (site.unixTime w.clock) r user =
      (fun json => httpResponse 200 jsonType (bytes json)) <$>
        apiQuery site (site.unixTime w.clock) r.body user := by
    have hNot : ¬r.method = "GET" := by
      rw [hMethod]
      decide
    unfold dispatchApi
    rw [if_neg fun h => hNot h.1, if_neg fun h => hNot h.1, if_neg fun h => hNot h.1,
      if_pos ⟨hMethod, hPath⟩]
    exact bind_pure_comp ..
  unfold WebUi.answered WebUi.answer
  simp only [hRoute]
  rw [hDispatch, hQuery, Prog.exec_map, Prog.exec_map, Prog.exec_map]
  rcases ((execute (site.unixTime w.clock) (trim sql) db user).exec w.engine).1 with e | result <;> rfl

end Steps

-- ---------------------------------------------------------------------------
-- A browser that signs in and queries
-- ---------------------------------------------------------------------------

section Visits

variable [Platform] (site : Site) {genToken : Nat → Str}

/-- What a browser sends along: other header lines, and other cookies. -/
structure Headers where
  before : List Str
  after : List Str
  cookiesBefore : List Str
  cookiesAfter : List Str
  lines : ∀ l ∈ before ++ after, IsLine l
  noCookie : ∀ l ∈ before, startsWith (toLowercase l) "cookie:" = false
  others : ∀ s ∈ cookiesBefore, IsCookie s ∧ startsWith s "session=" = false
  rest : ∀ s ∈ cookiesAfter, IsCookie s

/-- A query with the session among the cookies. -/
def queryText (headers : Headers) (token body : Str) : Str :=
  requestText "POST" "/api/query" (headers.before ++
    cookieLine (headers.cookiesBefore ++ ("session=" ++ token) :: headers.cookiesAfter) :: headers.after) body

theorem parseRequest_queryText (hLower : LowerAscii) (headers : Headers) {token : Str}
    (hToken : TokenText token) (body : Str) :
    parseRequest (queryText headers token body) = .ok ⟨"POST", "/api/query", body, some token⟩ := by
  have hFirst : cookieInLine "session" ("POST" ++ ' ' :: ("/api/query" ++ " HTTP/1.1")) = .ok none := by
    have hAscii : (("POST" : Str) ++ ' ' :: ("/api/query" ++ " HTTP/1.1")).all
        (fun c => c.toNat < 128) = true := by
      decide
    unfold cookieInLine
    rw [hLower _ fun c hc => of_decide_eq_true (List.all_eq_true.1 hAscii c hc)]
    rfl
  have hBefore : ∀ l ∈ headers.before, cookieInLine "session" l = .ok none := by
    intro l hl
    unfold cookieInLine
    rw [headers.noCookie l hl]
    rfl
  have hCookies := isCookie_all (fun s hs => (headers.others s hs).1) headers.rest hToken
  have hLines : ∀ l ∈ headers.before ++ cookieLine (headers.cookiesBefore ++ ("session=" ++ token) ::
      headers.cookiesAfter) :: headers.after, IsLine l := by
    intro l hl
    rcases List.mem_append.1 hl with hl | hl
    · exact headers.lines l (List.mem_append_left _ hl)
    · rcases List.mem_cons.1 hl with rfl | hl
      · exact isLine_cookieLine hCookies
      · exact headers.lines l (List.mem_append_right _ hl)
  have hPath : (split '?' ("/api/query" : Str)).headD "/" = "/api/query" := by decide
  unfold queryText
  rw [parseRequest_requestText (.of_all (by decide)) (.of_all (by decide)) hLines hFirst hBefore
    (cookieInLine_cookieLine hLower headers.others headers.rest hToken), hPath]

/-- The cookie of the answer to a login is the token it inserts. -/
theorem cookie_of_sends {w : WebUi} {i : Nat} {username fresh token : Str} {now : Nat} {a : List UInt8}
    {reply : WebReply} (hFresh : TokenText fresh)
    (hTask : w.tasks.get i = some (.accepted username fresh now))
    (hSent : w.sends site (.insert i) = some a) (hRead : readWebReply a = some reply)
    (hCookie : reply.cookie = some token) : fresh = token := by
  have hAnswer : w.sends site (.insert i) = some (loginAnswer fresh) := by
    unfold WebUi.sends
    simp only [hTask]
  rw [hAnswer, loginAnswer_eq] at hSent
  obtain rfl := Option.some.inj hSent
  rw [readWebReply_bytes (welcomed_sound hFresh)] at hRead
  obtain rfl := Option.some.inj hRead
  rw [cookie_welcomed hFresh] at hCookie
  exact Option.some.inj hCookie

end Visits

-- ---------------------------------------------------------------------------
-- A login and a query
-- ---------------------------------------------------------------------------

section SignedIn

set_option maxRecDepth 4000

local instance webQueriesPlatform : Platform := tablePlatform []

/-- The JSON of one login, of one query and of its result. -/
def querySite : Site where
  loginHtml := []
  uiHtml := []
  version := "0.3.25"
  mysqlPort := 3306
  webuiPort := 8306
  unixTime clock := clock / 10 ^ 9
  readJson s :=
    if s = "\x7b\"username\":\"admin\",\"password\":\"pw\"\x7d" then
      some (.obj [("password", .str "pw"), ("username", .str "admin")])
    else if s = "\x7b\"db\":null,\"sql\":\"SELECT 1\"\x7d" then some (queryBody none "SELECT 1")
    else if s = "\x7b\"columns\":[\"1\"],\"rows\":[[\"1\"]]\x7d" then
      some (.obj [("columns", .arr [.str "1"]), ("rows", .arr [.arr [.str "1"]])])
    else none
  writeJson v :=
    match v.field "sql" with
    | .str _ => "\x7b\"db\":null,\"sql\":\"SELECT 1\"\x7d"
    | _ => "\x7b\"columns\":[\"1\"],\"rows\":[[\"1\"]]\x7d"
  debugF64 _ := []

/-- A host before the cookies, and another cookie in the line. -/
def browserHeaders : Headers where
  before := ["Host: db"]
  after := ["Content-Type: application/json"]
  cookiesBefore := ["theme=dark"]
  cookiesAfter := []
  lines := by
    have hHost : IsLine ("Host: db" : Str) := isLine_of_all (by decide)
    have hType : IsLine ("Content-Type: application/json" : Str) := isLine_of_all (by decide)
    exact List.forall_mem_cons.2 ⟨hHost, List.forall_mem_singleton.2 hType⟩
  noCookie := List.forall_mem_singleton.2 (by decide)
  others := List.forall_mem_singleton.2 ⟨⟨.of_all (by decide), by decide⟩, by decide⟩
  rest := fun _ h => absurd h List.not_mem_nil

/-- Up to the insertion of the administrator's token. -/
def acceptedAdmin : WebUi :=
  Trace.run (WebUi.serve querySite natToString) (.start adminConfig (Engine.fresh []) 0)
    [.accept 0 loginRequest, .lookup 0, .route 0]

def welcomedAdmin : WebUi := Trace.run (WebUi.serve querySite natToString) acceptedAdmin [.insert 0]

def queryingAdmin : WebUi :=
  Trace.run (WebUi.serve querySite natToString) welcomedAdmin
    [.accept 1 (queryText browserHeaders "0" (querySite.writeJson (queryBody none "SELECT 1")))]

def lookedUpAdmin : WebUi := Trace.run (WebUi.serve querySite natToString) queryingAdmin [.lookup 1]

end SignedIn

end RunAlexDb
