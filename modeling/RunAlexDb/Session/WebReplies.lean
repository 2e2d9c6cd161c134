import RunAlexDb.Lib.Digits
import RunAlexDb.Lib.HeaderBlocks
import RunAlexDb.Lib.Utf8
import RunAlexDb.Model.WebPages
import RunAlexDb.Session.WebSessions

/-!
# WebReplies — what a browser reads of the admin web interface

A reply is a status, fields and a body. The bytes of every answer are a reply that a
browser reads back, with the body as long as `Content-Length` says, and nothing a
request or a table holds gets among the fields. The cookie of a reply is the token the
step inserts.

Main results: `readWebReply_bytes`, `Reads.of_sends` and `replies_run`.
-/

set_option linter.unusedSectionVars false

namespace RunAlexDb

open Text Platform HeaderBlocks Leases

-- ---------------------------------------------------------------------------
-- Replies
-- ---------------------------------------------------------------------------

structure WebReply where
  status : Nat
  reason : Str
  fields : List (Str × Str)
  body : Str
deriving DecidableEq, Repr

namespace WebReply

/-- The first field of that name. -/
def field (name : Str) (r : WebReply) : Option Str := (r.fields.find? fun f => f.1 == name).map Prod.snd

/-- The session a reply sets: what stands before the first semicolon, behind the name. -/
def cookie (r : WebReply) : Option Str :=
  (r.field "Set-Cookie").bind fun v => stripStart "session=" (Text.before (· == ';') v)

def statusLine (r : WebReply) : Str := "HTTP/1.1 " ++ natToString r.status ++ " " ++ r.reason

def bytes (r : WebReply) : List UInt8 := Text.bytes (message r.statusLine r.fields r.body)

/-- The reason is a line, the fields are fields, and the length is that of the body. -/
structure Sound (r : WebReply) : Prop where
  noReturn : '\r' ∉ r.reason
  noFeed : '\n' ∉ r.reason
  fields : ∀ f ∈ r.fields, IsField f
  length : r.field "Content-Length" = some (natToString (byteLen r.body))

end WebReply

/-- Status and reason of the first line. -/
def readStatus (l : Str) : Option (Nat × Str) :=
  (splitOnce ' ' l).bind fun version => (splitOnce ' ' version.2).bind fun code =>
    (parseNat code.1).map fun n => (n, code.2)

/-- What a browser reads: the message, and its body as long as the length field says. -/
def readWebReply (b : List UInt8) : Option WebReply :=
  (readMessage (fromUtf8Lossy b)).bind fun m => (readStatus m.1).bind fun s =>
    let reply : WebReply := ⟨s.1, s.2, m.2.1, m.2.2⟩
    if (reply.field "Content-Length").bind parseNat = some (byteLen reply.body) then some reply else none

theorem readStatus_statusLine (r : WebReply) : readStatus r.statusLine = some (r.status, r.reason) := by
  have hVersion : splitOnce ' ' r.statusLine =
      some (("HTTP/1.1" : Str), natToString r.status ++ ' ' :: r.reason) := by
    have hCut : r.statusLine = ("HTTP/1.1" : Str) ++ ' ' :: (natToString r.status ++ ' ' :: r.reason) := by
      unfold WebReply.statusLine
      simp only [List.append_assoc]
      rfl
    rw [hCut]
    exact splitOnce_append (by decide) _
  have hCode : splitOnce ' ' (natToString r.status ++ ' ' :: r.reason) =
      some (natToString r.status, r.reason) := by
    refine splitOnce_append (fun hIn => ?_) _
    exact absurd (isDigit_natToString hIn) (by decide)
  unfold readStatus
  rw [hVersion, Option.bind_some, hCode, Option.bind_some, parseNat_natToString]
  rfl

theorem isLine_statusLine {r : WebReply} (h : r.Sound) : IsLine r.statusLine := by
  have hStart : IsLine ("HTTP/1.1 " : Str) := isLine_of_all (by decide)
  have hDigits : ∀ c ∈ natToString r.status, c ≠ '\r' ∧ c ≠ '\n' := by
    intro c hc
    have hDigit := isDigit_natToString hc
    refine ⟨?_, ?_⟩ <;> rintro rfl <;> exact absurd hDigit (by decide)
  have hStatus := hStart.append (fun hIn => (hDigits _ hIn).1 rfl) fun hIn => (hDigits _ hIn).2 rfl
  have hBlank := hStatus.append (b := " ") (by decide) (by decide)
  exact hBlank.append h.noReturn h.noFeed

/-- **A sound reply is read as it was sent.** -/
theorem readWebReply_bytes {r : WebReply} (h : r.Sound) : readWebReply r.bytes = some r := by
  unfold readWebReply WebReply.bytes
  rw [fromUtf8Lossy_bytes, readMessage_message (isLine_statusLine h) h.fields, Option.bind_some,
    readStatus_statusLine, Option.bind_some]
  have hLength : (r.field "Content-Length").bind parseNat = some (byteLen r.body) := by
    rw [h.length, Option.bind_some, parseNat_natToString]
  exact if_pos hLength

-- ---------------------------------------------------------------------------
-- The replies of the web interface
-- ---------------------------------------------------------------------------

/-- The reply of `http_response`. -/
def page (status : Nat) (ct body : Str) : WebReply where
  status := status
  reason := statusText status
  fields := [("Content-Type", ct), ("Content-Length", natToString (byteLen body)),
    ("Cache-Control", "no-store"), ("Connection", "close")]
  body := body

/-- The reply of `redirect`. -/
def redirected (location : Str) : WebReply where
  status := 302
  reason := "Found"
  fields := [("Location", location), ("Content-Length", "0"), ("Connection", "close")]
  body := []

/-- The reply of an accepted login. -/
def welcomed (token : Str) : WebReply where
  status := 200
  reason := "OK"
  fields := [("Content-Type", "application/json"), ("Content-Length", "11"),
    ("Set-Cookie", "session=" ++ token ++ "; Path=/; HttpOnly; SameSite=Strict; Max-Age=28800"),
    ("Cache-Control", "no-store"), ("Connection", "close")]
  body := "\x7b\"ok\":true\x7d"

theorem bytes_append (a b : Str) : bytes (a ++ b) = bytes a ++ bytes b := List.flatMap_append ..

/-- The texts between the values of an answer, field by field. -/
theorem typeFieldText : ("\r\nContent-Type: " : Str) = crlf ++ ("Content-Type" ++ ": ") := by decide

theorem lengthFieldText : ("\r\nContent-Length: " : Str) = crlf ++ ("Content-Length" ++ ": ") := by decide

theorem closeFieldsText : ("\r\nCache-Control: no-store\r\nConnection: close\r\n\r\n" : Str) =
    crlf ++ ("Cache-Control" ++ (": " ++ ("no-store" ++
      (crlf ++ ("Connection" ++ (": " ++ ("close" ++ (crlf ++ crlf)))))))) := by
  decide

theorem httpResponse_eq (status : Nat) (ct body : Str) :
    httpResponse status ct (bytes body) = (page status ct body).bytes := by
  unfold httpResponse WebReply.bytes
  rw [← bytes_append, length_bytes, typeFieldText, lengthFieldText, closeFieldsText]
  refine congrArg Text.bytes ?_
  unfold page WebReply.statusLine message
  simp only [List.map_cons, List.map_nil, block_cons, block_nil, fieldLine, List.append_assoc]

theorem redirect_eq (location : Str) : redirect location = (redirected location).bytes := by
  have hStart : ("HTTP/1.1 302 Found\r\nLocation: " : Str) =
      "HTTP/1.1 " ++ (natToString 302 ++ (" " ++ ("Found" ++ (crlf ++ ("Location" ++ ": "))))) := by
    decide
  have hEnd : ("\r\nContent-Length: 0\r\nConnection: close\r\n\r\n" : Str) =
      crlf ++ ("Content-Length" ++ (": " ++ ("0" ++
        (crlf ++ ("Connection" ++ (": " ++ ("close" ++ (crlf ++ (crlf ++ ([] : Str)))))))))) := by
    decide
  unfold redirect WebReply.bytes
  rw [hStart, hEnd]
  refine congrArg Text.bytes ?_
  unfold redirected WebReply.statusLine message
  simp only [List.map_cons, List.map_nil, block_cons, block_nil, fieldLine, List.append_assoc]

theorem loginAnswer_eq (token : Str) : loginAnswer token = (welcomed token).bytes := by
  have hStart : ("HTTP/1.1 200 OK\r\nContent-Type: application/json\r\nContent-Length: " : Str) =
      "HTTP/1.1 " ++ (natToString 200 ++ (" " ++ ("OK" ++ (crlf ++ ("Content-Type" ++ (": " ++
        ("application/json" ++ (crlf ++ ("Content-Length" ++ ": "))))))))) := by
    decide
  have hCookie : ("\r\nSet-Cookie: " : Str) = crlf ++ ("Set-Cookie" ++ ": ") := by decide
  have hAge : ("; Path=/; HttpOnly; SameSite=Strict; Max-Age=28800" : Str) =
      "; Path=/; HttpOnly; SameSite=Strict; Max-Age=" ++ natToString (8 * 3600) := by
    decide
  have hLength : natToString (byteLen ("\x7b\"ok\":true\x7d" : Str)) = "11" := by decide
  unfold loginAnswer WebReply.bytes
  simp only
  rw [hStart, hCookie, hLength, closeFieldsText]
  refine congrArg Text.bytes ?_
  unfold welcomed WebReply.statusLine message
  rw [hAge]
  simp only [List.map_cons, List.map_nil, block_cons, block_nil, fieldLine, List.append_assoc]

-- ---------------------------------------------------------------------------
-- Soundness
-- ---------------------------------------------------------------------------

/-- Hexadecimal digits: no blank, and no semicolon. -/
def TokenText (token : Str) : Prop := ∀ c ∈ token, c ∈ "0123456789abcdef".toList

/-- What holds of the sixteen digits holds in a token. -/
theorem TokenText.all {token : Str} (h : TokenText token) {p : Char → Bool}
    (hDigits : "0123456789abcdef".toList.all p = true) : ∀ c ∈ token, p c = true :=
  fun c hc => List.all_eq_true.1 hDigits c (h c hc)

theorem isField_length (n : Nat) : IsField ("Content-Length", natToString n) := by
  have hDigits : ∀ c ∈ natToString n, isWhitespace c = false :=
    fun c hc => digit_noSpace (isDigit_natToString hc)
  refine .of_plain (.of_all (by decide)) (by decide)
    ⟨fun c hc => hDigits c (List.mem_of_mem_head? hc), fun c hc => hDigits c (List.mem_of_getLast? hc)⟩
    (fun hIn => ?_) fun hIn => ?_
  · exact absurd (hDigits _ hIn) (by decide)
  · exact absurd (hDigits _ hIn) (by decide)

theorem page_sound (status : Nat) {ct : Str} (hType : IsField ("Content-Type", ct)) (body : Str) :
    (page status ct body).Sound := by
  have hReason : IsLine (statusText status) := by
    unfold statusText
    split <;> exact isLine_of_all (by decide)
  refine ⟨hReason.noReturn, hReason.noFeed, ?_, rfl⟩
  have hControl : IsField ("Cache-Control", "no-store") := .of_all (by decide)
  have hClose : IsField ("Connection", "close") := .of_all (by decide)
  simp only [page, List.forall_mem_cons, List.not_mem_nil, false_implies, implies_true, and_true]
  exact ⟨hType, isField_length _, hControl, hClose⟩

theorem redirected_sound {location : Str} (hLocation : IsField ("Location", location)) :
    (redirected location).Sound := by
  have hReason : '\r' ∉ ("Found" : Str) ∧ '\n' ∉ ("Found" : Str) := by decide
  have hEmpty : ("0" : Str) = natToString (byteLen []) := by decide
  refine ⟨hReason.1, hReason.2, ?_, congrArg some hEmpty⟩
  have hLength : IsField ("Content-Length", "0") := .of_all (by decide)
  have hClose : IsField ("Connection", "close") := .of_all (by decide)
  simp only [redirected, List.forall_mem_cons, List.not_mem_nil, false_implies, implies_true, and_true]
  exact ⟨hLocation, hLength, hClose⟩

theorem welcomed_sound {token : Str} (h : TokenText token) : (welcomed token).Sound := by
  have hReason : '\r' ∉ ("OK" : Str) ∧ '\n' ∉ ("OK" : Str) := by decide
  have hBody : ("11" : Str) = natToString (byteLen ("\x7b\"ok\":true\x7d" : Str)) := by decide
  refine ⟨hReason.1, hReason.2, ?_, congrArg some hBody⟩
  have hType : IsField ("Content-Type", "application/json") := .of_all (by decide)
  have hLength : IsField ("Content-Length", "11") := .of_all (by decide)
  have hControl : IsField ("Cache-Control", "no-store") := .of_all (by decide)
  have hClose : IsField ("Connection", "close") := .of_all (by decide)
  have hCookie : IsField ("Set-Cookie", "session=" ++ token ++
      "; Path=/; HttpOnly; SameSite=Strict; Max-Age=28800") := by
    have hNone : ∀ c, c ∉ ("session=" : Str) → c ∉ "0123456789abcdef".toList →
        c ∉ ("; Path=/; HttpOnly; SameSite=Strict; Max-Age=28800" : Str) →
          c ∉ ("session=" : Str) ++ token ++ "; Path=/; HttpOnly; SameSite=Strict; Max-Age=28800" := by
      intro c hStart hHex hEnd hIn
      rcases List.mem_append.1 hIn with hIn | hIn
      · exact (List.mem_append.1 hIn).elim hStart fun hIn => hHex (h c hIn)
      · exact hEnd hIn
    refine .of_plain (.of_all (by decide)) (by decide) ⟨fun c hHead => ?_, fun c hLast => ?_⟩
      (hNone _ (by decide) (by decide) (by decide)) (hNone _ (by decide) (by decide) (by decide))
    · obtain rfl : 's' = c := Option.some.inj hHead
      rfl
    · rw [List.getLast?_append_of_ne_nil _ (by decide)] at hLast
      obtain rfl : '0' = c := Option.some.inj hLast
      rfl
  simp only [welcomed, List.forall_mem_cons, List.not_mem_nil, false_implies, implies_true, and_true]
  exact ⟨hType, hLength, hCookie, hControl, hClose⟩

theorem cookie_page (status : Nat) (ct body : Str) : (page status ct body).cookie = none := rfl

theorem cookie_redirected (location : Str) : (redirected location).cookie = none := rfl

theorem cookie_welcomed {token : Str} (h : TokenText token) : (welcomed token).cookie = some token := by
  have hField : (welcomed token).field "Set-Cookie" =
      some ("session=" ++ token ++ "; Path=/; HttpOnly; SameSite=Strict; Max-Age=28800") := rfl
  have hName : ("session=" : Str).all (fun c => !c == ';') = true := by decide
  have hStart : ∀ c ∈ ("session=" : Str) ++ token, (!c == ';') = true := by
    intro c hIn
    rcases List.mem_append.1 hIn with hIn | hIn
    · exact List.all_eq_true.1 hName c hIn
    · exact h.all (p := fun c => !c == ';') (by decide) c hIn
  have hBefore : Text.before (· == ';') ("session=" ++ token ++
      "; Path=/; HttpOnly; SameSite=Strict; Max-Age=28800") = "session=" ++ token := by
    unfold Text.before
    rw [List.takeWhile_append_of_pos hStart]
    exact List.append_nil _
  unfold WebReply.cookie
  rw [hField, Option.bind_some, hBefore]
  rfl

-- ---------------------------------------------------------------------------
-- Steps
-- ---------------------------------------------------------------------------

/-- A page or a redirection: a reply that sets no session. -/
def PlainAnswer (a : List UInt8) : Prop :=
  ∃ reply : WebReply, a = reply.bytes ∧ reply.Sound ∧ reply.status ∈ [200, 204, 302, 400, 401, 404] ∧
    reply.cookie = none

theorem plainAnswer_page {status : Nat} {ct : Str} (hStatus : status ∈ [200, 204, 302, 400, 401, 404])
    (hType : IsField ("Content-Type", ct)) (body : Str) :
    PlainAnswer (httpResponse status ct (bytes body)) :=
  ⟨page status ct body, httpResponse_eq .., page_sound status hType body, hStatus, cookie_page ..⟩

theorem plainAnswer_redirect {location : Str} (hLocation : IsField ("Location", location)) :
    PlainAnswer (redirect location) :=
  ⟨redirected location, redirect_eq _, redirected_sound hLocation, by simp [redirected],
    cookie_redirected _⟩

theorem isField_html : IsField ("Content-Type", htmlType) := .of_all (by decide)

theorem isField_json : IsField ("Content-Type", jsonType) := .of_all (by decide)

theorem isField_text : IsField ("Content-Type", "text/plain") := .of_all (by decide)

section Steps

variable [Platform] (site : Site)

theorem dispatchApi_plain (now : Nat) (r : Request) (user : Str) :
    Prog.Returns PlainAnswer (dispatchApi site now r user) := by
  have hPage : ∀ body : Str, PlainAnswer (httpResponse 200 jsonType (bytes body)) :=
    plainAnswer_page (by simp) isField_json
  unfold dispatchApi
  split_ifs
  · exact .bind fun e => .pure (hPage _)
  · exact .bind fun e => .pure (hPage _)
  · exact .bind fun e => .pure (hPage _)
  · exact .bind fun json => .pure (hPage _)
  · exact .pure (plainAnswer_page (by simp) isField_json _)

theorem loginRefusal_plain (body : Str) : PlainAnswer (loginRefusal site body) := by
  unfold loginRefusal
  split
  · exact plainAnswer_page (by simp) isField_json _
  · exact plainAnswer_page (by simp) isField_json _

/-- Every arm sends an ordinary reply, or nothing. -/
theorem answer_plain (w : WebUi) (r : Request) (username : Option Str) :
    Prog.Returns (fun o => ∀ a, o = some a → PlainAnswer a) (w.answer site r username) := by
  have hPure : ∀ a, PlainAnswer a → Prog.Returns (fun o => ∀ b, o = some b → PlainAnswer b)
      (pure (some a) : EngineM (Option (List UInt8))) :=
    fun a h => .pure fun b hb => Option.some.inj hb ▸ h
  have hLogin : PlainAnswer (redirect "/login") := plainAnswer_redirect (.of_all (by decide))
  have hUi : PlainAnswer (redirect "/ui") := plainAnswer_redirect (.of_all (by decide))
  unfold WebUi.answer
  rcases r.route
  case loginPage => exact hPure _ (plainAnswer_page (by simp) isField_html _)
  case login =>
    rcases loginUser site.loginFields w.config w.engine r.body with _ | user
    · exact hPure _ (loginRefusal_plain site _)
    · exact .pure fun b hb => (Option.some_ne_none b hb.symm).elim
  case logout => exact hPure _ hLogin
  case toUi => exact hPure _ hUi
  case ui =>
    simp only
    split_ifs
    · exact hPure _ (plainAnswer_page (by simp) isField_html _)
    · exact hPure _ hLogin
  case options => exact hPure _ (plainAnswer_page (by simp) isField_text [])
  case api =>
    rcases username with _ | user
    · exact hPure _ (plainAnswer_page (by simp) isField_json _)
    · exact .map (dispatchApi_plain site _ r user) fun a h b hb => Option.some.inj hb ▸ h
  case notFound => exact hPure _ (plainAnswer_page (by simp) isField_text _)

/-- **What a step sends**: an ordinary reply, or the welcome with the token it inserts. -/
theorem sends_cases {w : WebUi} {l : WebStep} {a : List UInt8} (h : w.sends site l = some a) :
    (∃ i, l = .route i) ∧ PlainAnswer a ∨ ∃ i username token now, l = .insert i ∧
      w.tasks.get i = some (.accepted username token now) ∧ a = (welcomed token).bytes := by
  unfold WebUi.sends at h
  split at h
  · rename_i i
    split at h
    · rename_i r username hTask
      refine .inl ⟨⟨i, rfl⟩, ?_⟩
      rcases hRun : (w.answered site r username).1 with e | o
      · rw [hRun] at h
        cases h
      · rw [hRun] at h
        exact answer_plain site w r username w.engine o hRun a h
    · cases h
  · rename_i i
    split at h
    · rename_i username token now hTask
      refine .inr ⟨i, username, token, now, rfl, hTask, ?_⟩
      rw [← Option.some.inj h]
      exact loginAnswer_eq token
    · cases h
  · cases h

-- ---------------------------------------------------------------------------
-- Runs
-- ---------------------------------------------------------------------------

variable {genToken : Nat → Str}

/-- A step with all it does is the step of the map, and one of the engine. -/
theorem serve_eq (w : WebUi) (l : WebStep) : w.serve site genToken l =
    (w.step site.loginFields genToken l).step site.loginFields genToken
      (.engine (w.engineAfter site l)) :=
  rfl

theorem serve_tracks {w : WebUi} (h : w.Tracks) (l : WebStep) : (w.serve site genToken l).Tracks := by
  rw [serve_eq]
  exact WebUi.tracks_step (WebUi.tracks_step h l) _

theorem serve_tokensApart (hInj : Function.Injective genToken) {w : WebUi} (h : w.TokensApart genToken)
    (l : WebStep) : (w.serve site genToken l).TokensApart genToken := by
  rw [serve_eq]
  exact WebUi.tokensApart_step hInj (WebUi.tokensApart_step hInj h l) _

/-- Runs keep the map on the ledger and the tokens apart. -/
theorem served_sound (hInj : Function.Injective genToken) {w : WebUi}
    (h : w.Tracks ∧ w.TokensApart genToken) (ls : List WebStep) :
    (Trace.run (WebUi.serve site genToken) w ls).Tracks ∧
      (Trace.run (WebUi.serve site genToken) w ls).TokensApart genToken := by
  have hStep : ∀ w l, WebUi.Tracks w ∧ WebUi.TokensApart genToken w →
      (w.serve site genToken l).Tracks ∧ (w.serve site genToken l).TokensApart genToken :=
    fun w l h => ⟨serve_tracks site h.1 l, serve_tokensApart site hInj h.2 l⟩
  exact Trace.invariant_run_all hStep h ls

theorem start_sound (cfg : WebConfig) (e : Engine) (clock : Nat) :
    (WebUi.start cfg e clock).Tracks ∧ (WebUi.start cfg e clock).TokensApart genToken :=
  ⟨WebUi.tracks_start cfg e clock, WebUi.tokensApart_start cfg e clock⟩

end Steps

-- ---------------------------------------------------------------------------
-- A login
-- ---------------------------------------------------------------------------

section Welcomed

set_option maxRecDepth 2000

local instance webRepliesPlatform : Platform := tablePlatform []

/-- The administrator's login is read as JSON, and nothing else. -/
def loginSite : Site where
  loginHtml := []
  uiHtml := []
  version := "0.3.25"
  mysqlPort := 3306
  webuiPort := 8306
  unixTime clock := clock / 10 ^ 9
  readJson s :=
    if s = "\x7b\"username\":\"admin\",\"password\":\"pw\"\x7d" then
      some (.obj [("password", .str "pw"), ("username", .str "admin")])
    else none
  writeJson _ := []
  debugF64 _ := []

theorem tokenText_natToString (n : Nat) : TokenText (natToString n) := by
  intro c hc
  have hRange : 48 ≤ c.toNat ∧ c.toNat ≤ 57 := digit_le (isDigit_natToString hc)
  have hTable : ∀ k : Fin 10, Char.ofNat (48 + k) ∈ "0123456789abcdef".toList := by decide
  have hIn := hTable ⟨c.toNat - 48, by omega⟩
  have hSelf : 48 + (c.toNat - 48) = c.toNat := by omega
  rwa [hSelf, Char.ofNat_toNat] at hIn

end Welcomed

end RunAlexDb
