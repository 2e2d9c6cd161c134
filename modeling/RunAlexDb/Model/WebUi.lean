import RunAlexDb.Lib.Leases
import RunAlexDb.Model.Users

/-!
# WebUi — the admin web interface

What a request says, which route it takes, and the session map that login,
logout, lookup and the hourly cleanup work on. A connection is a task of three
steps at most, each with one access to the map; the steps of all tasks interleave
as they like.
-/

namespace RunAlexDb

open Text Platform

-- ---------------------------------------------------------------------------
-- Requests
-- ---------------------------------------------------------------------------

section Requests

variable [Platform]

/-- `str::strip_prefix`. -/
def stripStart (pat s : Str) : Option Str := if startsWith s pat then some (s.drop pat.length) else none

/-- The cookie of that name in one header line. -/
def cookieInLine (name line : Str) : Rust (Option Str) :=
  if startsWith (toLowercase line) "cookie:" then do
    let rest ← orPanic (sliceFrom line 7)
    return (split ';' rest).findSome? fun part => (stripStart (name ++ "=") (trim part)).map trim
  else pure none

/-- The first line that has the cookie gives it. -/
def extractCookie (name : Str) : List Str → Rust (Option Str)
  | [] => pure none
  | line :: rest => do
    match ← cookieInLine name line with
    | some val => return some val
    | none => extractCookie name rest

/-- What `run` takes out of a request. -/
structure Request where
  method : Str
  path : Str
  body : Str
  token : Option Str
deriving DecidableEq, Repr

/-- The request of a text; the text is what one read of the connection gave. -/
def parseRequest (raw : Str) : Rust Request := do
  let words := splitWhitespace ((lines raw).headD [])
  let path : Str := (words[1]?).getD "/"
  let token ← extractCookie "session" (lines raw)
  return {
    method := (words[0]?).getD "GET"
    path := (split '?' path).headD "/"
    body := (after "\r\n\r\n" raw).getD []
    token := token }

end Requests

/-- The arms of the match on method and path, in order. -/
inductive Route
  | loginPage | login | logout | toUi | ui | options | api | notFound
deriving DecidableEq, Repr

def Request.route (r : Request) : Route :=
  if r.method = "GET" ∧ r.path = "/login" then .loginPage
  else if r.method = "POST" ∧ r.path = "/login" then .login
  else if r.method = "POST" ∧ r.path = "/logout" then .logout
  else if r.method = "GET" ∧ (r.path = "/" ∨ r.path = "/index.html") then .toUi
  else if r.method = "GET" ∧ r.path = "/ui" then .ui
  else if r.method = "OPTIONS" then .options
  else if startsWith r.path "/api/" then .api
  else .notFound

-- ---------------------------------------------------------------------------
-- Logins
-- ---------------------------------------------------------------------------

/-- The settings the web interface looks at. -/
structure WebConfig where
  webuiAdminUser : Str
  webuiAdminPassword : Str
deriving DecidableEq, Repr

section Logins

variable [Platform]

/-- A login against the user table. -/
def Engine.verifyWebuiPassword (e : Engine) (username password : Str) : Bool :=
  match e.users.get username with
  | none => false
  | some u => u.passwordSha1Sha1 == doubleSha1 (bytes password)

/-- The administrator of the configuration, or a user of the table. -/
def verifyLogin (cfg : WebConfig) (e : Engine) (username password : Str) : Bool :=
  (username == cfg.webuiAdminUser && password == cfg.webuiAdminPassword) ||
    e.verifyWebuiPassword username password

/-- The user of a login body that is accepted. The body is read as JSON by
`fields`: user name and password, each none when it is no text. -/
def loginUser (fields : Str → Option (Option Str × Option Str)) (cfg : WebConfig) (e : Engine)
    (body : Str) : Option Str :=
  (fields body).bind fun v =>
    let username := trim (v.1.getD [])
    let password := v.2.getD []
    if username.isEmpty || !verifyLogin cfg e username password then none else some username

end Logins

-- ---------------------------------------------------------------------------
-- The session map
-- ---------------------------------------------------------------------------

/-- Eight hours, in nanoseconds. -/
def sessionTtl : Nat := 8 * 3600 * 10 ^ 9

structure SessionEntry where
  username : Str
  expires : Nat
deriving DecidableEq, Repr

abbrev SessionStore := HashMap Str SessionEntry

/-- `session_user`: an entry that has run out goes. -/
def sessionUser (now : Nat) (token : Str) (sessions : SessionStore) : Option Str × SessionStore :=
  match sessions.get token with
  | some entry =>
    if now < entry.expires then (some entry.username, sessions) else (none, sessions.remove token)
  | none => (none, sessions)

-- ---------------------------------------------------------------------------
-- The server
-- ---------------------------------------------------------------------------

/-- Where a connection's task is. -/
inductive Task
  /-- The request is read. -/
  | received (request : Request)
  /-- Its session has been looked up. -/
  | looked (request : Request) (username : Option Str)
  /-- `handle_login` has accepted and has yet to insert the token. -/
  | accepted (username token : Str) (now : Nat)
deriving DecidableEq, Repr

/-- The web interface. `ledger` is the log of logins and logouts; nothing reads it. -/
structure WebUi where
  config : WebConfig
  engine : Engine
  clock : Nat
  /-- Tokens drawn so far. -/
  drawn : Nat
  sessions : SessionStore
  tasks : HashMap Nat Task
  /-- The time a cleanup has read, before it takes the map. -/
  cleanup : Option Nat
  ledger : List (Leases.Entry Str Str)

/-- One step, of the task named, of the cleanup, or of what is around. -/
inductive WebStep
  /-- Time passes. -/
  | tick (by_ : Nat)
  /-- Somebody changes the engine. -/
  | engine (e : Engine)
  /-- A new connection and its request. -/
  | accept (i : Nat) (raw : Str)
  /-- `session_user`. -/
  | lookup (i : Nat)
  /-- The match on the route. -/
  | route (i : Nat)
  /-- The insertion of `handle_login`. -/
  | insert (i : Nat)
  | cleanupNow
  | cleanupRetain

/-- The task a step belongs to. -/
def WebStep.task : WebStep → Option Nat
  | .accept i _ => some i
  | .lookup i => some i
  | .route i => some i
  | .insert i => some i
  | _ => none

namespace WebUi

variable [Platform]

/-- The lookup of a request's cookie, if it has one. -/
def lookUp (w : WebUi) (r : Request) : Option Str × SessionStore :=
  match r.token with
  | none => (none, w.sessions)
  | some token => sessionUser w.clock token w.sessions

/-- A task is at its end. -/
def finish (w : WebUi) (i : Nat) : WebUi := { w with tasks := w.tasks.remove i }

/-- The arm of a request whose session is looked up. An API route answers, with
or without `dispatch_api`, and leaves the map. -/
def routed (fields : Str → Option (Option Str × Option Str)) (genToken : Nat → Str) (w : WebUi)
    (i : Nat) (r : Request) : WebUi :=
  match r.route with
  | .login =>
    match loginUser fields w.config w.engine r.body with
    | none => w.finish i
    | some username =>
      { w with
        drawn := w.drawn + 1
        tasks := w.tasks.insert i (.accepted username (genToken w.drawn) w.clock) }
  | .logout =>
    match r.token with
    | none => w.finish i
    | some token =>
      { w.finish i with
        sessions := w.sessions.remove token
        ledger := w.ledger ++ [.revoked token] }
  | _ => w.finish i

/-- One step; a step that is not the task's next does nothing. -/
def step (fields : Str → Option (Option Str × Option Str)) (genToken : Nat → Str) (w : WebUi) :
    WebStep → WebUi
  | .tick d => { w with clock := w.clock + d }
  | .engine e => { w with engine := e }
  | .accept i raw =>
    match w.tasks.get i, parseRequest raw with
    | none, .ok r => { w with tasks := w.tasks.insert i (.received r) }
    | _, _ => w
  | .lookup i =>
    match w.tasks.get i with
    | some (.received r) =>
      { w with
        sessions := (w.lookUp r).2
        tasks := w.tasks.insert i (.looked r (w.lookUp r).1) }
    | _ => w
  | .route i =>
    match w.tasks.get i with
    | some (.looked r _) => w.routed fields genToken i r
    | _ => w
  | .insert i =>
    match w.tasks.get i with
    | some (.accepted username token now) =>
      { w.finish i with
        sessions := w.sessions.insert token ⟨username, now + sessionTtl⟩
        ledger := w.ledger ++ [.issued token username now] }
    | _ => w
  | .cleanupNow => { w with cleanup := some w.clock }
  | .cleanupRetain =>
    match w.cleanup with
    | none => w
    | some now =>
      { w with
        sessions := w.sessions.retain fun _ entry => now < entry.expires
        cleanup := none }

/-- `dispatch_api` is called, for this user. -/
def dispatches (w : WebUi) (l : WebStep) (username : Str) : Prop :=
  ∃ i r, l = .route i ∧ w.tasks.get i = some (.looked r (some username)) ∧ r.route = .api

/-- The web interface as `run` starts it. -/
def start (cfg : WebConfig) (e : Engine) (clock : Nat) : WebUi where
  config := cfg
  engine := e
  clock := clock
  drawn := 0
  sessions := HashMap.empty
  tasks := HashMap.empty
  cleanup := none
  ledger := []

end WebUi

end RunAlexDb
