import RunAlexDb.Model.Execute
import RunAlexDb.Model.WebUi

/-!
# WebPages — what the admin web interface answers

The bytes of a response, the JSON behind the API routes, and the web interface
with its answers: a step of `WebUi.step`, the engine an API query leaves, and what
goes out on the connection.
-/

namespace RunAlexDb

open Text Platform

-- ---------------------------------------------------------------------------
-- JSON
-- ---------------------------------------------------------------------------

/-- A value of `serde_json`. A number is the text it prints as; an object has its
fields in the order of their keys. -/
inductive Json
  | null
  | bool (b : Bool)
  | num (digits : Str)
  | str (s : Str)
  | arr (items : List Json)
  | obj (fields : List (Str × Json))

namespace Json

/-- `v[key]`: null for a key that is not there and for what is no object. -/
def field (key : Str) : Json → Json
  | .obj fields => ((fields.find? fun f => f.1 == key).map Prod.snd).getD .null
  | _ => .null

def asStr : Json → Option Str
  | .str s => some s
  | _ => none

def ofNat (n : Nat) : Json := .num (natToString n)

def ofOption : Option Str → Json
  | none => .null
  | some s => .str s

end Json

/-- What the web interface takes from outside: the two pages, its package version,
the ports it names, the wall clock at an instant, `serde_json` and the debug text
of a float. -/
structure Site where
  loginHtml : Str
  uiHtml : Str
  version : Str
  mysqlPort : Nat
  webuiPort : Nat
  unixTime : Nat → Nat
  /-- `serde_json::from_str`. -/
  readJson : Str → Option Json
  /-- `to_string` of a value. -/
  writeJson : Json → Str
  debugF64 : F64 → Str

/-- User name and password of a login body, as `WebUi.step` takes them. -/
def Site.loginFields (site : Site) (body : Str) : Option (Option Str × Option Str) :=
  (site.readJson body).map fun v => ((v.field "username").asStr, (v.field "password").asStr)

-- ---------------------------------------------------------------------------
-- Responses
-- ---------------------------------------------------------------------------

def statusText : Nat → Str
  | 200 => "OK"
  | 204 => "No Content"
  | 301 => "Moved Permanently"
  | 400 => "Bad Request"
  | 401 => "Unauthorized"
  | 404 => "Not Found"
  | _ => "OK"

def httpResponse (status : Nat) (ct : Str) (body : List UInt8) : List UInt8 :=
  bytes ("HTTP/1.1 " ++ natToString status ++ " " ++ statusText status ++ "\r\nContent-Type: " ++ ct ++
    "\r\nContent-Length: " ++ natToString body.length ++
    "\r\nCache-Control: no-store\r\nConnection: close\r\n\r\n") ++ body

def redirect (location : Str) : List UInt8 :=
  bytes ("HTTP/1.1 302 Found\r\nLocation: " ++ location ++
    "\r\nContent-Length: 0\r\nConnection: close\r\n\r\n")

def htmlType : Str := "text/html; charset=utf-8"

def jsonType : Str := "application/json"

/-- The answer of `handle_login` to a login it accepts. -/
def loginAnswer (token : Str) : List UInt8 :=
  let cookie : Str := "session=" ++ token ++ "; Path=/; HttpOnly; SameSite=Strict; Max-Age=" ++
    natToString (8 * 3600)
  let body : Str := "\x7b\"ok\":true\x7d"
  bytes ("HTTP/1.1 200 OK\r\nContent-Type: application/json\r\nContent-Length: " ++
    natToString (byteLen body) ++ "\r\nSet-Cookie: " ++ cookie ++
    "\r\nCache-Control: no-store\r\nConnection: close\r\n\r\n" ++ body)

/-- The answer of `handle_login` where it accepts nobody. -/
def loginRefusal (site : Site) (body : Str) : List UInt8 :=
  match site.readJson body with
  | none => httpResponse 400 jsonType (bytes "\x7b\"error\":\"Bad request\"\x7d")
  | some _ => httpResponse 401 jsonType (bytes "\x7b\"error\":\"Invalid username or password\"\x7d")

-- ---------------------------------------------------------------------------
-- The API
-- ---------------------------------------------------------------------------

section Api

variable [Platform] (site : Site)

/-- The debug text of a value; nobody asks for the one of a text. -/
def debugValue : Value → Str
  | .null => "Null"
  | .int i => "Int(" ++ i64ToString i ++ ")"
  | .float f => "Float(" ++ site.debugF64 f ++ ")"
  | .text s => s
  | .bytes b => "Bytes([" ++ join ", " (b.map fun x => natToString x.toNat) ++ "])"

/-- The cell of a row of values: a text is itself, another value its debug text. -/
def webCell : Value → Option Str
  | .null => none
  | v => some (v.asStr.getD (debugValue site v))

def rowsJson (rows : List TextRow) : Json := .arr (rows.map fun row => .arr (row.map Json.ofOption))

def resultValue : QueryResult → Json
  | .ok affected insertId =>
    .obj [("affected", .ofNat affected.toNat), ("insert_id", .ofNat insertId.toNat), ("ok", .bool true)]
  | .err code message => .obj [("code", .ofNat code), ("error", .bool true), ("message", .str message)]
  | .rows columns rows => .obj [("columns", .arr (columns.map .str)), ("rows", rowsJson rows)]
  | .valueRows columns rows =>
    .obj [("columns", .arr (columns.map .str)), ("rows", rowsJson (rows.map fun row => row.map (webCell site)))]

def resultToJson (result : QueryResult) : Str := site.writeJson (resultValue site result)

def apiSystem (e : Engine) (user : Str) : Str :=
  site.writeJson (.obj [
    ("databases", .ofNat e.databases.size),
    ("logged_user", .str user),
    ("mysql_port", .ofNat site.mysqlPort),
    ("tables", .ofNat ((e.databases.values.map fun d => d.tables.size).sum)),
    ("version", .str site.version),
    ("webui_port", .ofNat site.webuiPort)])

def apiDatabases (e : Engine) : Str :=
  site.writeJson (.arr ((e.databases.keys.filter isListed).map .str))

/-- The databases a user may use, as the page shows them. -/
def dbsText (u : DbUser) : Str :=
  match u.allowedDbs with
  | none => "ALL"
  | some s => if s.keys.isEmpty then "none" else join ", " s.keys

def apiUsers (e : Engine) : Str :=
  site.writeJson (.arr (e.users.entries.map fun p => .obj [
    ("can_write", .bool p.2.canWrite),
    ("dbs", .str (dbsText p.2)),
    ("username", .str p.1)]))

def apiQuery (now : Nat) (body user : Str) : EngineM Str :=
  match site.readJson body with
  | none => pure "\x7b\"error\":true,\"code\":1064,\"message\":\"Bad JSON\"\x7d"
  | some v =>
    let sql := trim ((v.field "sql").asStr.getD [])
    if sql.isEmpty then pure "\x7b\"ok\":true,\"affected\":0\x7d"
    else do
      let result ← execute now sql (v.field "db").asStr user
      return resultToJson site result

def dispatchApi (now : Nat) (r : Request) (user : Str) : EngineM (List UInt8) := do
  if r.method = "GET" ∧ r.path = "/api/system" then
    return httpResponse 200 jsonType (bytes (apiSystem site (← get) user))
  else if r.method = "GET" ∧ r.path = "/api/databases" then
    return httpResponse 200 jsonType (bytes (apiDatabases site (← get)))
  else if r.method = "GET" ∧ r.path = "/api/users" then
    return httpResponse 200 jsonType (bytes (apiUsers site (← get)))
  else if r.method = "POST" ∧ r.path = "/api/query" then
    return httpResponse 200 jsonType (bytes (← apiQuery site now r.body user))
  else return httpResponse 404 jsonType (bytes "\x7b\"error\":\"Not found\"\x7d")

end Api

-- ---------------------------------------------------------------------------
-- The web interface with its answers
-- ---------------------------------------------------------------------------

namespace WebUi

variable [Platform]

/-- The arms of the match on the route, for the user of the request's session; an
accepted login is answered when its token is inserted. -/
def answer (site : Site) (w : WebUi) (r : Request) (username : Option Str) :
    EngineM (Option (List UInt8)) :=
  match r.route with
  | .loginPage => pure (some (httpResponse 200 htmlType (bytes site.loginHtml)))
  | .login =>
    match loginUser site.loginFields w.config w.engine r.body with
    | none => pure (some (loginRefusal site r.body))
    | some _ => pure none
  | .logout => pure (some (redirect "/login"))
  | .toUi => pure (some (redirect "/ui"))
  | .ui =>
    if username.isSome then pure (some (httpResponse 200 htmlType (bytes site.uiHtml)))
    else pure (some (redirect "/login"))
  | .options => pure (some (httpResponse 204 "text/plain" []))
  | .api =>
    match username with
    | none => pure (some (httpResponse 401 jsonType (bytes "\x7b\"error\":\"Unauthorized\"\x7d")))
    | some user => some <$> dispatchApi site (site.unixTime w.clock) r user
  | .notFound => pure (some (httpResponse 404 "text/plain" (bytes "Not found")))

/-- What the arm of a request does, and the engine it leaves. A panic takes the
task down, and nothing is sent. -/
def answered (site : Site) (w : WebUi) (r : Request) (username : Option Str) :
    Except Fault (Option (List UInt8)) × Engine :=
  (w.answer site r username).exec w.engine

/-- What goes out with a step. -/
def sends (site : Site) (w : WebUi) : WebStep → Option (List UInt8)
  | .route i =>
    match w.tasks.get i with
    | some (.looked r username) => ((w.answered site r username).1.toOption).join
    | _ => none
  | .insert i =>
    match w.tasks.get i with
    | some (.accepted _ token _) => some (loginAnswer token)
    | _ => none
  | _ => none

/-- The engine after a step. -/
def engineAfter (site : Site) (w : WebUi) : WebStep → Engine
  | .engine e => e
  | .route i =>
    match w.tasks.get i with
    | some (.looked r username) => (w.answered site r username).2
    | _ => w.engine
  | _ => w.engine

/-- One step with all it does: the map and the tasks of `step`, and the engine. -/
def serve (site : Site) (genToken : Nat → Str) (w : WebUi) (l : WebStep) : WebUi :=
  { w.step site.loginFields genToken l with engine := w.engineAfter site l }

end WebUi

end RunAlexDb
