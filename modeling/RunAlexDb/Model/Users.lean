import RunAlexDb.Model.Statements

/-!
# Users — accounts

The account statements, which are cut out of the statement text and never
parsed, and the lookups of the login. A slice of the text that is out of range
or inside a character panics.
-/

namespace RunAlexDb

open Text Platform

variable [Platform]

def doubleSha1 (data : List UInt8) : List UInt8 := sha1 (sha1 data)

-- ---------------------------------------------------------------------------
-- Parsing helpers
-- ---------------------------------------------------------------------------

/-- The text between a leading quote `q` and the next one, and what follows. -/
def quotedIdent (q s : Str) : Rust (Str × Str) := do
  let inner ← orPanic (sliceFrom s 1)
  let stop := ((find inner q).map (· + 1)).getD (byteLen s - 1)
  return (← orPanic (slice s 1 stop), ← orPanic (sliceFrom s (stop + 1)))

/-- The password after IDENTIFIED BY, empty without one. -/
def identifiedBy (rest : Str) : Rust Str :=
  match find (toUppercase rest) "IDENTIFIED BY" with
  | none => pure []
  | some pos => do
    let pw := trim (← orPanic (sliceFrom rest (pos + 13)))
    if startsWith pw "'" then
      let inner ← orPanic (sliceFrom pw 1)
      orPanic (slice pw 1 ((find inner "'").getD (byteLen pw - 1) + 1))
    else return (splitWhitespace pw).headD []

/-- `'username'@'host' [IDENTIFIED BY 'password']`: name and password. -/
def parseUserIdentWithPassword (s : Str) : Rust (Str × Str) := do
  let s := trim s
  let (username, rest) ←
    if startsWith s "'" then quotedIdent "'" s
    else if startsWith s "`" then quotedIdent "`" s
    else
      let stop (c : Char) : Bool := c == '@' || isWhitespace c
      pure (before stop s, s.dropWhile fun c => !stop c)
  -- the host: after the trim it never starts with a quote
  let rest := trimStartMatches (fun c => c == '@' || c == '\'') rest
  let password ← identifiedBy (rest.dropWhile fun c => !isWhitespace c)
  return (username, password)

/-- A user name up to its host, without quotes. -/
def bareUser (rest : Str) : Str :=
  trim (trimMatches '`' (trimMatches '\'' ((split '@' rest).headD rest)))

-- ---------------------------------------------------------------------------
-- CREATE USER, DROP USER, GRANT, REVOKE
-- ---------------------------------------------------------------------------

def userFailed (operation username : Str) : QueryResult :=
  .err 1396 ("Operation " ++ operation ++ " failed for '" ++ username ++ "'@'%'")

/-- The account CREATE USER makes: no database, no writes. -/
def newUser (password : Str) : DbUser where
  passwordSha1Sha1 := doubleSha1 (bytes password)
  allowedDbs := some HashMap.empty
  canWrite := false
  isRoot := false

/-- What follows CREATE USER: name and password. -/
def createUserArgs (sql : Str) : Rust (Str × Str) := do
  let rest := trim (trimStartMatches (fun c => !isWhitespace c) sql)
  let rest ←
    if startsWith (toUppercase rest) "USER" then
      do pure (trimStart (← orPanic (sliceFrom rest 4)))
    else pure rest
  parseUserIdentWithPassword rest

/-- Work on the user table. -/
def onUsers (f : HashMap Str DbUser → QueryResult × HashMap Str DbUser) : EngineM QueryResult :=
  Prog.mk fun e => (.ok (f e.users).1, { e with users := (f e.users).2 })

def execCreateUser (sql : Str) : EngineM QueryResult := do
  let (username, password) ← Prog.ofExcept (createUserArgs sql)
  onUsers fun users =>
    if username.isEmpty then (.err 1064 "CREATE USER: cannot parse username", users)
    else if username = "root" then (userFailed "CREATE USER" "root", users)
    else if users.containsKey username then (userFailed "CREATE USER" username, users)
    else (.ok 0 0, users.insert username (newUser password))

/-- The name DROP USER names. -/
def dropUserArg (sql : Str) : Rust Str := do
  let rest := trimMatches '`' (trimMatches '\'' (trim (← orPanic (sliceFrom sql 9))))
  return bareUser rest

def execDropUser (sql : Str) : EngineM QueryResult := do
  let username ← Prog.ofExcept (dropUserArg sql)
  onUsers fun users =>
    if username = "root" then (.err 1396 "Cannot drop root user", users)
    else if users.containsKey username then (.ok 0 0, users.remove username)
    else (userFailed "DROP USER" username, users)

/-- GRANT. `upper.find(" TO ").ok_or(()).unwrap_err()` panics on every text that
has a TO, so what follows it never runs. -/
def execGrant (sql : Str) : EngineM QueryResult :=
  match find (toUppercase sql) " TO " with
  | some _ => throw .panic
  | none => return .err 1064 "GRANT: syntax error — missing TO"

/-- The user REVOKE names and the database it is about, `none` for all. -/
def revokeArgs (sql : Str) (fromPos : Nat) : Rust (Str × Option Str) := do
  let username := bareUser (trim (← orPanic (sliceFrom sql (fromPos + 6))))
  let privsOn := trim (← orPanic (slice sql 7 fromPos))
  match find (toUppercase privsOn) " ON " with
  | none => return (username, none)
  | some onPos =>
    let onPart := trim (← orPanic (sliceFrom privsOn (onPos + 4)))
    let db := trimMatches '\'' (trimMatches '`' (trim ((split '.' onPart).headD "*")))
    return (username, if db = "*" then none else some db)

/-- An account after REVOKE. -/
def DbUser.revoke (u : DbUser) (db : Option Str) : DbUser :=
  match db with
  | some db => { u with allowedDbs := u.allowedDbs.map fun s => HashMap.remove s db }
  | none => { u with allowedDbs := some HashMap.empty, canWrite := false }

def execRevoke (sql : Str) : EngineM QueryResult :=
  match find (toUppercase sql) " FROM " with
  | none => return .err 1064 "REVOKE: syntax error — missing FROM"
  | some fromPos => do
    let (username, db) ← Prog.ofExcept (revokeArgs sql fromPos)
    let r ← onUsers fun users =>
      if users.containsKey username then (.ok 0 0, users.modify username fun u => u.revoke db)
      else (.err 1396 ("No such user '" ++ username ++ "'"), users)
    bumpIfOk r

-- ---------------------------------------------------------------------------
-- SHOW GRANTS and the login
-- ---------------------------------------------------------------------------

/-- The user SHOW GRANTS asks about, empty when it names none. -/
def showGrantsArg (sql : Str) : Rust Str :=
  match find (toUppercase sql) " FOR " with
  | none => pure []
  | some pos => do
    let rest ← orPanic (sliceFrom sql (pos + 5))
    return trim (trimMatches '`' (trimMatches '\'' ((split '@' (trim rest)).headD [])))

def showGrants (users : HashMap Str DbUser) (forUser : Str) : QueryResult :=
  match users.get forUser with
  | none => .err 1141 ("No such user '" ++ forUser ++ "'")
  | some user =>
    let priv : Str := if user.canWrite then "ALL PRIVILEGES" else "SELECT"
    let account : Str := " TO '" ++ forUser ++ "'@'%'"
    let grants : List Str := match user.allowedDbs with
      | none => ["GRANT " ++ priv ++ " ON *.*" ++ account]
      | some set =>
        if set.keys.isEmpty then ["GRANT USAGE ON *.*" ++ account]
        else set.keys.map fun db => "GRANT " ++ priv ++ " ON `" ++ db ++ "`.*" ++ account
    .rows ["Grants for " ++ forUser ++ "@%"] (grants.map fun g => [some g])

def execShowGrants (sql : Str) : EngineM QueryResult := do
  let forUser ← Prog.ofExcept (showGrantsArg sql)
  let e ← get
  return showGrants e.users forUser

/-- `user_can_access_db`. -/
def Engine.userCanAccessDb (e : Engine) (username db : Str) : Bool :=
  match e.users.get username with
  | none => false
  | some u =>
    if u.isRoot || u.allowedDbs.isNone then true
    else (u.allowedDbs.map fun s => HashSet.contains s db).getD false

/-- Stored hash of a user, for the login. -/
def Engine.lookupUser (e : Engine) (username : Str) : Option (List UInt8 × Bool) :=
  (e.users.get username).map fun u => (u.passwordSha1Sha1, u.isRoot)

end RunAlexDb
