import RunAlexDb.Model.Protocol
import RunAlexDb.Model.Users

/-!
# Auth — the native-password check and the handshake response

What a client's first packet says (`parseHandshake`) and whether its answer to
the scramble is right (`authOk`).
-/

namespace RunAlexDb

open Text Platform

variable [Platform]

/-- The settings a session looks at. -/
structure Config where
  rootPassword : Str
deriving DecidableEq, Repr

def xorBytes (a b : Bytes) : Bytes := List.zipWith (· ^^^ ·) a b

/-- `mysql_native_password` against the password itself. -/
def verifyNativePassword (password : Str) (scramble response : Bytes) : Bool :=
  if response.isEmpty then password.isEmpty
  else
    let hash1 := sha1 (bytes password)
    let expected := sha1 (scramble ++ sha1 hash1)
    response.length == 20 && xorBytes response expected == hash1

/-- `mysql_native_password` against the stored double hash. -/
def verifyNativePasswordHash (hash2 scramble response : Bytes) : Bool :=
  if response.isEmpty then hash2.all (· == 0)
  else response.length == 20 && sha1 (xorBytes response (sha1 (scramble ++ hash2))) == hash2

/-- What a handshake response says. -/
structure Handshake where
  user : Str
  authResponse : Bytes
  database : Option Str
deriving DecidableEq, Repr

/-- Authentication plugin names, which are no database names. -/
def authPlugins : List Str :=
  ["mysql_native_password", "sha256_password", "caching_sha2_password", "mysql_clear_password",
    "authentication_windows_client"]

def isDatabaseName (name : Str) : Bool :=
  !name.isEmpty && !authPlugins.any fun p => eqIgnoreAsciiCase name p

/-- The database field: up to its NUL, or to the end when there is none. -/
def databaseField (rest : Bytes) : Option Str :=
  let name : Str :=
    if rest.contains 0 then trim (fromUtf8Lossy (rest.takeWhile (· != 0)))
    else trimMatches '\x00' (trim (fromUtf8Lossy rest))
  if isDatabaseName name then some name else none

/-- The fields of a payload of at least 33 bytes. A user name without its NUL
makes the slice after it panic. -/
def parseHandshake (payload : Bytes) : Rust Handshake :=
  let caps := leNat (payload.take 4)
  let rest := payload.drop 32
  let name := trimMatches '`' (fromUtf8Lossy (rest.takeWhile (· != 0)))
  if !rest.contains 0 then .error .panic
  else
    let rest := (rest.dropWhile (· != 0)).drop 1
    let authLen := byteAt rest 0
    .ok {
      user := if name.isEmpty then "root" else name
      authResponse := (rest.drop 1).take authLen
      database := if caps / 8 % 2 = 1 then databaseField (rest.drop (1 + authLen)) else none }

/-- `auth_ok`: against the user table, else root against the configured
password. -/
def authOk (cfg : Config) (e : Engine) (scramble : Bytes) (h : Handshake) : Bool :=
  match e.lookupUser h.user with
  | some (hash2, _) => verifyNativePasswordHash hash2 scramble h.authResponse
  | none => h.user == ("root" : Str) && verifyNativePassword cfg.rootPassword scramble h.authResponse

end RunAlexDb
