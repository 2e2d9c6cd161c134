import RunAlexDb.Access.AccountNames
import RunAlexDb.Access.Passwords
import RunAlexDb.Model.Greeting
import RunAlexDb.Session.RowPayloads
import RunAlexDb.Session.SharedEngine

/-!
# Logins — from the greeting to the command loop

A client takes the scramble out of the greeting and answers with its user, the
response of `mysql_native_password` and the database it wants. With the password the
account was made with it is let in under that name, and with the name of no account
it is not.

Main results: `login_greeted` and `letIn_of_hash`.
-/

set_option linter.unusedSectionVars false

namespace RunAlexDb

open Text Platform

-- ---------------------------------------------------------------------------
-- The client's side
-- ---------------------------------------------------------------------------

/-- What a client takes from a greeting. -/
structure Greeting where
  version : Str
  threadId : Nat
  capabilities : Nat
  scramble : Bytes
  plugin : Str
deriving DecidableEq, Repr

/-- Up to the first NUL, and what follows it. -/
def takeNul (b : Bytes) : Option (Bytes × Bytes) :=
  if (0 : UInt8) ∈ b then some (b.takeWhile (· != 0), (b.dropWhile (· != 0)).drop 1) else none

/-- Fields of these lengths, one after the other. -/
def takeFields : List Nat → Bytes → Option (List Bytes × Bytes)
  | [], b => some ([], b)
  | n :: ns, b => (takeBytes n b).bind fun x => (takeFields ns x.2).map (Prod.map (x.1 :: ·) id)

/-- HandshakeV10: the second part of the scramble is as long as the length byte says,
13 bytes at least, and ends with a NUL that is not part of it. -/
def readGreeting : Bytes → Option Greeting
  | [] => none
  | protocol :: b =>
    if protocol = 10 then
      (takeNul b).bind fun version => (takeFields [4, 8, 1, 2, 1, 2, 2, 1, 10] version.2).bind fun fields =>
        match fields.1 with
        | [thread, part, _, low, _, _, high, size, _] =>
          (takeBytes (max 13 (byteAt size 0 - 8)) fields.2).bind fun part2 =>
            (takeNul part2.2).map fun plugin => {
              version := fromUtf8Lossy version.1
              threadId := leNat thread
              capabilities := leNat low + 2 ^ 16 * leNat high
              scramble := part ++ part2.1.dropLast
              plugin := fromUtf8Lossy plugin.1 }
        | _ => none
    else none

/-- The capabilities of a client that names a database, and of one that does not. -/
def clientCapabilities (named : Bool) : Nat :=
  capabilityLongPassword ||| capabilityProtocol41 ||| capabilitySecureConnection |||
    capabilityPluginAuth ||| (if named then capabilityConnectWithDb else 0)

/-- HandshakeResponse41. -/
def handshakeResponse (user : Str) (database : Option Str) (response : Bytes) : Bytes :=
  toLe 4 (clientCapabilities database.isSome) ++ toLe 4 (2 ^ 24) ++ 0x21 :: List.replicate 23 0 ++
    (bytes user ++ 0 :: UInt8.ofNat response.length :: response ++
      ((database.elim [] fun db => bytes db ++ [0]) ++ bytes authPlugin ++ [0]))

/-- A name that comes through the handshake as it is. -/
structure UserName (u : Str) : Prop where
  some : u ≠ []
  noNul : '\x00' ∉ u
  noTick : '`' ∉ u

/-- A database name that comes through the handshake as it is. -/
structure HandshakeDb (db : Str) : Prop where
  noNul : '\x00' ∉ db
  trimmed : trim db = db
  database : isDatabaseName db = true

-- ---------------------------------------------------------------------------
-- The greeting
-- ---------------------------------------------------------------------------

theorem takeNul_append {b : Bytes} (h : (0 : UInt8) ∉ b) (rest : Bytes) :
    takeNul (b ++ 0 :: rest) = some (b, rest) := by
  have hStop : ∀ c ∈ b, (c != 0) = true := fun c hc => by
    have hNe : c ≠ 0 := fun hZero => h (hZero ▸ hc)
    simpa using hNe
  unfold takeNul
  rw [if_pos (by simp), List.takeWhile_append_of_pos hStop, List.dropWhile_append_of_pos hStop]
  simp

theorem takeFields_flatten (fields : List Bytes) (rest : Bytes) :
    takeFields (fields.map List.length) (fields.flatten ++ rest) = some (fields, rest) := by
  induction fields with
  | nil => rfl
  | cons f fields ih =>
    rw [List.map_cons, List.flatten_cons, List.append_assoc, takeFields, takeBytes_append, Option.bind_some,
      ih]
    rfl

/-- No character but NUL is encoded with a zero byte. -/
theorem zero_notMem_bytes {s : Str} (h : '\x00' ∉ s) : (0 : UInt8) ∉ bytes s := by
  have hCount := count_bytes (c := '\x00') (by decide) s
  rw [List.count_eq_zero_of_not_mem h] at hCount
  exact List.count_eq_zero.1 hCount

theorem length_generateScramble (random : Bytes) : (generateScramble random).length = random.length :=
  List.length_map ..

/-- The capabilities of the two greetings. -/
def offered (tls : Bool) : Nat :=
  if tls then capabilityLongPassword ||| capabilityProtocol41 ||| capabilitySecureConnection |||
    capabilityPluginAuth ||| capabilitySsl
  else capabilityLongPassword ||| capabilityProtocol41 ||| capabilitySecureConnection |||
    capabilityPluginAuth

theorem greetingOf_eq (tls : Bool) (scramble : Bytes) :
    greetingOf tls scramble = greetingWith (offered tls) 1 scramble := by
  rcases tls with _ | _ <;> rfl

theorem testBit_offered (tls : Bool) : (offered tls).testBit 11 = tls := by
  rcases tls with _ | _ <;> decide

theorem offered_lt (tls : Bool) : offered tls < 2 ^ 32 := by
  rcases tls with _ | _ <;> decide

/-- A client reads the scramble out of the greeting, and whether TLS is offered. -/
theorem readGreeting_greetingOf (tls : Bool) {scramble : Bytes} (h : scramble.length = 20) :
    readGreeting (greetingOf tls scramble) =
      some ⟨serverVersion, 1, offered tls, scramble, authPlugin⟩ := by
  have hCaps := offered_lt tls
  rw [greetingOf_eq]
  generalize offered tls = caps at hCaps
  have hVersion := takeNul_append (b := bytes serverVersion) (zero_notMem_bytes (by decide))
  have hPlugin := takeNul_append (b := bytes authPlugin) (zero_notMem_bytes (by decide)) []
  have hPart : (scramble.take 8).length = 8 := by rw [List.length_take, h]; rfl
  have hRest : (scramble.drop 8 ++ [0]).length = 13 := by
    rw [List.length_append, List.length_drop, h]
    rfl
  have hFields := takeFields_flatten [toLe 4 1, scramble.take 8, [0], toLe 2 (caps % 2 ^ 16), [0x21], toLe 2 2,
    toLe 2 (caps / 2 ^ 16), [21], List.replicate 10 0]
    (scramble.drop 8 ++ [0] ++ (bytes authPlugin ++ 0 :: []))
  have hPart2 := takeBytes_append (scramble.drop 8 ++ [0]) (bytes authPlugin ++ 0 :: [])
  simp only [List.map_cons, List.map_nil, length_toLe, hPart, List.length_singleton,
    List.length_replicate] at hFields
  rw [hRest] at hPart2
  have hShape : greetingWith caps 1 scramble = 10 :: (bytes serverVersion ++ 0 ::
      ([toLe 4 1, scramble.take 8, [0], toLe 2 (caps % 2 ^ 16), [0x21], toLe 2 2,
        toLe 2 (caps / 2 ^ 16), [21], List.replicate 10 0].flatten ++
        (scramble.drop 8 ++ [0] ++ (bytes authPlugin ++ 0 :: [])))) := by
    unfold greetingWith
    simp only [List.flatten_cons, List.flatten_nil, List.append_assoc, List.cons_append, List.nil_append]
  have hNumber : leNat (toLe 2 (caps % 2 ^ 16)) + 2 ^ 16 * leNat (toLe 2 (caps / 2 ^ 16)) = caps := by
    rw [leNat_toLe, leNat_toLe]
    omega
  rw [hShape, readGreeting, if_pos rfl, hVersion, Option.bind_some, hFields, Option.bind_some]
  show (takeBytes 13 _).bind _ = _
  rw [hPart2, Option.bind_some, hPlugin, Option.map_some, List.dropLast_concat, List.take_append_drop,
    fromUtf8Lossy_bytes, fromUtf8Lossy_bytes, hNumber, leNat_toLe]
  rfl

-- ---------------------------------------------------------------------------
-- The response
-- ---------------------------------------------------------------------------

theorem clientCapabilities_named (named : Bool) :
    clientCapabilities named < 2 ^ 32 ∧ (clientCapabilities named / 8 % 2 = 1 ↔ named = true) := by
  rcases named with _ | _
  · exact ⟨by decide, by decide⟩
  · exact ⟨by decide, by decide⟩

theorem length_handshakeResponse (user : Str) (database : Option Str) (response : Bytes) :
    33 ≤ (handshakeResponse user database response).length := by
  unfold handshakeResponse
  simp only [List.length_append, List.length_cons, length_toLe, List.length_replicate]
  omega

/-- The database field is read up to its NUL. -/
theorem databaseField_append {db : Str} (h : HandshakeDb db) (rest : Bytes) :
    databaseField (bytes db ++ 0 :: rest) = some db := by
  have hNul := takeNul_append (zero_notMem_bytes h.noNul) rest
  have hContains : (bytes db ++ 0 :: rest).contains 0 = true := by simp
  have hBody : (bytes db ++ 0 :: rest).takeWhile (· != 0) = bytes db := by
    unfold takeNul at hNul
    rw [if_pos (by simp)] at hNul
    exact (Prod.mk.inj (Option.some.inj hNul)).1
  unfold databaseField
  simp only [hContains, if_true, hBody, fromUtf8Lossy_bytes, h.trimmed, h.database]

/-- What a client says in its response is what the server reads. -/
theorem parseHandshake_handshakeResponse {user : Str} (hUser : UserName user) {database : Option Str}
    (hDb : ∀ db ∈ database, HandshakeDb db) {response : Bytes} (hShort : response.length < 256) :
    parseHandshake (handshakeResponse user database response) = .ok ⟨user, response, database⟩ := by
  obtain ⟨hCaps, hBit⟩ := clientCapabilities_named database.isSome
  generalize hTail : ((database.elim [] fun db => bytes db ++ [0]) ++ bytes authPlugin ++ [0] : Bytes) = tail
  have hHead : (toLe 4 (clientCapabilities database.isSome) ++ toLe 4 (2 ^ 24) ++
      0x21 :: List.replicate 23 0 : Bytes).length = 32 := by
    simp only [List.length_append, List.length_cons, length_toLe, List.length_replicate]
  have hDrop : (handshakeResponse user database response).drop 32 =
      bytes user ++ 0 :: (UInt8.ofNat response.length :: (response ++ tail)) := by
    unfold handshakeResponse
    rw [hTail, ← hHead, List.drop_left]
    simp only [List.append_assoc, List.cons_append]
  have hTake : leNat ((handshakeResponse user database response).take 4) =
      clientCapabilities database.isSome := by
    unfold handshakeResponse
    rw [List.append_assoc, List.append_assoc, List.append_assoc, List.take_left' (length_toLe 4 _), leNat_toLe]
    exact Nat.mod_eq_of_lt hCaps
  have hNul := takeNul_append (zero_notMem_bytes hUser.noNul) (UInt8.ofNat response.length :: (response ++ tail))
  unfold takeNul at hNul
  rw [if_pos (by simp)] at hNul
  obtain ⟨hName, hRest⟩ := Prod.mk.inj (Option.some.inj hNul)
  have hContains : (bytes user ++ 0 :: (UInt8.ofNat response.length :: (response ++ tail))).contains 0 = true := by
    simp
  have hSize : byteAt (UInt8.ofNat response.length :: (response ++ tail)) 0 = response.length :=
    toNat_byte hShort
  have hSome : user.isEmpty = false := List.isEmpty_eq_false_iff.2 hUser.some
  have hDatabase : (if clientCapabilities database.isSome / 8 % 2 = 1 then
      databaseField ((UInt8.ofNat response.length :: (response ++ tail)).drop (1 + response.length))
      else none) = database := by
    rw [Nat.add_comm, List.drop_succ_cons, List.drop_left, ← hTail]
    rcases database with _ | db
    · rw [if_neg (fun h => absurd (hBit.1 h) (by decide))]
    · rw [if_pos (hBit.2 rfl)]
      show databaseField (bytes db ++ [0] ++ bytes authPlugin ++ [0]) = some db
      rw [List.append_assoc, List.append_assoc]
      exact databaseField_append (hDb db rfl) _
  unfold parseHandshake
  simp only [hDrop, hTake, hContains, hName, hRest, hSize, hDatabase, fromUtf8Lossy_bytes,
    trimMatches_self hUser.noTick, hSome]
  simp

-- ---------------------------------------------------------------------------
-- The login
-- ---------------------------------------------------------------------------

section Login

variable [Platform]

/-- The session that the client of a user and password has, with the scramble it was
greeted with. -/
def loggedIn (cfg : Config) (scramble : Bytes) (engine : Engine) (user password : Str)
    (database : Option Str) : Conn :=
  (Conn.start cfg scramble engine []).run
    (handleHandshake (handshakeResponse user database (clientResponse password scramble)))

/-- The session takes commands of this user on this database. -/
structure LetIn (c : Conn) (engine : Engine) (user : Str) (database : Option Str) : Prop where
  inLoop : c.phase = .command
  asUser : c.effectiveUser = user
  onDatabase : c.currentDb = database
  made : c.engine = database.elim engine engine.addDatabase
  said : c.events = [.authenticated user, .handshakeReply (encodePacket (okPacket 0 0) 2)]

/-- The session is over, and nothing was done in it. -/
structure TurnedAway (c : Conn) (engine : Engine) : Prop where
  ended : c.phase = .closed
  same : c.engine = engine
  said : c.events = [.handshakeReply (encodePacket (errPacket 1045 "Access denied") 2)]

theorem length_clientResponse (hLen : ∀ data, (sha1 data).length = 20) (password : Str) (scramble : Bytes) :
    (clientResponse password scramble).length < 256 := by
  unfold clientResponse
  split
  · exact Nat.zero_lt_succ _
  · rw [length_xorBytes ((hLen _).trans (hLen _).symm), hLen]
    omega

/-- The double hash accepts the response that was made with its password. -/
theorem verifyHash_clientResponse (hLen : ∀ data, (sha1 data).length = 20) {password : Str}
    (hSome : password ≠ []) (scramble : Bytes) :
    verifyNativePasswordHash (doubleSha1 (bytes password)) scramble (clientResponse password scramble) =
      true := by
  have hSize : (clientResponse password scramble).length = 20 := by
    unfold clientResponse
    rw [if_neg (by simpa using hSome), length_xorBytes ((hLen _).trans (hLen _).symm), hLen]
  have hNonempty : (clientResponse password scramble).isEmpty = false := by
    rw [List.isEmpty_eq_false_iff, ← List.length_pos_iff, hSize]
    decide
  unfold verifyNativePasswordHash
  rw [hNonempty, if_neg Bool.false_ne_true, hSize]
  unfold clientResponse doubleSha1
  rw [if_neg (by simpa using hSome), xorBytes_cancel ((hLen _).trans (hLen _).symm), beq_self_eq_true,
    beq_self_eq_true]
  rfl

theorem loggedIn_eq (hLen : ∀ data, (sha1 data).length = 20) (cfg : Config) (scramble : Bytes) (engine : Engine)
    {user : Str} (hUser : UserName user) (password : Str) {database : Option Str}
    (hDb : ∀ db ∈ database, HandshakeDb db) :
    loggedIn cfg scramble engine user password database =
      if authOk cfg engine scramble ⟨user, clientResponse password scramble, database⟩ then
        { Conn.start cfg scramble engine [] with
          effectiveUser := user
          engine := database.elim engine engine.addDatabase
          currentDb := database
          phase := .command
          events := [.authenticated user, .handshakeReply (encodePacket (okPacket 0 0) 2)] }
      else
        { Conn.start cfg scramble engine [] with
          effectiveUser := user
          phase := .closed
          events := [.handshakeReply (encodePacket (errPacket 1045 "Access denied") 2)] } := by
  have hParse := parseHandshake_handshakeResponse hUser hDb (length_clientResponse hLen password scramble)
  have hLong := length_handshakeResponse user database (clientResponse password scramble)
  unfold loggedIn
  rw [run_handleHandshake, if_neg (by omega), hParse]
  rfl

/-- The right password. -/
theorem letIn_of_hash (hLen : ∀ data, (sha1 data).length = 20) (cfg : Config) (scramble : Bytes)
    {engine : Engine} {user : Str} (hUser : UserName user) {password : Str} (hSome : password ≠ [])
    {database : Option Str} (hDb : ∀ db ∈ database, HandshakeDb db)
    (hAccount : (engine.users.get user).map DbUser.passwordSha1Sha1 = some (doubleSha1 (bytes password))) :
    LetIn (loggedIn cfg scramble engine user password database) engine user database := by
  obtain ⟨account, hGet, hHash⟩ := Option.map_eq_some_iff.1 hAccount
  have hAuth : authOk cfg engine scramble ⟨user, clientResponse password scramble, database⟩ = true := by
    unfold authOk Engine.lookupUser
    rw [hGet]
    show verifyNativePasswordHash account.passwordSha1Sha1 scramble _ = true
    rw [hHash]
    exact verifyHash_clientResponse hLen hSome scramble
  rw [loggedIn_eq hLen cfg scramble engine hUser password hDb, if_pos hAuth]
  exact ⟨rfl, rfl, rfl, rfl, rfl⟩

/-- No account, and not root. -/
theorem turnedAway_of_none (hLen : ∀ data, (sha1 data).length = 20) (cfg : Config) (scramble : Bytes)
    {engine : Engine} {user : Str} (hUser : UserName user) (hRoot : user ≠ "root") (password : Str)
    {database : Option Str} (hDb : ∀ db ∈ database, HandshakeDb db) (hNone : engine.users.get user = none) :
    TurnedAway (loggedIn cfg scramble engine user password database) engine := by
  have hAuth : authOk cfg engine scramble ⟨user, clientResponse password scramble, database⟩ = false := by
    unfold authOk Engine.lookupUser
    rw [hNone]
    show ((user == ("root" : Str)) && _) = false
    rw [beq_false_of_ne hRoot]
    rfl
  rw [loggedIn_eq hLen cfg scramble engine hUser password hDb, hAuth, if_neg Bool.false_ne_true]
  exact ⟨rfl, rfl, rfl⟩

end Login

section Root

local instance loginPlatform : Platform := tablePlatform []

end Root

end RunAlexDb
