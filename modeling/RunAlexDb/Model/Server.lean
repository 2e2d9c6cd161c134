import RunAlexDb.Model.Auth
import RunAlexDb.Model.Execute

/-!
# Server — `run_authenticated_session`

A connection is a machine over the bytes its client sends. A step takes one
packet out of the buffer when the session has one to take, and waits for a read
otherwise; between its steps other sessions change the engine. What the session
does is recorded in `events`.
-/

namespace RunAlexDb

open Text Platform

variable [Platform]

inductive Phase
  | handshake
  | command
  | closed
deriving DecidableEq, Repr

/-- What a session does. -/
inductive Event
  /-- A handshake response passed the password check for this user. -/
  | authenticated (user : Str)
  /-- `Engine::execute` or `Engine::execute_prepared` is called as this user. -/
  | executes (user sql : Str)
  /-- Bytes written in answer to a command. -/
  | reply (out : Bytes)
  /-- Bytes written in answer to a handshake response. -/
  | handshakeReply (out : Bytes)
deriving DecidableEq, Repr

structure PreparedStmt where
  sql : Str
  numParams : Nat
deriving DecidableEq, Repr

/-- A session with the engine it works on. -/
structure Conn where
  cfg : Config
  scramble : Bytes
  phase : Phase
  buf : Bytes
  currentDb : Option Str
  txnSnapshot : Option Snapshot
  stmtCache : HashMap Nat PreparedStmt
  nextStmtId : Nat
  effectiveUser : Str
  l0Hash : UInt64
  l0Gen : UInt64
  l0Bytes : Option Bytes
  engine : Engine
  events : List Event

abbrev ConnM (α : Type) := Prog Conn Fault α

def emit (ev : Event) : ConnM Unit := modify fun c => { c with events := c.events ++ [ev] }

/-- `stream.write_all(..)` in the command loop. -/
def send (out : Bytes) : ConnM Unit := emit (.reply out)

def onEngine {α : Type} (m : EngineM α) : ConnM α :=
  m.zoom Conn.engine fun e c => { c with engine := e }

def okReply : Bytes := encodePacket (okPacket 0 0) 1

-- ---------------------------------------------------------------------------
-- Handshake
-- ---------------------------------------------------------------------------

/-- A response that passed the check: its database is made and selected. -/
def login (h : Handshake) : ConnM Unit := do
  emit (.authenticated h.user)
  Prog.forEach (fun db => onEngine (ensureDatabase db)) h.database.toList
  modify fun c => { c with currentDb := h.database, phase := .command }
  emit (.handshakeReply (encodePacket (okPacket 0 0) 2))

/-- One packet of the handshake loop. A payload of fewer than 33 bytes ends the
loop as a successful login does. -/
def handleHandshake (payload : Bytes) : ConnM Unit := do
  if payload.length < 33 then modify fun c => { c with phase := .command }
  else
    let h ← Prog.ofExcept (parseHandshake payload)
    modify fun c => { c with effectiveUser := h.user }
    let c ← get
    if authOk c.cfg c.engine c.scramble h then login h
    else
      emit (.handshakeReply (encodePacket (errPacket 1045 "Access denied") 2))
      modify fun c => { c with phase := .closed }

-- ---------------------------------------------------------------------------
-- COM_QUERY
-- ---------------------------------------------------------------------------

/-- The precomputed answer to SELECT 1. -/
def select1Response : Bytes :=
  [0x01, 0x00, 0x00, 0x01, 0x01,
    0x18, 0x00, 0x00, 0x02, 0x03, 0x64, 0x65, 0x66, 0x00, 0x00, 0x00, 0x01, 0x31, 0x01, 0x31,
    0x0c, 0x21, 0x00, 0xff, 0x00, 0x00, 0x00, 0xfd, 0x00, 0x00, 0x00, 0x00, 0x00,
    0x05, 0x00, 0x00, 0x03, 0xfe, 0x00, 0x00, 0x02, 0x00,
    0x02, 0x00, 0x00, 0x04, 0x01, 0x31,
    0x05, 0x00, 0x00, 0x05, 0xfe, 0x00, 0x00, 0x02, 0x00]

/-- The database a USE text selects; a text with a second statement selects
none. -/
def useTarget (sql : Str) : Rust (Option Str) :=
  if startsWith (toUppercase (trim sql)) "USE " then do
    let rest := trim (← orPanic (sliceFrom (trim sql) 4))
    return if contains rest ";" then none else some (trimMatches '`' rest)
  else return none

inductive TxnControl
  | begin | commit | rollback
deriving DecidableEq, Repr

/-- BEGIN, COMMIT and ROLLBACK, which the server handles itself. -/
def txnControl (sql : Str) : Option TxnControl :=
  let u := toUppercase (trimEndMatches (· == ';') (trim sql))
  if u = "BEGIN" ∨ u = "START TRANSACTION" then some .begin
  else if u = "COMMIT" then some .commit
  else if u = "ROLLBACK" then some .rollback
  else none

/-- ROLLBACK writes the snapshot back, when there is one. -/
def Conn.rollback (c : Conn) : Conn :=
  match c.txnSnapshot with
  | some snap => { c with txnSnapshot := none, engine := c.engine.restoreSnapshot snap }
  | none => c

def handleTxn : TxnControl → ConnM Unit
  | .begin => do
    modify fun c => { c with txnSnapshot := some c.engine.takeSnapshot }
    send okReply
  | .commit => do
    modify fun c => { c with txnSnapshot := none }
    send okReply
  | .rollback => do
    modify Conn.rollback
    send okReply

/-- Call `Engine::execute` as the session's user. -/
def callExecute (now : Nat) (sql : Str) : ConnM QueryResult := do
  let c ← get
  emit (.executes c.effectiveUser sql)
  onEngine (execute now sql c.currentDb c.effectiveUser)

/-- The cached answer, when text hash and write generation are those it was
stored under. -/
def Conn.l0Hit (c : Conn) (sql : Str) : Option Bytes :=
  if hashQuery sql = c.l0Hash ∧ c.engine.writeGen = c.l0Gen then c.l0Bytes else none

/-- Execute a query, answer it and remember the answer unless it is an error. -/
def executeAndCache (now : Nat) (sql : Str) : ConnM Unit := do
  let result ← callExecute now sql
  let out := buildResult result 1
  send out
  if !result.isErr then
    modify fun c =>
      { c with l0Hash := hashQuery sql, l0Gen := c.engine.writeGen, l0Bytes := some out }

def isSelectOne (sql : Str) : Bool :=
  let u := toUppercase (trim sql)
  u = "SELECT 1" ∨ u = "SELECT 1;"

/-- A USE text sets the session's database before anything else looks at it. -/
def takeUse (sql : Str) : ConnM Unit := do
  match ← Prog.ofExcept (useTarget sql) with
  | some db => modify fun c => { c with currentDb := some db }
  | none => pure ()

theorem exec_takeUse (sql : Str) (c : Conn) :
    (takeUse sql).exec c = match useTarget sql with
      | .error fault => (.error fault, c)
      | .ok target => (.ok (), { c with currentDb := target.or c.currentDb }) := by
  rw [takeUse, Prog.exec_bind, Prog.exec_ofExcept]
  cases useTarget sql with
  | error fault => rfl
  | ok target => cases target <;> rfl

/-- Answer from the cache, else from the engine. -/
def answerQuery (now : Nat) (sql : Str) : ConnM Unit := do
  let c ← get
  match c.l0Hit sql with
  | some cached => send cached
  | none => executeAndCache now sql

def handleQuery (now : Nat) (sql : Str) : ConnM Unit :=
  if isSelectOne sql then send select1Response
  else do
    takeUse sql
    match txnControl sql with
    | some t => handleTxn t
    | none => answerQuery now sql

-- ---------------------------------------------------------------------------
-- The other commands
-- ---------------------------------------------------------------------------

def unknownHandler : Bytes :=
  encodePacket (errPacket 1243 "Unknown prepared statement handler") 1

def handleInitDb (name : Str) : ConnM Unit := do
  modify fun c => { c with currentDb := some name, l0Hash := 0 }
  send okReply

def handleStmtPrepare (sql : Str) : ConnM Unit := do
  let numParams := (bytes sql).count 0x3f % 2 ^ 16
  let c ← get
  let id := c.nextStmtId
  set { c with
    stmtCache := c.stmtCache.insert id ⟨sql, numParams⟩
    nextStmtId := (id + 1) % 2 ^ 32 }
  let params := numbered (fun _ s => encodePacket (columnDef [] [] "?" 0xfd 0) s) 2
    (List.range numParams)
  send (encodePacket (stmtPrepareOk id numParams 0) 1 ++
    (if 0 < numParams then params ++ encodePacket eofPacket (2 + UInt8.ofNat numParams) else []))

def handleStmtExecute (now : Nat) (payload : Bytes) (id : Nat) : ConnM Unit := do
  let c ← get
  match c.stmtCache.get id with
  | none => send unknownHandler
  | some stmt =>
    emit (.executes c.effectiveUser stmt.sql)
    let result ← onEngine (executePrepared now stmt.sql
      (parseExecuteParams payload stmt.numParams) c.currentDb c.effectiveUser)
    send (buildBinaryResult result 1)

def handleStmtReset (id : Nat) : ConnM Unit := do
  let c ← get
  send (if c.stmtCache.containsKey id then okReply else unknownHandler)

def hexByte (c : UInt8) : Str := hexEncode [c]

def handleCommand (now : Nat) (payload : Bytes) : ConnM Unit :=
  match parseCommand payload with
  | .quit => modify fun c => { c with phase := .closed }
  | .ping => send okReply
  | .initDb name => handleInitDb name
  | .query sql => handleQuery now sql
  | .fieldList _ => send (encodePacket eofPacket 1)
  | .stmtPrepare sql => handleStmtPrepare sql
  | .stmtExecute id => handleStmtExecute now payload id
  | .stmtClose id => modify fun c => { c with stmtCache := c.stmtCache.remove id }
  | .stmtReset id => handleStmtReset id
  | .unknown c => send (encodePacket (errPacket 1047 ("Unknown command 0x" ++ hexByte c)) 1)

-- ---------------------------------------------------------------------------
-- The machine
-- ---------------------------------------------------------------------------

/-- What can happen next. -/
inductive Label
  /-- A read returns these bytes. -/
  | data (chunk : Bytes)
  /-- A read returns nothing, fails or times out. -/
  | eof
  /-- The session goes on by itself, at this time. -/
  | tick (now : Nat)
  /-- Other sessions leave the engine like this. -/
  | world (engine : Engine)

/-- The session waits for its client. The handshake loop reads only into an
empty buffer: on part of a packet it turns round for ever. -/
def Conn.wantsRead (c : Conn) : Bool :=
  match c.phase with
  | .handshake => c.buf.isEmpty
  | .command => (decodePacket c.buf).isNone
  | .closed => false

/-- Run a handler; a panic ends the session. -/
def Conn.run (c : Conn) (m : ConnM Unit) : Conn :=
  match m.exec c with
  | (.ok _, c') => c'
  | (.error _, c') => { c' with phase := .closed }

/-- One COM_QUERY text, at a time; a closed session takes no more. -/
def Conn.queryStep (c : Conn) (q : Nat × Str) : Conn :=
  if c.phase = .command then c.run (handleQuery q.1 q.2) else c

/-- Take one packet out of the buffer, if there is one. -/
def Conn.tick (c : Conn) (now : Nat) : Conn :=
  match decodePacket c.buf with
  | none => c
  | some (payload, _, rest) =>
    let c := { c with buf := rest }
    match c.phase with
    | .handshake => c.run (handleHandshake payload)
    | .command => c.run (handleCommand now payload)
    | .closed => c

def Conn.step (c : Conn) : Label → Conn
  | .data chunk => if c.wantsRead then { c with buf := c.buf ++ chunk } else c
  | .eof => if c.wantsRead then { c with phase := .closed } else c
  | .tick now => c.tick now
  | .world engine => { c with engine := engine }

/-- A session at the start of `run_authenticated_session`, with what was read
before it. -/
def Conn.start (cfg : Config) (scramble : Bytes) (engine : Engine) (buf : Bytes) : Conn where
  cfg := cfg
  scramble := scramble
  phase := .handshake
  buf := buf
  currentDb := none
  txnSnapshot := none
  stmtCache := HashMap.empty
  nextStmtId := 1
  effectiveUser := "root"
  l0Hash := 0
  l0Gen := 0xFFFFFFFFFFFFFFFF
  l0Bytes := none
  engine := engine
  events := []

/-- SSLRequest: a payload of exactly 32 bytes with the CLIENT_SSL bit. -/
def isSslRequest (buf : Bytes) : Bool :=
  match decodePacket buf with
  | some (payload, _, _) => payload.length == 32 && leNat (payload.take 4) / 2 ^ 11 % 2 == 1
  | none => false

/-- `handle_connection` up to the session: the first read is the session's
buffer, unless it is an SSLRequest; then the session starts on the TLS stream
with an empty one. -/
def Conn.accept (cfg : Config) (scramble : Bytes) (engine : Engine) (tls : Bool) (first : Bytes) :
    Conn :=
  Conn.start cfg scramble engine (if tls && isSslRequest first then [] else first)

end RunAlexDb
