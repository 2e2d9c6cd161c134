import RunAlexDb.Session.ResultCache
import RunAlexDb.Session.ResultReads
import RunAlexDb.Session.SequenceIds
import RunAlexDb.Session.SharedEngine

/-!
# CommandReplies — a client that speaks with the session

A client sends one command after the other and knows of each what kind of reply to
expect: none for COM_QUIT and COM_STMT_CLOSE, definitions up to EOF for
COM_FIELD_LIST, an id with definitions of parameters for COM_STMT_PREPARE, an answer
for the others. It never gets out of step, and its list of prepared statements, kept
from the replies alone, is that of the session.

Main results: `readReplies_talk`, `handles_talk`.
-/

set_option linter.unusedSectionVars false

namespace RunAlexDb

open Text Platform

-- ---------------------------------------------------------------------------
-- The client's side
-- ---------------------------------------------------------------------------

/-- What a client makes of the reply to a command. -/
inductive Reply
  | silence
  | answer (a : Answer)
  | fields (names : List Str)
  | prepared (id columns : Nat) (params : List Str)
deriving DecidableEq, Repr

/-- Definitions up to EOF. -/
def readFieldNames : List Bytes → Option (List Str × List Bytes)
  | [] => none
  | payload :: payloads =>
    if readsAsEof payload then some ([], payloads)
    else (readDefinition payload).bind fun c => (readFieldNames payloads).map (Prod.map (c :: ·) id)

/-- The parameters behind a prepared statement, with EOF when there are any. -/
def readParamNames (n : Nat) (payloads : List Bytes) : Option (List Str × List Bytes) :=
  if n = 0 then some ([], payloads)
  else (readDefinitions n payloads).bind fun names => (takeEof names.2).map (names.1, ·)

/-- OK of COM_STMT_PREPARE: 12 bytes with the id, the columns and the parameters. -/
def readPrepared : List Bytes → Option (Reply × List Bytes)
  | [] => none
  | payload :: payloads =>
    if payload.head? = some 0x00 ∧ payload.length = 12 then
      (readParamNames (leNat ((payload.drop 7).take 2)) payloads).map fun params =>
        (.prepared (leNat ((payload.drop 1).take 4)) (leNat ((payload.drop 5).take 2)) params.1, params.2)
    else none

/-- The reply to a command off the payloads. -/
def readReply : Command → List Bytes → Option (Reply × List Bytes)
  | .quit, payloads | .stmtClose _, payloads => some (.silence, payloads)
  | .fieldList _, payloads => (readFieldNames payloads).map (Prod.map .fields id)
  | .stmtPrepare _, payloads => readPrepared payloads
  | .stmtExecute _, payloads => (readAnswer .binary payloads).map (Prod.map .answer id)
  | _, payloads => (readAnswer .text payloads).map (Prod.map .answer id)

/-- One reply for each command. -/
def readReplies : List Command → List Bytes → Option (List Reply × List Bytes)
  | [], payloads => some ([], payloads)
  | command :: commands, payloads =>
    (readReply command payloads).bind fun x => (readReplies commands x.2).map (Prod.map (x.1 :: ·) id)

/-- The statements a client holds, by their ids. -/
abbrev Handles := Nat → Option Str

/-- After a reply. -/
def Handles.after (held : Handles) : Command → Reply → Handles
  | .stmtPrepare sql, .prepared id _ _ => fun i => if i = id then some sql else held i
  | .stmtClose id, _ => fun i => if i = id then none else held i
  | _, _ => held

/-- After a run of commands with their replies. -/
def Handles.afterAll (held : Handles) (run : List (Command × Reply)) : Handles :=
  run.foldl (fun held x => held.after x.1 x.2) held

theorem readReplies_cons {command : Command} {commands : List Command} {payloads more : List Bytes}
    {reply : Reply} {replies : List Reply} (h : readReply command payloads = some (reply, more))
    (hMore : readReplies commands more = some (replies, [])) :
    readReplies (command :: commands) payloads = some (reply :: replies, []) := by
  rw [readReplies, h, Option.bind_some, hMore]
  rfl

theorem select1Response_numbered :
    select1Response = numbered encodePacket 1 (resultPayloads ["1"] [textRow [some "1"]]) := by
  decide +kernel

section Talk

variable [Platform]

-- ---------------------------------------------------------------------------
-- The session's side
-- ---------------------------------------------------------------------------

/-- A command at a time; a closed session takes no more. -/
def Conn.answer (c : Conn) (q : Nat × Bytes) : Conn :=
  if c.phase = .command then c.run (handleCommand q.1 q.2) else c

/-- What the session writes for a command. -/
def Conn.written (c : Conn) (q : Nat × Bytes) : Bytes := sent ((c.answer q).events.drop c.events.length)

/-- A command with the time it comes at, and what other sessions do before it. -/
structure Exchange where
  world : Engine → Engine
  now : Nat
  payload : Bytes

def Exchange.command (t : Exchange) : Command := parseCommand t.payload

/-- The session when the command comes. -/
def Conn.meets (c : Conn) (t : Exchange) : Conn := { c with engine := t.world c.engine }

def Conn.exchange (c : Conn) (t : Exchange) : Conn := (c.meets t).answer (t.now, t.payload)

/-- What the session writes for commands one after the other. -/
def Conn.talk (c : Conn) : List Exchange → Bytes
  | [] => []
  | t :: ts => (c.meets t).written (t.now, t.payload) ++ (c.exchange t).talk ts

/-- What the engine returns for a COM_QUERY, when it is asked. -/
def Conn.queried (c : Conn) (now : Nat) (sql : Str) : Option QueryResult :=
  if isSelectOne sql ∨ (txnControl sql).isSome ∨ ((c.used sql).l0Hit sql).isSome then none
  else ((execute now sql (c.used sql).currentDb c.effectiveUser).exec c.engine).1.toOption

/-- What the engine returns for a command, when it is asked, and the form it is sent in. -/
def Conn.returned (c : Conn) (q : Nat × Bytes) : Option (Form × QueryResult) :=
  match parseCommand q.2 with
  | .query sql => (c.queried q.1 sql).map (Form.text, ·)
  | .stmtExecute id => (c.stmtCache.get id).bind fun stmt =>
    (((executePrepared q.1 stmt.sql (parseExecuteParams q.2 stmt.numParams) c.currentDb
      c.effectiveUser).exec c.engine).1.toOption).map (Form.binary, ·)
  | _ => none

/-- Whatever the engine returns for one of the commands fits its packets. -/
def Conn.TalkFits (c : Conn) : List Exchange → Prop
  | [] => True
  | t :: ts => (∀ f ∈ (c.meets t).returned (t.now, t.payload), f.1.Sends f.2) ∧ (c.exchange t).TalkFits ts

/-- The number of `?` in a text, as COM_STMT_PREPARE counts it. -/
def announcedParams (sql : Str) : Nat := (bytes sql).count 0x3f % 2 ^ 16

/-- What the reply to a command has to say. -/
def Conn.Replied (c : Conn) (q : Nat × Bytes) (reply : Reply) : Prop :=
  match parseCommand q.2 with
  | .quit | .stmtClose _ => reply = .silence
  | .ping | .initDb _ => reply = .answer (.ok 0 0)
  | .fieldList _ => reply = .fields []
  | .stmtPrepare sql =>
    reply = .prepared c.nextStmtId 0 (List.replicate (announcedParams sql) ("?" : Str))
  | .stmtReset id =>
    reply = .answer (if c.stmtCache.containsKey id then .ok 0 0
      else .err 1243 "Unknown prepared statement handler")
  | .unknown b => reply = .answer (.err 1047 ("Unknown command 0x" ++ hexByte b))
  | .query _ | .stmtExecute _ => ∃ a, reply = .answer a ∧ ∀ f ∈ c.returned q, a = f.2.answer

/-- The replies to commands one after the other. -/
def Conn.RepliedAll (c : Conn) : List Exchange → List Reply → Prop
  | [], [] => True
  | t :: ts, reply :: replies =>
    (c.meets t).Replied (t.now, t.payload) reply ∧ (c.exchange t).RepliedAll ts replies
  | _, _ => False

/-- The kept answer is one that fits its packets. -/
def CacheFits (c : Conn) : Prop :=
  ∀ out, c.l0Bytes = some out → ∃ result, Form.text.Sends result ∧ out = Form.text.build result

-- ---------------------------------------------------------------------------
-- Replies
-- ---------------------------------------------------------------------------

/-- Payloads that are read as this reply to a command, whatever follows. -/
structure ReplyReads (command : Command) (out : Bytes) (reply : Reply) (payloads : List Bytes) : Prop where
  bytes : out = numbered encodePacket 1 payloads
  short : ∀ p ∈ payloads, p.length < 2 ^ 24
  reads : ∀ more, readReply command (payloads ++ more) = some (reply, more)

/-- Commands that are answered in a form. -/
def Command.form? : Command → Option Form
  | .quit | .stmtClose _ | .fieldList _ | .stmtPrepare _ => none
  | .stmtExecute _ => some .binary
  | _ => some .text

theorem readReply_answer {command : Command} {form : Form} (h : command.form? = some form)
    (payloads : List Bytes) :
    readReply command payloads = (readAnswer form payloads).map (Prod.map .answer id) := by
  rcases command with _ | _ | _ | _ | _ | _ | _ | _ | _ | _ <;>
    first
    | exact absurd h.symm (Option.some_ne_none form)
    | exact Option.some.inj h ▸ rfl

theorem readsAs_answer {command : Command} {form : Form} (hForm : command.form? = some form)
    {result : QueryResult} (h : form.Sends result) :
    ReplyReads command (form.build result) (.answer result.answer) (form.payloads result) := by
  refine ⟨build_numbered form result, fun p hp => length_of_mem_payloads h hp, fun more => ?_⟩
  rw [readReply_answer hForm, readAnswer_payloads h]
  rfl

/-- The same bytes in the form of a query. -/
theorem readsAs_single {command : Command} {form : Form} (hForm : command.form? = some form)
    {result : QueryResult} (h : form.Sends result) {p : Bytes} (hOne : form.payloads result = [p]) :
    ReplyReads command (encodePacket p 1) (.answer result.answer) [p] := by
  have hReads := readsAs_answer hForm h
  rw [hOne] at hReads
  refine ⟨?_, hReads.short, hReads.reads⟩
  rw [numbered_cons, numbered_nil, List.append_nil]

theorem readsAs_ok {command : Command} {form : Form} (hForm : command.form? = some form) :
    ReplyReads command okReply (.answer (.ok 0 0)) [okPacket 0 0] :=
  readsAs_single hForm (show form.Sends (.ok 0 0) from trivial) rfl

/-- The answer to SELECT 1 that is kept ready is that of a result. -/
theorem select1Response_eq : select1Response = Form.text.build (.rows ["1"] [[some "1"]]) := by
  rw [build_numbered]
  exact select1Response_numbered

theorem sends_selectOne : Form.text.Sends (.rows ["1"] [[some "1"]]) := by
  refine ⟨⟨by decide, by decide, ?_, ?_⟩, ?_⟩
  · intro c hc
    obtain rfl := List.mem_singleton.1 hc
    decide
  · intro r hr
    obtain rfl := List.mem_singleton.1 hr
    decide
  · intro r hr
    obtain rfl := List.mem_singleton.1 hr
    rfl

theorem length_hexByte (b : UInt8) : (bytes (hexByte b)).length ≤ 8 := by
  have hLength : (hexByte b).length = 2 := rfl
  have hBytes := byteLen_le (hexByte b)
  rw [length_bytes]
  omega

theorem sends_unknownCommand (form : Form) (b : UInt8) :
    form.Sends (.err 1047 ("Unknown command 0x" ++ hexByte b)) := by
  refine ⟨by decide, ?_⟩
  have hShort := length_hexByte b
  have hText : bytes ("Unknown command 0x" ++ hexByte b) = bytes "Unknown command 0x" ++ bytes (hexByte b) :=
    List.flatMap_append ..
  have hFixed : (bytes "Unknown command 0x").length = 18 := by decide
  have hState : (bytes "#HY000").length = 6 := by decide
  unfold errPacket
  rw [hText]
  simp only [List.length_cons, List.length_append, length_toLe, hFixed, hState]
  omega

theorem readsAs_fields (name : Str) :
    ReplyReads (.fieldList name) (encodePacket eofPacket 1) (.fields []) [eofPacket] := by
  refine ⟨?_, ?_, fun more => rfl⟩
  · rw [numbered_cons, numbered_nil, List.append_nil]
  · intro p hp
    obtain rfl := List.mem_singleton.1 hp
    decide

/-- The payloads of the reply to COM_STMT_PREPARE. -/
def preparedPayloads (id n : Nat) : List Bytes :=
  stmtPrepareOk id n 0 ::
    (if 0 < n then (List.replicate n ("?" : Str)).map (fun c => columnDef "" "" c 0xfd 0) ++ [eofPacket] else [])

def preparedReply (id n : Nat) : Bytes :=
  encodePacket (stmtPrepareOk id n 0) 1 ++
    (if 0 < n then numbered (fun _ s => encodePacket (columnDef [] [] "?" 0xfd 0) s) 2 (List.range n) ++
      encodePacket eofPacket (2 + UInt8.ofNat n) else [])

theorem preparedReply_numbered (id n : Nat) :
    preparedReply id n = numbered encodePacket 1 (preparedPayloads id n) := by
  unfold preparedReply preparedPayloads
  by_cases hSome : 0 < n
  · have hParams : (List.replicate n ("?" : Str)).map (fun c => columnDef "" "" c 0xfd 0) =
        (List.range n).map fun _ => columnDef [] [] "?" 0xfd 0 := by
      refine List.ext_getElem (by simp) fun i h h' => ?_
      rw [List.getElem_map, List.getElem_map, List.getElem_replicate]
      rfl
    rw [if_pos hSome, if_pos hSome, hParams, numbered_cons, numbered_append, numbered_map, numbered_cons,
      numbered_nil, List.length_map, List.length_range, List.append_nil]
    rfl
  · rw [if_neg hSome, if_neg hSome, numbered_cons, numbered_nil]

theorem readsAs_prepared (sql : Str) {id n : Nat} (hId : id < 2 ^ 32) (hN : n < 2 ^ 16) :
    ReplyReads (.stmtPrepare sql) (preparedReply id n) (.prepared id 0 (List.replicate n ("?" : Str)))
      (preparedPayloads id n) := by
  have hParam : (columnDef "" "" "?" 0xfd 0).length < 2 ^ 24 := by decide
  have hDefinitions : ∀ c ∈ List.replicate n ("?" : Str), (columnDef "" "" c 0xfd 0).length < 2 ^ 24 := by
    intro c hc
    obtain rfl := (List.mem_replicate.1 hc).2
    exact hParam
  have hLength : (stmtPrepareOk id n 0).length = 12 := by
    unfold stmtPrepareOk
    simp only [List.length_cons, List.length_append, length_toLe, List.length_nil]
  have hIdRead : leNat (((stmtPrepareOk id n 0).drop 1).take 4) = id := by
    show leNat ((toLe 4 id ++ toLe 2 0 ++ toLe 2 n ++ [0, 0, 0]).take 4) = id
    rw [List.append_assoc, List.append_assoc, take_toLe, leNat_toLe]
    exact Nat.mod_eq_of_lt hId
  have hColumns : leNat (((stmtPrepareOk id n 0).drop 5).take 2) = 0 := rfl
  have hParams : leNat (((stmtPrepareOk id n 0).drop 7).take 2) = n := by
    show leNat ((toLe 2 n ++ [0, 0, 0]).take 2) = n
    rw [take_toLe, leNat_toLe]
    exact Nat.mod_eq_of_lt hN
  refine ⟨preparedReply_numbered id n, ?_, fun more => ?_⟩
  · intro p hp
    unfold preparedPayloads at hp
    rcases List.mem_cons.1 hp with rfl | hp
    · rw [hLength]
      omega
    · by_cases hSome : 0 < n
      · rw [if_pos hSome] at hp
        rcases List.mem_append.1 hp with hp | hp
        · obtain ⟨c, hc, rfl⟩ := List.mem_map.1 hp
          exact hDefinitions c hc
        · obtain rfl := List.mem_singleton.1 hp
          decide
      · rw [if_neg hSome] at hp
        exact absurd hp List.not_mem_nil
  · have hHead : (stmtPrepareOk id n 0).head? = some 0x00 := rfl
    show readPrepared (preparedPayloads id n ++ more) = _
    unfold preparedPayloads
    rw [List.cons_append, readPrepared, if_pos ⟨hHead, hLength⟩, hIdRead, hColumns, hParams]
    unfold readParamNames
    by_cases hSome : 0 < n
    · have hRead := readDefinitions_map hDefinitions (eofPacket :: more)
      rw [List.length_replicate] at hRead
      rw [if_pos hSome, if_neg (by omega), List.append_assoc, List.singleton_append, hRead,
        Option.bind_some, takeEof, if_pos (by decide)]
      rfl
    · obtain rfl : n = 0 := by omega
      rfl

-- ---------------------------------------------------------------------------
-- One command
-- ---------------------------------------------------------------------------

theorem build_text (result : QueryResult) : Form.text.build result = buildResult result 1 := by
  show buildResultInto [] result 1 = _
  rw [buildResultInto_eq, List.nil_append]

theorem build_binary (result : QueryResult) : Form.binary.build result = buildBinaryResult result 1 := by
  show buildBinaryResultInto [] result 1 = _
  rw [buildBinaryResultInto_eq, List.nil_append]

theorem answer_of_command {c : Conn} (h : c.phase = .command) (q : Nat × Bytes) :
    c.answer q = c.run (handleCommand q.1 q.2) := if_pos h

theorem written_of_append {c : Conn} {q : Nat × Bytes} {new : List Event}
    (h : (c.answer q).events = c.events ++ new) : c.written q = sent new := by
  unfold Conn.written
  rw [drop_of_append h]

/-- What a query of a session that goes on comes to: an answer kept ready, one the
session gives by itself, the answer of the query before it, or that of the engine. -/
inductive Queried (c c' : Conn) (now : Nat) (sql : Str) : Prop
  | ready (hOne : isSelectOne sql = true) (hEvents : c'.events = c.events ++ [.reply select1Response])
      (hKept : c'.l0Bytes = c.l0Bytes)
  | control (hOne : isSelectOne sql = false) (hControl : (txnControl sql).isSome = true)
      (hEvents : c'.events = c.events ++ [.reply okReply]) (hKept : c'.l0Bytes = c.l0Bytes)
  | cached (out : Bytes) (hHit : (c.used sql).l0Hit sql = some out) (hFrom : c.l0Bytes = some out)
      (hEvents : c'.events = c.events ++ [.reply out]) (hKept : c'.l0Bytes = c.l0Bytes)
  | executed (result : QueryResult) (hResult : c.queried now sql = some result)
      (hEvents : c'.events =
        c.events ++ [.executes c.effectiveUser sql, .reply (buildResult result 1)])
      (hKept : c'.l0Bytes = c.l0Bytes ∨ c'.l0Bytes = some (buildResult result 1))

theorem used_fields (c : Conn) (sql : Str) :
    (c.used sql).events = c.events ∧ (c.used sql).l0Bytes = c.l0Bytes ∧
      (c.used sql).engine = c.engine ∧ (c.used sql).effectiveUser = c.effectiveUser := by
  unfold Conn.used
  rw [exec_takeUse]
  rcases useTarget sql with fault | target
  · exact ⟨rfl, rfl, rfl, rfl⟩
  · exact ⟨rfl, rfl, rfl, rfl⟩

theorem handleTxn_fields (c : Conn) (t : TxnControl) :
    (c.run (handleTxn t)).events = c.events ++ [.reply okReply] ∧
      (c.run (handleTxn t)).l0Bytes = c.l0Bytes := by
  rcases t with _ | _ | _
  · exact ⟨rfl, rfl⟩
  · exact ⟨rfl, rfl⟩
  · show c.rollback.events ++ [.reply okReply] = _ ∧ c.rollback.l0Bytes = _
    unfold Conn.rollback
    rcases c.txnSnapshot with _ | snap
    · exact ⟨rfl, rfl⟩
    · exact ⟨rfl, rfl⟩

theorem queried_of_stays {c : Conn} {now : Nat} {sql : Str}
    (hStays : (c.run (handleQuery now sql)).phase = .command) :
    Queried c (c.run (handleQuery now sql)) now sql := by
  obtain ⟨hEvents, hBytes, hEngine, hUser⟩ := used_fields c sql
  unfold handleQuery at hStays ⊢
  by_cases hOne : isSelectOne sql = true
  · rw [if_pos hOne]
    exact .ready hOne rfl rfl
  have hOther : isSelectOne sql = false := eq_false_of_ne_true hOne
  rw [if_neg hOne] at hStays ⊢
  rcases hTarget : useTarget sql with fault | target
  · rw [run_of_panic hTarget] at hStays
    exact absurd hStays (by simp)
  rw [run_of_used hTarget] at hStays ⊢
  rcases hControl : txnControl sql with _ | t
  · simp only [hControl] at hStays
    show Queried c ((c.used sql).run (answerQuery now sql)) now sql
    have hAnswer : (c.used sql).run (answerQuery now sql) = ((c.used sql).l0Hit sql).elim
        ((c.used sql).run (executeAndCache now sql)) fun out => (c.used sql).run (send out) := by
      unfold answerQuery Conn.run
      rw [Prog.exec_get_bind]
      rcases (c.used sql).l0Hit sql with _ | out <;> rfl
    rw [hAnswer] at hStays ⊢
    rcases hHit : (c.used sql).l0Hit sql with _ | out
    · simp only [hHit, Option.elim_none] at hStays ⊢
      rw [run_executeAndCache, hUser, hEngine] at hStays ⊢
      rcases hExec : (execute now sql (c.used sql).currentDb c.effectiveUser).exec c.engine with
        ⟨fault | result, e⟩
      · rw [hExec] at hStays
        exact absurd hStays (by simp [Conn.panicked])
      · have hResult : c.queried now sql = some result := by
          unfold Conn.queried
          rw [if_neg (by simp [hOther, hControl, hHit]), hExec]
          rfl
        dsimp only
        by_cases hErr : result.isErr = true
        · rw [if_pos hErr]
          refine .executed result hResult ?_ (.inl hBytes)
          show (c.used sql).events ++ [.executes (c.used sql).effectiveUser sql, _] = _
          rw [hEvents, hUser]
        · rw [if_neg hErr]
          refine .executed result hResult ?_ (.inr rfl)
          show (c.used sql).events ++ [.executes (c.used sql).effectiveUser sql, _] = _
          rw [hEvents, hUser]
    · have hFrom : (c.used sql).l0Bytes = some out := by
        unfold Conn.l0Hit at hHit
        split at hHit
        · exact hHit
        · exact absurd hHit.symm (Option.some_ne_none out)
      simp only [Option.elim_some]
      refine .cached out hHit (hBytes ▸ hFrom) ?_ hBytes
      show (c.used sql).events ++ [.reply out] = _
      rw [hEvents]
  · obtain ⟨hSent, hKept⟩ := handleTxn_fields (c.used sql) t
    exact .control hOther (by rw [hControl]; rfl) (by rw [← hEvents]; exact hSent) (by rw [← hBytes]; exact hKept)

/-- The reply to a command is read as what it has to say, and the kept answer still
fits its packets. -/
structure Spoken (c : Conn) (q : Nat × Bytes) (reply : Reply) : Prop where
  reads : ∃ payloads, ReplyReads (parseCommand q.2) (c.written q) reply payloads
  replied : c.Replied q reply
  cache : CacheFits (c.answer q)

/-- One reply was written and the kept answer stays. -/
theorem Spoken.of_send {c : Conn} {q : Nat × Bytes} {reply : Reply} {out : Bytes} {payloads : List Bytes}
    (hCache : CacheFits c) (hEvents : (c.answer q).events = c.events ++ [.reply out])
    (hKept : (c.answer q).l0Bytes = c.l0Bytes) (hReads : ReplyReads (parseCommand q.2) out reply payloads)
    (hReplied : c.Replied q reply) : Spoken c q reply := by
  refine ⟨⟨payloads, ?_⟩, hReplied, fun kept hOut => hCache kept (hKept ▸ hOut)⟩
  rw [written_of_append hEvents]
  show ReplyReads _ ([Event.reply out].flatMap Event.bytes) _ _
  rwa [List.flatMap_singleton]

theorem spoken_query {c : Conn} (hPhase : c.phase = .command) (hCache : CacheFits c) {q : Nat × Bytes}
    {sql : Str} (hCommand : parseCommand q.2 = .query sql) (hFits : ∀ f ∈ c.returned q, f.1.Sends f.2)
    (hStays : (c.answer q).phase = .command) : ∃ reply, Spoken c q reply := by
  have hForm : (Command.query sql).form? = some .text := rfl
  have hHandle : handleCommand q.1 q.2 = handleQuery q.1 sql := by rw [handleCommand, hCommand]
  have hReturned : c.returned q = (c.queried q.1 sql).map (Form.text, ·) := by rw [Conn.returned, hCommand]
  have hAnswer : c.answer q = c.run (handleQuery q.1 sql) := by rw [answer_of_command hPhase, hHandle]
  have hRepliedOf : ∀ a : Answer, (∀ result, c.queried q.1 sql = some result → a = result.answer) →
      c.Replied q (.answer a) := by
    intro a ha
    unfold Conn.Replied
    rw [hCommand]
    refine ⟨a, rfl, fun f hf => ?_⟩
    rw [hReturned] at hf
    obtain ⟨result, hResult, rfl⟩ := Option.map_eq_some_iff.1 hf
    exact ha result hResult
  -- when the engine is not asked there is nothing to agree with
  have hNone : ∀ a : Answer, (isSelectOne sql ∨ (txnControl sql).isSome ∨ ((c.used sql).l0Hit sql).isSome) →
      c.Replied q (.answer a) := by
    intro a hOther
    refine hRepliedOf a fun result hResult => ?_
    rw [Conn.queried, if_pos hOther] at hResult
    exact absurd hResult.symm (Option.some_ne_none result)
  rw [hAnswer] at hStays
  rcases queried_of_stays hStays with ⟨hOne, hEvents, hKept⟩ | ⟨_, hControl, hEvents, hKept⟩ |
    ⟨out, hHit, hFrom, hEvents, hKept⟩ | ⟨result, hResult, hEvents, hKept⟩
  · rw [← hAnswer] at hEvents hKept
    rw [select1Response_eq] at hEvents
    exact ⟨_, .of_send hCache hEvents hKept (by rw [hCommand]; exact readsAs_answer hForm sends_selectOne)
      (hNone _ (.inl hOne))⟩
  · rw [← hAnswer] at hEvents hKept
    exact ⟨_, .of_send hCache hEvents hKept (by rw [hCommand]; exact readsAs_ok hForm)
      (hNone _ (.inr (.inl hControl)))⟩
  · rw [← hAnswer] at hEvents hKept
    obtain ⟨result, hSends, rfl⟩ := hCache out hFrom
    exact ⟨_, .of_send hCache hEvents hKept (by rw [hCommand]; exact readsAs_answer hForm hSends)
      (hNone _ (.inr (.inr (by rw [hHit]; rfl))))⟩
  · have hSends : Form.text.Sends result := hFits (.text, result) (by rw [hReturned, hResult]; rfl)
    rw [← hAnswer] at hEvents hKept
    rw [← build_text] at hEvents hKept
    refine ⟨_, ⟨Form.text.payloads result, ?_⟩, hRepliedOf result.answer fun other hOther => ?_, fun out hOut => ?_⟩
    · rw [hCommand, written_of_append hEvents]
      show ReplyReads _ ([] ++ (Form.text.build result ++ [])) _ _
      rw [List.nil_append, List.append_nil]
      exact readsAs_answer hForm hSends
    · rw [hResult] at hOther
      rw [Option.some.inj hOther]
    · rcases hKept with hKept | hKept
      · exact hCache out (hKept ▸ hOut)
      · rw [hKept] at hOut
        exact ⟨result, hSends, (Option.some.inj hOut).symm⟩

/-- COM_STMT_EXECUTE on a session that goes on. -/
theorem execute_of_stays {c : Conn} {now : Nat} {payload : Bytes} {id : Nat}
    (hStays : (c.run (handleStmtExecute now payload id)).phase = .command) :
    (c.stmtCache.get id = none ∧
      c.run (handleStmtExecute now payload id) = { c with events := c.events ++ [.reply unknownHandler] }) ∨
    ∃ stmt result e, c.stmtCache.get id = some stmt ∧
      (executePrepared now stmt.sql (parseExecuteParams payload stmt.numParams) c.currentDb
        c.effectiveUser).exec c.engine = (.ok result, e) ∧
      c.run (handleStmtExecute now payload id) =
        { c with
          engine := e
          events := c.events ++
            [.executes c.effectiveUser stmt.sql, .reply (buildBinaryResult result 1)] } := by
  rcases hStmt : c.stmtCache.get id with _ | stmt
  · refine .inl ⟨rfl, ?_⟩
    unfold Conn.run handleStmtExecute
    rw [Prog.exec_get_bind, hStmt]
    rfl
  · rw [run_handleStmtExecute hStmt] at hStays ⊢
    rcases hExec : (executePrepared now stmt.sql (parseExecuteParams payload stmt.numParams) c.currentDb
      c.effectiveUser).exec c.engine with ⟨fault | result, e⟩
    · rw [hExec] at hStays
      exact absurd hStays (by simp [Conn.panicked])
    · exact .inr ⟨stmt, result, e, rfl, hExec, rfl⟩

theorem spoken_execute {c : Conn} (hPhase : c.phase = .command) (hCache : CacheFits c) {q : Nat × Bytes}
    {id : Nat} (hCommand : parseCommand q.2 = .stmtExecute id) (hFits : ∀ f ∈ c.returned q, f.1.Sends f.2)
    (hStays : (c.answer q).phase = .command) : ∃ reply, Spoken c q reply := by
  have hForm : (Command.stmtExecute id).form? = some .binary := rfl
  have hHandle : handleCommand q.1 q.2 = handleStmtExecute q.1 q.2 id := by rw [handleCommand, hCommand]
  have hAnswer : c.answer q = c.run (handleStmtExecute q.1 q.2 id) := by
    rw [answer_of_command hPhase, hHandle]
  rw [hAnswer] at hStays
  rcases execute_of_stays hStays with ⟨hNone, hRun⟩ | ⟨stmt, result, e, hStmt, hExec, hRun⟩
  · have hReturned : c.returned q = none := by
      unfold Conn.returned
      rw [hCommand]
      simp only [hNone, Option.bind_none]
    have hSends : Form.binary.Sends (.err 1243 "Unknown prepared statement handler") :=
      ⟨by decide, by decide⟩
    refine ⟨_, .of_send hCache (by rw [hAnswer, hRun]) (by rw [hAnswer, hRun])
      (by rw [hCommand]; exact readsAs_single hForm hSends rfl) ?_⟩
    unfold Conn.Replied
    rw [hCommand]
    refine ⟨_, rfl, fun f hf => ?_⟩
    rw [hReturned] at hf
    exact absurd hf (Option.not_mem_none f)
  · have hReturned : c.returned q = some (.binary, result) := by
      unfold Conn.returned
      rw [hCommand]
      simp only [hStmt, Option.bind_some, hExec]
      rfl
    have hSends : Form.binary.Sends result := hFits _ hReturned
    have hEvents : (c.answer q).events =
        c.events ++ [.executes c.effectiveUser stmt.sql, .reply (Form.binary.build result)] := by
      rw [hAnswer, hRun, build_binary]
    refine ⟨.answer result.answer, ⟨Form.binary.payloads result, ?_⟩, ?_, fun out hOut => hCache out ?_⟩
    · rw [hCommand, written_of_append hEvents]
      show ReplyReads _ ([] ++ (Form.binary.build result ++ [])) _ _
      rw [List.nil_append, List.append_nil]
      exact readsAs_answer hForm hSends
    · unfold Conn.Replied
      rw [hCommand]
      refine ⟨_, rfl, fun f hf => ?_⟩
      rw [hReturned] at hf
      rw [← Option.some.inj hf]
    · rw [hAnswer, hRun] at hOut
      exact hOut

/-- Every command of a session that goes on gets the reply its client expects. -/
theorem spoken_step {c : Conn} (hPhase : c.phase = .command) (hCache : CacheFits c)
    (hId : c.nextStmtId < 2 ^ 32) {q : Nat × Bytes} (hFits : ∀ f ∈ c.returned q, f.1.Sends f.2)
    (hStays : (c.answer q).phase = .command) : ∃ reply, Spoken c q reply := by
  have hAnswer := answer_of_command hPhase q
  -- a command with one reply that is sent whatever the session is like
  have hSend : ∀ {out reply payloads}, handleCommand q.1 q.2 = send out →
      ReplyReads (parseCommand q.2) out reply payloads → c.Replied q reply → ∃ reply, Spoken c q reply :=
    fun hHandle hReads hReplied => ⟨_, .of_send hCache (by rw [hAnswer, hHandle]; rfl)
      (by rw [hAnswer, hHandle]; rfl) hReads hReplied⟩
  rcases hCommand : parseCommand q.2 with sql | _ | _ | name | name | sql | id | id | id | b
  · exact spoken_query hPhase hCache hCommand hFits hStays
  · refine hSend (by rw [handleCommand, hCommand]) (by rw [hCommand]; exact readsAs_ok rfl) ?_
    unfold Conn.Replied
    rw [hCommand]
  · rw [hAnswer, handleCommand, hCommand] at hStays
    exact absurd hStays (by simp [Conn.run])
  · have hEvents : (c.answer q).events = c.events ++ [.reply okReply] := by
      rw [hAnswer, handleCommand, hCommand]
      rfl
    refine ⟨_, .of_send hCache hEvents ?_ (by rw [hCommand]; exact readsAs_ok rfl) ?_⟩
    · rw [hAnswer, handleCommand, hCommand]
      rfl
    · unfold Conn.Replied
      rw [hCommand]
  · refine hSend (by rw [handleCommand, hCommand]) (by rw [hCommand]; exact readsAs_fields name) ?_
    unfold Conn.Replied
    rw [hCommand]
  · have hReads := readsAs_prepared sql hId (show announcedParams sql < 2 ^ 16 from Nat.mod_lt _ (by omega))
    have hEvents : (c.answer q).events =
        c.events ++ [.reply (preparedReply c.nextStmtId (announcedParams sql))] := by
      rw [hAnswer, handleCommand, hCommand]
      rfl
    refine ⟨_, .of_send hCache hEvents ?_ (by rw [hCommand]; exact hReads) ?_⟩
    · rw [hAnswer, handleCommand, hCommand]
      rfl
    · unfold Conn.Replied
      rw [hCommand]
  · exact spoken_execute hPhase hCache hCommand hFits hStays
  · have hEvents : (c.answer q).events = c.events ++ [] := by
      rw [hAnswer, handleCommand, hCommand, List.append_nil]
      rfl
    refine ⟨.silence, ⟨[], ?_, fun p hp => absurd hp List.not_mem_nil, fun more => ?_⟩, ?_,
      fun out hOut => hCache out ?_⟩
    · rw [written_of_append hEvents]
      rfl
    · rw [hCommand]
      rfl
    · unfold Conn.Replied
      rw [hCommand]
    · rw [hAnswer, handleCommand, hCommand] at hOut
      exact hOut
  · have hRun : c.answer q = c.run (send (if c.stmtCache.containsKey id then okReply else unknownHandler)) := by
      rw [hAnswer, handleCommand, hCommand]
      rfl
    refine ⟨.answer (if c.stmtCache.containsKey id then .ok 0 0
      else .err 1243 "Unknown prepared statement handler"), ?_⟩
    have hReplied : c.Replied q (.answer (if c.stmtCache.containsKey id then .ok 0 0
        else .err 1243 "Unknown prepared statement handler")) := by
      unfold Conn.Replied
      rw [hCommand]
    by_cases hKnown : c.stmtCache.containsKey id = true
    · rw [if_pos hKnown] at hRun hReplied ⊢
      exact .of_send hCache (by rw [hRun]; rfl) (by rw [hRun]; rfl) (by rw [hCommand]; exact readsAs_ok rfl)
        hReplied
    · have hSends : Form.text.Sends (.err 1243 "Unknown prepared statement handler") :=
        ⟨by decide, by decide⟩
      rw [if_neg hKnown] at hRun hReplied ⊢
      exact .of_send hCache (by rw [hRun]; rfl) (by rw [hRun]; rfl)
        (by rw [hCommand]; exact readsAs_single rfl hSends rfl) hReplied
  · refine hSend (by rw [handleCommand, hCommand])
      (by rw [hCommand]; exact readsAs_single rfl (sends_unknownCommand .text b) rfl) ?_
    unfold Conn.Replied
    rw [hCommand]
    rfl

-- ---------------------------------------------------------------------------
-- Runs of commands
-- ---------------------------------------------------------------------------

theorem exchange_closed {c : Conn} (h : c.phase ≠ .command) (ts : List Exchange) :
    (ts.foldl Conn.exchange c).phase ≠ .command := by
  induction ts generalizing c with
  | nil => exact h
  | cons t ts ih =>
    refine ih ?_
    show ((c.meets t).answer (t.now, t.payload)).phase ≠ .command
    rw [Conn.answer, if_neg (show (c.meets t).phase ≠ .command from h)]
    exact h

/-- A session that is still in the command loop was in it all the time. -/
theorem phase_of_stays {c : Conn} {ts : List Exchange} (h : (ts.foldl Conn.exchange c).phase = .command) :
    c.phase = .command := by
  by_contra hNot
  exact exchange_closed hNot ts h

/-- From `c` to `c'` no statement was prepared and none closed. -/
structure SameStatements (c c' : Conn) : Prop where
  cache : c'.stmtCache = c.stmtCache
  next : c'.nextStmtId = c.nextStmtId

instance : Std.Refl SameStatements where
  refl _ := ⟨rfl, rfl⟩

instance : IsTrans Conn SameStatements where
  trans _ _ _ hab hbc := ⟨hbc.cache.trans hab.cache, hbc.next.trans hab.next⟩

theorem sameStatements_onEngine {α : Type} (m : EngineM α) : Prog.Moves SameStatements (onEngine m) :=
  fun _ => ⟨rfl, rfl⟩

theorem sameStatements_handleQuery (now : Nat) (sql : Str) :
    Prog.Moves SameStatements (handleQuery now sql) := by
  unfold handleQuery
  split
  · exact fun _ => ⟨rfl, rfl⟩
  · refine .bind (.bind (.ofExcept _) fun target => ?_) fun _ => ?_
    · rcases target with _ | db
      · exact .pure _
      · exact fun _ => ⟨rfl, rfl⟩
    · rcases txnControl sql with _ | t
      · refine .bind .get fun c => ?_
        rcases c.l0Hit sql with _ | out
        · refine .bind (.bind .get fun c => .bind (fun _ => ⟨rfl, rfl⟩) fun _ =>
            sameStatements_onEngine _) fun result => .bind (fun _ => ⟨rfl, rfl⟩) fun _ => ?_
          split
          · exact fun _ => ⟨rfl, rfl⟩
          · exact .pure _
        · exact fun _ => ⟨rfl, rfl⟩
      · rcases t with _ | _ | _
        · exact fun _ => ⟨rfl, rfl⟩
        · exact fun _ => ⟨rfl, rfl⟩
        · refine .bind (.modify fun c => ?_) fun _ _ => ⟨rfl, rfl⟩
          unfold Conn.rollback
          rcases c.txnSnapshot with _ | snap
          · exact ⟨rfl, rfl⟩
          · exact ⟨rfl, rfl⟩

theorem sameStatements_handleStmtExecute (now : Nat) (payload : Bytes) (id : Nat) :
    Prog.Moves SameStatements (handleStmtExecute now payload id) := by
  refine .bind .get fun c => ?_
  rcases c.stmtCache.get id with _ | stmt
  · exact fun _ => ⟨rfl, rfl⟩
  · exact .bind (fun _ => ⟨rfl, rfl⟩) fun _ => .bind (sameStatements_onEngine _) fun _ _ => ⟨rfl, rfl⟩

/-- The statements and the next id after a command. -/
def Conn.statementsAfter (c : Conn) : Command → HashMap Nat PreparedStmt × Nat
  | .stmtPrepare sql =>
    (c.stmtCache.insert c.nextStmtId ⟨sql, announcedParams sql⟩, (c.nextStmtId + 1) % 2 ^ 32)
  | .stmtClose id => (c.stmtCache.remove id, c.nextStmtId)
  | _ => (c.stmtCache, c.nextStmtId)

theorem SameStatements.run {c : Conn} {m : ConnM Unit} (h : Prog.Moves SameStatements m) :
    ((c.run m).stmtCache, (c.run m).nextStmtId) = (c.stmtCache, c.nextStmtId) := by
  obtain ⟨hCache, hNext⟩ := h c
  unfold Conn.run
  rcases hExec : m.exec c with ⟨_ | _, c'⟩
  · rw [hExec] at hCache hNext
    exact Prod.ext hCache hNext
  · rw [hExec] at hCache hNext
    exact Prod.ext hCache hNext

theorem statements_answer {c : Conn} (hPhase : c.phase = .command) (q : Nat × Bytes) :
    ((c.answer q).stmtCache, (c.answer q).nextStmtId) = c.statementsAfter (parseCommand q.2) := by
  rw [answer_of_command hPhase]
  unfold handleCommand
  rcases parseCommand q.2 with sql | _ | _ | name | name | sql | id | id | id | b
  · exact SameStatements.run (sameStatements_handleQuery q.1 sql)
  · rfl
  · rfl
  · rfl
  · rfl
  · rfl
  · exact SameStatements.run (sameStatements_handleStmtExecute q.1 q.2 id)
  · rfl
  · rfl
  · rfl

theorem nextStmtId_answer {c : Conn} (hPhase : c.phase = .command) (hId : c.nextStmtId < 2 ^ 32)
    (q : Nat × Bytes) : (c.answer q).nextStmtId < 2 ^ 32 := by
  have hAfter := congrArg Prod.snd (statements_answer hPhase q)
  rw [show (c.answer q).nextStmtId = (c.statementsAfter (parseCommand q.2)).2 from hAfter]
  rcases parseCommand q.2 with _ | _ | _ | _ | _ | sql | _ | _ | _ | _
  all_goals first | exact hId | exact Nat.mod_lt _ (by omega)

/-- What the session writes in a run, payload by payload. -/
structure Talked (c : Conn) (ts : List Exchange) (replies : List Reply) (packs : List (List Bytes)) : Prop where
  bytes : c.talk ts = packs.flatMap (numbered encodePacket 1)
  short : ∀ payloads ∈ packs, ∀ p ∈ payloads, p.length < 2 ^ 24
  reads : readReplies (ts.map Exchange.command) packs.flatten = some (replies, [])
  replied : c.RepliedAll ts replies

theorem cacheFits_of_none {c : Conn} (h : c.l0Bytes = none) : CacheFits c := by
  intro out hOut
  rw [h] at hOut
  exact absurd hOut.symm (Option.some_ne_none out)

theorem talked_run {c : Conn} (hCache : CacheFits c) (hId : c.nextStmtId < 2 ^ 32) {ts : List Exchange}
    (hFits : c.TalkFits ts) (hStays : (ts.foldl Conn.exchange c).phase = .command) :
    ∃ replies packs, Talked c ts replies packs := by
  induction ts generalizing c with
  | nil => exact ⟨[], [], rfl, fun _ h => absurd h List.not_mem_nil, rfl, trivial⟩
  | cons t ts ih =>
    have hPhase : c.phase = .command := phase_of_stays hStays
    have hRest : (ts.foldl Conn.exchange (c.exchange t)).phase = .command := hStays
    have hGoesOn : (c.exchange t).phase = .command := phase_of_stays hRest
    obtain ⟨reply, ⟨payloads, hReads⟩, hReplied, hKept⟩ :=
      spoken_step (c := c.meets t) hPhase hCache hId hFits.1 hGoesOn
    obtain ⟨replies, packs, hRest⟩ := ih (c := c.exchange t) hKept
      (nextStmtId_answer (c := c.meets t) hPhase hId _) hFits.2 hRest
    refine ⟨reply :: replies, payloads :: packs, ?_, ?_, ?_, hReplied, hRest.replied⟩
    · rw [Conn.talk, hReads.bytes, hRest.bytes, List.flatMap_cons]
    · intro ps hps
      rcases List.mem_cons.1 hps with rfl | hps
      · exact hReads.short
      · exact hRest.short ps hps
    · rw [List.map_cons, List.flatten_cons]
      exact readReplies_cons (hReads.reads packs.flatten) hRest.reads

/-- The session behind the packet that opens it. -/
def Conn.opened (cfg : Config) (scramble : Bytes) (engine : Engine) (response : Bytes) : Conn :=
  (Conn.start cfg scramble engine []).run (handleHandshake response)

theorem sameStatements_handleHandshake (payload : Bytes) :
    Prog.Moves SameStatements (handleHandshake payload) := by
  unfold handleHandshake
  split
  · exact fun _ => ⟨rfl, rfl⟩
  · refine .bind (.ofExcept _) fun h => .bind (fun _ => ⟨rfl, rfl⟩) fun _ => .bind .get fun c => ?_
    split
    · exact .bind (fun _ => ⟨rfl, rfl⟩) fun _ =>
        .bind (.forEach fun db _ => sameStatements_onEngine _) fun _ =>
          .bind (fun _ => ⟨rfl, rfl⟩) fun _ _ => ⟨rfl, rfl⟩
    · exact .bind (fun _ => ⟨rfl, rfl⟩) fun _ _ => ⟨rfl, rfl⟩

/-- No answer is kept and no statement prepared before the first command. -/
theorem opened_fields (cfg : Config) (scramble : Bytes) (engine : Engine) (response : Bytes) :
    (Conn.opened cfg scramble engine response).l0Bytes = none ∧
      (Conn.opened cfg scramble engine response).stmtCache = HashMap.empty ∧
      (Conn.opened cfg scramble engine response).nextStmtId = 1 := by
  have hStatements := SameStatements.run (c := Conn.start cfg scramble engine [])
    (sameStatements_handleHandshake response)
  have hKept := (handshake_writes (Conn.start cfg scramble engine []) response).1
  refine ⟨?_, congrArg Prod.fst hStatements, congrArg Prod.snd hStatements⟩
  unfold Conn.opened
  rw [run_l0Bytes, hKept]
  rfl

/-- The client's list of statements is that of the session. -/
def HandlesOf (held : Handles) (c : Conn) : Prop :=
  ∀ id, held id = (c.stmtCache.get id).map PreparedStmt.sql

/-- The ids a client was given. -/
def preparedIds (replies : List Reply) : List Nat :=
  replies.filterMap fun reply => match reply with
    | .prepared id _ _ => some id
    | _ => none

theorem handlesOf_answer {c : Conn} {held : Handles} (h : HandlesOf held c) (hPhase : c.phase = .command)
    {q : Nat × Bytes} {reply : Reply} (hReplied : c.Replied q reply) :
    HandlesOf (held.after (parseCommand q.2) reply) (c.answer q) := by
  have hAfter := congrArg Prod.fst (statements_answer hPhase q)
  intro id
  unfold Conn.Replied at hReplied
  rw [show (c.answer q).stmtCache = (c.statementsAfter (parseCommand q.2)).1 from hAfter]
  rcases hCommand : parseCommand q.2 with sql | _ | _ | name | name | sql | closed | closed | closed | b
  case stmtPrepare =>
    rw [hCommand] at hReplied
    rw [show reply = _ from hReplied]
    show (if id = c.nextStmtId then some sql else held id) =
      ((c.stmtCache.insert c.nextStmtId ⟨sql, announcedParams sql⟩).get id).map PreparedStmt.sql
    rw [HashMap.get_insert, h id]
    by_cases hSame : id = c.nextStmtId
    · rw [if_pos hSame, if_pos hSame]
      rfl
    · rw [if_neg hSame, if_neg hSame]
  case stmtClose =>
    show (if id = closed then none else held id) =
      ((c.stmtCache.remove closed).get id).map PreparedStmt.sql
    rw [HashMap.get_remove, h id]
    by_cases hSame : id = closed
    · rw [if_pos hSame, if_pos hSame]
      rfl
    · rw [if_neg hSame, if_neg hSame]
  all_goals exact h id

theorem handlesOf_run {c : Conn} {held : Handles} (h : HandlesOf held c) {ts : List Exchange}
    {replies : List Reply} (hReplied : c.RepliedAll ts replies)
    (hStays : (ts.foldl Conn.exchange c).phase = .command) :
    HandlesOf (held.afterAll ((ts.map Exchange.command).zip replies)) (ts.foldl Conn.exchange c) := by
  induction ts generalizing c held replies with
  | nil =>
    rw [List.map_nil, List.zip_nil_left]
    exact h
  | cons t ts ih =>
    have hPhase : c.phase = .command := phase_of_stays hStays
    rcases replies with _ | ⟨reply, replies⟩
    · exact absurd hReplied id
    · have hNext := handlesOf_answer (c := c.meets t) h hPhase hReplied.1
      exact ih hNext hReplied.2 hStays

/-- The ids are handed out one after the other. -/
theorem preparedIds_run {c : Conn} (hId : c.nextStmtId < 2 ^ 32) {ts : List Exchange} {replies : List Reply}
    (hReplied : c.RepliedAll ts replies) (hStays : (ts.foldl Conn.exchange c).phase = .command) :
    preparedIds replies =
      (List.range (preparedIds replies).length).map fun k => (c.nextStmtId + k) % 2 ^ 32 := by
  induction ts generalizing c replies with
  | nil =>
    rcases replies with _ | ⟨reply, replies⟩
    · rfl
    · exact absurd hReplied id
  | cons t ts ih =>
    have hPhase : c.phase = .command := phase_of_stays hStays
    rcases replies with _ | ⟨reply, replies⟩
    · exact absurd hReplied id
    obtain ⟨hFirst, hRest⟩ := hReplied
    have hAfter := congrArg Prod.snd (statements_answer (c := c.meets t) hPhase (t.now, t.payload))
    have hTail := ih (c := c.exchange t) (nextStmtId_answer (c := c.meets t) hPhase hId _) hRest hStays
    rw [show (c.exchange t).nextStmtId = ((c.meets t).statementsAfter t.command).2 from hAfter] at hTail
    unfold Conn.Replied at hFirst
    -- only COM_STMT_PREPARE is answered with an id
    rcases hCommand : t.command with sql | _ | _ | name | name | sql | closed | closed | closed | b
    all_goals
      rw [hCommand] at hTail
      rw [show parseCommand (t.now, t.payload).2 = t.command from rfl, hCommand] at hFirst
    case stmtPrepare =>
      rw [show reply = _ from hFirst]
      show c.nextStmtId :: preparedIds replies =
        (List.range ((preparedIds replies).length + 1)).map fun k => (c.nextStmtId + k) % 2 ^ 32
      rw [List.range_succ_eq_map, List.map_cons, List.map_map, Nat.add_zero, Nat.mod_eq_of_lt hId]
      refine congrArg (c.nextStmtId :: ·) (hTail.trans (List.map_congr_left fun k _ => ?_))
      show ((c.nextStmtId + 1) % 2 ^ 32 + k) % 2 ^ 32 = (c.nextStmtId + (k + 1)) % 2 ^ 32
      omega
    case query =>
      obtain ⟨a, rfl, -⟩ := hFirst
      exact hTail
    case stmtExecute =>
      obtain ⟨a, rfl, -⟩ := hFirst
      exact hTail
    all_goals
      rw [show reply = _ from hFirst]
      exact hTail

/-- What COM_STMT_EXECUTE does with the id of a statement the client holds, and with
another. -/
structure Executes (held : Handles) (c : Conn) (q : Nat × Bytes) (id : Nat) : Prop where
  holds : ∀ sql, held id = some sql →
    ∃ rest, (c.answer q).events = c.events ++ .executes c.effectiveUser sql :: rest
  lacks : held id = none → c.answer q = { c with events := c.events ++ [.reply unknownHandler] }

theorem executes_of_handlesOf {held : Handles} {c : Conn} (h : HandlesOf held c) (hPhase : c.phase = .command)
    {q : Nat × Bytes} {id : Nat} (hCommand : parseCommand q.2 = .stmtExecute id) :
    Executes held c q id := by
  have hAnswer : c.answer q = c.run (handleStmtExecute q.1 q.2 id) := by
    rw [answer_of_command hPhase, handleCommand, hCommand]
  have hHeld := h id
  rcases hStmt : c.stmtCache.get id with _ | stmt
  · rw [hStmt] at hHeld
    refine ⟨fun sql hSql => ?_, fun _ => ?_⟩
    · rw [hHeld] at hSql
      exact absurd hSql.symm (Option.some_ne_none sql)
    · rw [hAnswer]
      unfold Conn.run handleStmtExecute
      rw [Prog.exec_get_bind, hStmt]
      rfl
  · rw [hStmt] at hHeld
    refine ⟨fun sql hSql => ?_, fun hNone => ?_⟩
    · rw [hHeld] at hSql
      obtain rfl := Option.some.inj hSql
      rw [hAnswer, run_handleStmtExecute hStmt]
      rcases (executePrepared q.1 stmt.sql (parseExecuteParams q.2 stmt.numParams) c.currentDb
        c.effectiveUser).exec c.engine with ⟨fault | result, e⟩
      · exact ⟨[], rfl⟩
      · exact ⟨[.reply (buildBinaryResult result 1)], rfl⟩
    · rw [hHeld] at hNone
      exact absurd hNone (Option.some_ne_none _)

end Talk

section Session

local instance commandRepliesPlatform : Platform := tablePlatform []

/-- COM_STMT_PREPARE, COM_PING, COM_STMT_CLOSE and COM_STMT_EXECUTE of the id closed. -/
def preparedSession : List Exchange :=
  [⟨id, 0, 0x16 :: bytes "DELETE FROM t WHERE a = ?"⟩, ⟨id, 0, [0x0e]⟩, ⟨id, 0, [0x19, 1, 0, 0, 0]⟩,
    ⟨id, 0, [0x17, 1, 0, 0, 0]⟩]

theorem preparedSession_fits (rootPassword : Str) :
    (Conn.opened ⟨rootPassword⟩ [] (Engine.fresh rootPassword) []).TalkFits preparedSession ∧
      (preparedSession.foldl Conn.exchange
        (Conn.opened ⟨rootPassword⟩ [] (Engine.fresh rootPassword) [])).phase = .command := by
  have hNever : ∀ f : Form × QueryResult, f ∈ (none : Option (Form × QueryResult)) → f.1.Sends f.2 :=
    fun f hf => absurd hf (Option.not_mem_none f)
  exact ⟨⟨hNever, hNever, hNever, hNever, trivial⟩, rfl⟩

end Session

end RunAlexDb
