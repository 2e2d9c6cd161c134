import RunAlexDb.Model.Firewall
import RunAlexDb.Model.Protocol

/-!
# FirewallManager — the ports that are opened at the start and closed at the end

The manager runs the commands of the backend it found or was told to use, keeps the
rules whose command succeeded, and on `close` asks for the deletion of each of them.
-/

namespace RunAlexDb

open Text

-- ---------------------------------------------------------------------------
-- run
-- ---------------------------------------------------------------------------

/-- What `Command::output` returns. -/
structure CmdOutput where
  success : Bool
  stdout : Bytes
  stderr : Bytes
deriving DecidableEq, Repr

/-- What runs programs; one that cannot be started gives the text of the error. -/
structure Machine (σ : Type) where
  output : Cmd → σ → Except Str CmdOutput × σ

/-- `run(cmd, args)`, for what the program returned. -/
def CmdOutput.result : CmdOutput → Except Str Str
  | ⟨true, stdout, _⟩ => .ok (fromUtf8Lossy stdout)
  | ⟨false, _, stderr⟩ => .error (trim (fromUtf8Lossy stderr))

def resultOf (cmd : Cmd) : Except Str CmdOutput → Except Str Str
  | .error e => .error (cmd.program ++ ": " ++ e)
  | .ok o => o.result

namespace Machine

variable {σ : Type} (machine : Machine σ)

def run (cmd : Cmd) : Prog σ Str Str :=
  Prog.mk fun s => (resultOf cmd (machine.output cmd s).1, (machine.output cmd s).2)

/-- The program ran and its output passes the test; a program that cannot be started
does not. -/
def probe (cmd : Cmd) (test : CmdOutput → Bool) (s : σ) : Bool × σ :=
  ((machine.output cmd s).1.toOption.any test, (machine.output cmd s).2)

def cmdExists (name : Str) : σ → Bool × σ := machine.probe ⟨"which", [name]⟩ CmdOutput.success

def ufwActive : σ → Bool × σ :=
  machine.probe ⟨"ufw", ["status"]⟩ fun o => contains (fromUtf8Lossy o.stdout) "Status: active"

end Machine

-- ---------------------------------------------------------------------------
-- Backends
-- ---------------------------------------------------------------------------

inductive FirewallBackend
  | ufw | nftables | iptables | none
deriving DecidableEq, Repr

namespace FirewallBackend

def asStr : FirewallBackend → Str
  | .ufw => "ufw"
  | .nftables => "nftables"
  | .iptables => "iptables"
  | .none => "none"

/-- `detect`: the state of ufw is asked for only where there is a `ufw`. -/
def detect {σ : Type} (machine : Machine σ) (s : σ) : FirewallBackend × σ :=
  let ufw := machine.cmdExists "ufw" s
  let active := if ufw.1 then machine.ufwActive ufw.2 else (false, ufw.2)
  if active.1 then (.ufw, active.2)
  else
    let nft := machine.cmdExists "nft" active.2
    if nft.1 then (.nftables, nft.2)
    else
      let iptables := machine.cmdExists "iptables" nft.2
      (if iptables.1 then .iptables else .none, iptables.2)

/-- The backend the configuration names. -/
def ofName (name : Str) : Option FirewallBackend :=
  if name = "ufw" then some .ufw
  else if name = "nftables" then some .nftables
  else if name = "iptables" then some .iptables
  else if name = "none" ∨ name = "no" then some .none
  else Option.none

end FirewallBackend

-- ---------------------------------------------------------------------------
-- The manager
-- ---------------------------------------------------------------------------

/-- A port and its protocol. -/
abbrev Port := UInt16 × Str

/-- An opened rule. -/
structure OpenRule where
  port : Port
  /-- nftables: the handle that `nft add rule` returned. -/
  nftHandle : Option UInt64
deriving DecidableEq, Repr

structure FirewallManager where
  backend : FirewallBackend
  tag : Str
  dryRun : Bool
  opened : List OpenRule
deriving DecidableEq, Repr

def Port.number (p : Port) : Str := natToString p.1.toNat

/-- `{port}/{proto}` -/
def Port.slashed (p : Port) : Str := p.number ++ '/' :: p.2

/-- `{proto} dport {port}` -/
def Port.clause (p : Port) : Str := p.2 ++ " dport " ++ p.number

/-- The specification of the rule for a port. -/
def inputRule (tag : Str) (p : Port) : Rule :=
  ["-p", p.2, "--dport", p.number, "-m", "comment", "--comment", tag, "-j", "ACCEPT"]

/-- `str::parse::<u64>`. -/
def parseU64 (s : Str) : Option UInt64 :=
  let digits := match s with
    | '+' :: r => r
    | r => r
  (parseNat digits).bind fun n => if n < 2 ^ 64 then some (UInt64.ofNat n) else none

/-- `strip_prefix`. -/
def stripPrefix (pat s : Str) : Option Str := if pat.isPrefixOf s then some (s.drop pat.length) else none

/-- The number behind `# handle ` on the first line that begins so and has one. -/
def addedHandle (out : Str) : Option UInt64 :=
  (lines out).findSome? fun l => (stripPrefix "# handle " l).bind fun s => parseU64 (trim s)

/-- The command that opens a port. -/
def addCmd (backend : FirewallBackend) (tag : Str) (p : Port) : Option Cmd :=
  match backend with
  | .ufw => some ⟨"ufw", ["allow", p.slashed, "comment", tag]⟩
  | .nftables => some ⟨"nft", ["add", "rule", "inet", "filter", "input", p.clause, "accept", "comment", tag]⟩
  | .iptables => some ⟨"iptables", "-A" :: "INPUT" :: inputRule tag p⟩
  | .none => none

/-- The command that closes a rule; without a handle nft has none. -/
def deleteCmd (backend : FirewallBackend) (tag : Str) (r : OpenRule) : Option Cmd :=
  match backend with
  | .ufw => some ⟨"ufw", ["delete", "allow", r.port.slashed]⟩
  | .nftables => r.nftHandle.map fun h =>
    ⟨"nft", ["delete", "rule", "inet", "filter", "input", "handle", natToString h.toNat]⟩
  | .iptables => some ⟨"iptables", "-D" :: "INPUT" :: inputRule tag r.port⟩
  | .none => none

/-- What is kept of what the command that opens a port printed. -/
def handleIn (backend : FirewallBackend) (out : Str) : Option UInt64 :=
  if backend = .nftables then addedHandle out else none

namespace FirewallManager

variable {σ : Type} (machine : Machine σ)

/-- `new`, for what RUNALEXDB_FIREWALL_DRY_RUN holds. -/
def new (dryRun : Option Str) (manage : Bool) (backendOverride : Option Str) (tag : Str) (s : σ) :
    FirewallManager × σ :=
  let backend : FirewallBackend × σ :=
    if !manage then (.none, s)
    else
      match backendOverride.bind FirewallBackend.ofName with
      | some backend => (backend, s)
      | none => FirewallBackend.detect machine s
  (⟨backend.1, tag, dryRun = some "1", []⟩, backend.2)

def openRule (m : FirewallManager) (p : Port) : Prog σ Str (Option UInt64) :=
  match addCmd m.backend m.tag p with
  | none => pure none
  | some cmd =>
    if m.dryRun then pure none
    else do
      let out ← machine.run cmd
      pure (handleIn m.backend out)

def closeRule (m : FirewallManager) (r : OpenRule) : Prog σ Str Unit :=
  match deleteCmd m.backend m.tag r with
  | none => pure ()
  | some cmd =>
    if m.dryRun then pure ()
    else do
      let _ ← machine.run cmd
      pure ()

/-- One round of the loop of `open`: a rule that cannot be opened is passed over. -/
def openPort (x : FirewallManager × σ) (p : Port) : FirewallManager × σ :=
  match (x.1.openRule machine p).exec x.2 with
  | (.ok handle, s) => ({ x.1 with opened := x.1.opened ++ [⟨p, handle⟩] }, s)
  | (.error _, s) => (x.1, s)

def «open» (ports : List Port) (x : FirewallManager × σ) : FirewallManager × σ :=
  if x.1.backend = .none then x else ports.foldl (openPort machine) x

/-- The rules are taken out first; one that cannot be closed is passed over. -/
def close (x : FirewallManager × σ) : FirewallManager × σ :=
  if x.1.backend = .none then x
  else ({ x.1 with opened := [] }, x.1.opened.foldl (fun s r => ((x.1.closeRule machine r).exec s).2) x.2)

def status (m : FirewallManager) : Str × List Port := (m.backend.asStr, m.opened.map OpenRule.port)

end FirewallManager

/-- A use of a manager. -/
inductive FirewallCall
  | open (ports : List Port)
  | close
deriving DecidableEq, Repr

/-- A call of a manager on a machine. -/
def FirewallManager.call {σ : Type} (machine : Machine σ) (x : FirewallManager × σ) :
    FirewallCall → FirewallManager × σ
  | .open ports => FirewallManager.open machine ports x
  | .close => FirewallManager.close machine x

-- ---------------------------------------------------------------------------
-- iptables
-- ---------------------------------------------------------------------------

/-- The INPUT chain, and how many commands there have been. -/
structure InputChain where
  rules : List Rule
  time : Nat
deriving DecidableEq, Repr

/-- `-A` puts a rule at the end of the chain; `-I` and `-D` are as in `editChain`. -/
def editInput (args : List Str) (rules : List Rule) : Option (List Rule) :=
  if args.take 2 = [("-A" : Str), ("INPUT" : Str)] then some (rules ++ [args.drop 2])
  else if (editChain args rules).1 then some (editChain args rules).2
  else none

/-- A machine with `iptables`, which may fail at any time. -/
def iptablesMachine (works : Nat → Bool) : Machine InputChain where
  output cmd c :=
    match if works c.time ∧ cmd.program = "iptables" then editInput cmd.args c.rules else none with
    | some rules => (.ok ⟨true, [], []⟩, ⟨rules, c.time + 1⟩)
    | none => (.ok ⟨false, [], []⟩, ⟨c.rules, c.time + 1⟩)

/-- The rules that `close` fails to delete, among these. -/
def FirewallManager.failedCloses {σ : Type} (machine : Machine σ) (m : FirewallManager) :
    List OpenRule → σ → List OpenRule
  | [], _ => []
  | r :: rest, s =>
    (if ((m.closeRule machine r).exec s).1.isOk then [] else [r]) ++
      failedCloses machine m rest ((m.closeRule machine r).exec s).2

/-- What can happen around a manager: it is called, its process ends without closing
anything and another starts, or somebody else edits the chain. -/
inductive FirewallMove
  | call (c : FirewallCall)
  | crash
  | others (args : List Str)
deriving DecidableEq, Repr

/-- A manager and the chain, with the rules it no longer holds and has not deleted. -/
structure FirewallHost where
  manager : FirewallManager
  chain : InputChain
  left : List OpenRule
deriving DecidableEq, Repr

def FirewallHost.step (works : Nat → Bool) (h : FirewallHost) : FirewallMove → FirewallHost
  | .call (.open ports) =>
    let x := FirewallManager.open (iptablesMachine works) ports (h.manager, h.chain)
    ⟨x.1, x.2, h.left⟩
  | .call .close =>
    let x := FirewallManager.close (iptablesMachine works) (h.manager, h.chain)
    ⟨x.1, x.2, h.left ++ h.manager.failedCloses (iptablesMachine works) h.manager.opened h.chain⟩
  | .crash => ⟨{ h.manager with opened := [] }, h.chain, h.left ++ h.manager.opened⟩
  | .others args => { h with chain := ⟨(editInput args h.chain.rules).getD h.chain.rules, h.chain.time⟩ }

end RunAlexDb
