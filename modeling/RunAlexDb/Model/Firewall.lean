import RunAlexDb.Lib.Prog
import RunAlexDb.Model.IcmpGuard

/-!
# Firewall — the rules of the ICMP protection

The commands by which the guard sets up and removes its rules, run one after the
other by whatever runs commands, and `iptables` as it is documented: `-I` puts a
rule at the head of the chain, `-D` deletes the first equal one, and a command that
fails leaves the chain as it was.
-/

namespace RunAlexDb

open Text

-- ---------------------------------------------------------------------------
-- Commands
-- ---------------------------------------------------------------------------

/-- A program and its arguments. -/
structure Cmd where
  program : Str
  args : List Str
deriving DecidableEq, Repr

/-- What runs commands: whether one succeeds and what state it leaves, and what one prints. -/
structure Shell (σ : Type) where
  run : Cmd → σ → Bool × σ
  output : Cmd → σ → Option Str

/-- A rule of a chain, by its specification. -/
abbrev Rule := List Str

def icmpRate : Str := "5/second"

def icmpBurst : Nat := 10

def icmpComment : Str := "icmp_guard"

/-- Accept echo requests within the rate. -/
def acceptRule (proto typeFlag : Str) : Rule :=
  ["-p", proto, typeFlag, "echo-request", "-m", "limit", "--limit", icmpRate, "--limit-burst",
    natToString icmpBurst, "-m", "comment", "--comment", icmpComment, "-j", "ACCEPT"]

/-- Drop echo requests. -/
def dropRule (proto typeFlag : Str) : Rule :=
  ["-p", proto, typeFlag, "echo-request", "-m", "comment", "--comment", icmpComment, "-j", "DROP"]

def insertInput (program : Str) (rule : Rule) : Cmd := ⟨program, "-I" :: "INPUT" :: rule⟩

def deleteInput (program : Str) (rule : Rule) : Cmd := ⟨program, "-D" :: "INPUT" :: rule⟩

def nftAddAccept : Cmd :=
  ⟨"nft", ["add rule inet filter input ip protocol icmp icmp type echo-request limit rate " ++ icmpRate ++
    " burst " ++ natToString icmpBurst ++ " packets accept comment \"" ++ icmpComment ++ "\""]⟩

def nftAddDrop : Cmd :=
  ⟨"nft", ["add rule inet filter input ip protocol icmp icmp type echo-request drop comment \"" ++
    icmpComment ++ "\""]⟩

namespace Firewall

variable {σ : Type} (shell : Shell σ)

/-- `run_cmd(..)?` -/
def runCmd (cmd : Cmd) : Prog σ Unit Unit := Prog.mk fun s =>
  (if (shell.run cmd s).1 then .ok () else .error (), (shell.run cmd s).2)

/-- `let _ = run_cmd(..)` -/
def tryCmd (cmd : Cmd) : Prog σ Unit Unit := Prog.mk fun s => (.ok (), (shell.run cmd s).2)

def applyRules : Backend → Prog σ Unit Unit
  | .iptables => do
    runCmd shell (insertInput "iptables" (acceptRule "icmp" "--icmp-type"))
    runCmd shell (insertInput "iptables" (dropRule "icmp" "--icmp-type"))
    tryCmd shell (insertInput "ip6tables" (acceptRule "icmpv6" "--icmpv6-type"))
    tryCmd shell (insertInput "ip6tables" (dropRule "icmpv6" "--icmpv6-type"))
  | .nftables => do
    runCmd shell nftAddAccept
    runCmd shell nftAddDrop
  | .none => pure ()

/-- The handle that a line of the listing ends in. -/
def ruleHandle (line : Str) : Option Str :=
  (after "# handle " line).map fun rest =>
    trim (((find rest "# handle ").bind fun i => sliceTo rest i).getD rest)

def removeRules : Backend → Prog σ Unit Unit
  | .iptables => do
    tryCmd shell (deleteInput "iptables" (acceptRule "icmp" "--icmp-type"))
    tryCmd shell (deleteInput "iptables" (dropRule "icmp" "--icmp-type"))
    tryCmd shell (deleteInput "ip6tables" (acceptRule "icmpv6" "--icmpv6-type"))
    tryCmd shell (deleteInput "ip6tables" (dropRule "icmpv6" "--icmpv6-type"))
  | .nftables => do
    match shell.output ⟨"nft", ["-a", "list", "chain", "inet", "filter", "input"]⟩ (← get) with
    | none => throw ()
    | some text =>
      ((lines text).filter (contains · icmpComment)).forM fun line =>
        match ruleHandle line with
        | none => pure ()
        | some handle =>
          tryCmd shell ⟨"nft", ["delete", "rule", "inet", "filter", "input", "handle", handle]⟩
  | .none => pure ()

/-- `setup`, for whether the lock is held and what `which` finds. -/
def setup (enabled lockHeld nft iptables : Bool) (s : σ) : IcmpGuard × σ :=
  if !enabled then (⟨false, .none, false⟩, s)
  else if lockHeld then (⟨false, .none, true⟩, s)
  else
    let backend := detectBackend nft iptables
    if backend = .none then (⟨false, .none, true⟩, s)
    else
      match (applyRules shell backend).exec s with
      | (.ok (), s) => (⟨true, backend, true⟩, s)
      | (.error (), s) => (⟨false, .none, true⟩, s)

def teardown (guard : IcmpGuard) (s : σ) : σ :=
  if !guard.isOwner then s else ((removeRules shell guard.backend).exec s).2

end Firewall

-- ---------------------------------------------------------------------------
-- iptables
-- ---------------------------------------------------------------------------

/-- The INPUT chains of `iptables` and `ip6tables`. -/
structure Chains where
  input : List Rule
  input6 : List Rule
deriving DecidableEq, Repr

/-- A command on a chain: whether it succeeds, and the chain after it. -/
def editChain : List Str → List Rule → Bool × List Rule
  | flag :: chainName :: rule, chain =>
    if chainName ≠ "INPUT" then (false, chain)
    else if flag = "-I" then (true, rule :: chain)
    else if flag = "-D" ∧ rule ∈ chain then (true, chain.erase rule)
    else (false, chain)
  | _, chain => (false, chain)

/-- The shell of a machine with `iptables`, on which some commands may fail. -/
def iptablesShell (works : Cmd → Bool) : Shell Chains where
  run cmd chains :=
    if !works cmd then (false, chains)
    else if cmd.program = "iptables" then
      ((editChain cmd.args chains.input).1, { chains with input := (editChain cmd.args chains.input).2 })
    else if cmd.program = "ip6tables" then
      ((editChain cmd.args chains.input6).1, { chains with input6 := (editChain cmd.args chains.input6).2 })
    else (true, chains)
  output _ _ := none

end RunAlexDb
