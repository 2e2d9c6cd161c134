import RunAlexDb.Model.Firewall

/-!
# FirewallRules — what the rules of the ICMP protection do

The rule that accepts goes in first and the rule that drops after it, both at the
head of the chain, so that the one that drops stands first. A rule set-up that
succeeds drops every echo request; one that fails at its second command leaves the
first rule behind, and no guard to remove it.

Main results: `guardsInput_iff`, `teardown_setup`.
-/

namespace RunAlexDb

open Text

-- ---------------------------------------------------------------------------
-- Packets
-- ---------------------------------------------------------------------------

inductive Verdict
  | accept | drop
deriving DecidableEq, Repr

/-- A packet: whether it is an echo request, whether the limit match has a token for
it, and everything else. -/
structure Packet where
  echoRequest : Bool
  withinLimit : Bool
  rest : List UInt8
deriving DecidableEq, Repr

/-- The rules of the protection, as `iptables` gets them. -/
abbrev acceptEcho : Rule := acceptRule "icmp" "--icmp-type"

abbrev dropEcho : Rule := dropRule "icmp" "--icmp-type"

/-- What rules mean: the packets that match one, its verdict if it is terminal, and the policy of
the chain. The two rules of the protection mean what `iptables` documents. -/
structure Netfilter where
  isMatch : Rule → Packet → Bool
  target : Rule → Option Verdict
  policy : Verdict
  accept_match : ∀ p, isMatch acceptEcho p = (p.echoRequest && p.withinLimit)
  accept_target : target acceptEcho = some .accept
  drop_match : ∀ p, isMatch dropEcho p = p.echoRequest
  drop_target : target dropEcho = some .drop

/-- The first terminal rule that matches decides. -/
def Netfilter.verdict (nf : Netfilter) (chain : List Rule) (p : Packet) : Verdict :=
  (chain.findSome? fun rule => if nf.isMatch rule p then nf.target rule else none).getD nf.policy

theorem verdict_cons {nf : Netfilter} {rule : Rule} {p : Packet} {v : Verdict}
    (hMatch : nf.isMatch rule p = true) (hTarget : nf.target rule = some v) (chain : List Rule) :
    nf.verdict (rule :: chain) p = v := by
  unfold Netfilter.verdict
  rw [List.findSome?_cons, if_pos hMatch, hTarget]
  rfl

-- ---------------------------------------------------------------------------
-- Commands on the chains
-- ---------------------------------------------------------------------------

theorem editChain_delete {rule : Rule} {chain : List Rule} (h : rule ∈ chain) :
    editChain ("-D" :: "INPUT" :: rule) chain = (true, chain.erase rule) := by
  unfold editChain
  dsimp only
  rw [if_neg (by decide), if_neg (by decide), if_pos ⟨rfl, h⟩]

section Commands

variable {works : Cmd → Bool} (chains : Chains)

theorem run_of_fails {cmd : Cmd} (h : works cmd = false) :
    (iptablesShell works).run cmd chains = (false, chains) := by
  show (if !works cmd then _ else _) = _
  rw [h]
  rfl

theorem run_insertInput {rule : Rule} (h : works (insertInput "iptables" rule) = true) :
    (iptablesShell works).run (insertInput "iptables" rule) chains =
      (true, { chains with input := rule :: chains.input }) := by
  show (if !works (insertInput "iptables" rule) then _ else _) = _
  rw [h]
  rfl

/-- A rule that is there is deleted where it stands first. -/
theorem run_deleteInput {rule : Rule} (h : works (deleteInput "iptables" rule) = true)
    (hThere : rule ∈ chains.input) :
    ((iptablesShell works).run (deleteInput "iptables" rule) chains).2.input = chains.input.erase rule := by
  have hEdit := editChain_delete hThere
  show (if !works (deleteInput "iptables" rule) then _ else _ : Bool × Chains).2.input = _
  rw [h]
  exact congrArg Prod.snd hEdit

/-- `ip6tables` leaves the chain of `iptables`. -/
theorem run_ip6tables_input (args : List Str) :
    ((iptablesShell works).run ⟨"ip6tables", args⟩ chains).2.input = chains.input := by
  show (if !works ⟨"ip6tables", args⟩ then _ else _ : Bool × Chains).2.input = _
  split <;> rfl

end Commands

-- ---------------------------------------------------------------------------
-- Set-up
-- ---------------------------------------------------------------------------

section Setup

variable {works : Cmd → Bool} (chains : Chains)

theorem exec_runCmd_ok {σ : Type} {shell : Shell σ} {cmd : Cmd} {s s' : σ} (h : shell.run cmd s = (true, s')) :
    (Firewall.runCmd shell cmd).exec s = (.ok (), s') := by
  unfold Firewall.runCmd
  rw [Prog.exec_mk, h]
  rfl

theorem exec_runCmd_error {σ : Type} {shell : Shell σ} {cmd : Cmd} {s s' : σ}
    (h : shell.run cmd s = (false, s')) : (Firewall.runCmd shell cmd).exec s = (.error (), s') := by
  unfold Firewall.runCmd
  rw [Prog.exec_mk, h]
  rfl

theorem exec_tryCmd {σ : Type} (shell : Shell σ) (cmd : Cmd) (s : σ) :
    (Firewall.tryCmd shell cmd).exec s = (.ok (), (shell.run cmd s).2) := rfl

/-- The first command fails. -/
theorem applyRules_first (h : works (insertInput "iptables" acceptEcho) = false) :
    (Firewall.applyRules (iptablesShell works) .iptables).exec chains = (.error (), chains) := by
  have hFirst := exec_runCmd_error (run_of_fails chains h)
  unfold Firewall.applyRules
  rw [Prog.exec_bind, hFirst]

/-- The first command succeeds and the second fails: the first rule is left. -/
theorem applyRules_second (hAccept : works (insertInput "iptables" acceptEcho) = true)
    (hDrop : works (insertInput "iptables" dropEcho) = false) :
    (Firewall.applyRules (iptablesShell works) .iptables).exec chains =
      (.error (), { chains with input := acceptEcho :: chains.input }) := by
  have hFirst := exec_runCmd_ok (run_insertInput chains hAccept)
  have hSecond := exec_runCmd_error (run_of_fails { chains with input := acceptEcho :: chains.input } hDrop)
  unfold Firewall.applyRules
  rw [Prog.exec_bind_ok hFirst, Prog.exec_bind, hSecond]

/-- Both succeed: the rule that drops stands first. -/
theorem applyRules_both (hAccept : works (insertInput "iptables" acceptEcho) = true)
    (hDrop : works (insertInput "iptables" dropEcho) = true) :
    ∃ after, (Firewall.applyRules (iptablesShell works) .iptables).exec chains = (.ok (), after) ∧
      after.input = dropEcho :: acceptEcho :: chains.input := by
  have hFirst := exec_runCmd_ok (run_insertInput chains hAccept)
  have hSecond := exec_runCmd_ok
    (run_insertInput { chains with input := acceptEcho :: chains.input } hDrop)
  unfold Firewall.applyRules
  rw [Prog.exec_bind_ok hFirst, Prog.exec_bind_ok hSecond, Prog.exec_bind_ok (exec_tryCmd ..)]
  exact ⟨_, rfl, (run_ip6tables_input _ _).trans (run_ip6tables_input _ _)⟩

/-- The outcome is that of the two commands. -/
theorem applyRules_outcome : (∃ after, (Firewall.applyRules (iptablesShell works) .iptables).exec chains =
    (.ok (), after)) ↔ applyRules .iptables (works (insertInput "iptables" acceptEcho))
      (works (insertInput "iptables" dropEcho)) = true := by
  unfold applyRules
  cases hAccept : works (insertInput "iptables" acceptEcho) with
  | false =>
    rw [applyRules_first chains hAccept]
    exact ⟨fun ⟨_, h⟩ => (nomatch h), fun h => (nomatch h)⟩
  | true =>
    cases hDrop : works (insertInput "iptables" dropEcho) with
    | false =>
      rw [applyRules_second chains hAccept hDrop]
      exact ⟨fun ⟨_, h⟩ => (nomatch h), fun h => (nomatch h)⟩
    | true =>
      obtain ⟨after, hRun, -⟩ := applyRules_both chains hAccept hDrop
      exact ⟨fun _ => rfl, fun _ => ⟨after, hRun⟩⟩

/-- Removal takes the two rules out again, each where it stands first. -/
theorem removeRules_input (hAccept : works (deleteInput "iptables" acceptEcho) = true)
    (hDrop : works (deleteInput "iptables" dropEcho) = true) (hThere : acceptEcho ∈ chains.input)
    (hThere' : dropEcho ∈ chains.input.erase acceptEcho) :
    ((Firewall.removeRules (iptablesShell works) .iptables).exec chains).2.input =
      (chains.input.erase acceptEcho).erase dropEcho := by
  have hFirst := run_deleteInput chains hAccept hThere
  have hSecond := run_deleteInput ((iptablesShell works).run (deleteInput "iptables" acceptEcho) chains).2
    hDrop (by rw [hFirst]; exact hThere')
  unfold Firewall.removeRules
  rw [Prog.exec_bind_ok (exec_tryCmd ..), Prog.exec_bind_ok (exec_tryCmd ..),
    Prog.exec_bind_ok (exec_tryCmd ..), exec_tryCmd]
  rw [hFirst] at hSecond
  exact ((run_ip6tables_input _ _).trans (run_ip6tables_input _ _)).trans hSecond

end Setup

-- ---------------------------------------------------------------------------
-- The guard
-- ---------------------------------------------------------------------------

/-- The guard on a machine that has `iptables` and not `nft`, when no other process protects it. -/
def setupIptables (works : Cmd → Bool) (chains : Chains) : IcmpGuard × Chains :=
  Firewall.setup (iptablesShell works) true false false true chains

/-- What the protection is for: requests within the limit are accepted and others
dropped, and what was set up is taken down again; a set-up that fails does nothing. -/
structure GuardsInput (nf : Netfilter) (works : Cmd → Bool) (chains : Chains) : Prop where
  limits : (setupIptables works chains).1.isOwner = true → ∀ p : Packet, p.echoRequest = true →
    nf.verdict (setupIptables works chains).2.input p = if p.withinLimit then .accept else .drop
  restores : (setupIptables works chains).1.isOwner = true →
    (Firewall.teardown (iptablesShell fun _ => true) (setupIptables works chains).1
      (setupIptables works chains).2).input = chains.input
  undoes : (setupIptables works chains).1.isOwner = false →
    (setupIptables works chains).2.input = chains.input

theorem setupIptables_ok {works : Cmd → Bool} {chains after : Chains}
    (h : (Firewall.applyRules (iptablesShell works) .iptables).exec chains = (.ok (), after)) :
    setupIptables works chains = (⟨true, .iptables, true⟩, after) := by
  have hBackend : detectBackend false true = .iptables := rfl
  unfold setupIptables Firewall.setup
  rw [if_neg (by decide), if_neg (by decide)]
  dsimp only
  rw [hBackend, if_neg (by decide), h]

theorem setupIptables_error {works : Cmd → Bool} {chains after : Chains}
    (h : (Firewall.applyRules (iptablesShell works) .iptables).exec chains = (.error (), after)) :
    setupIptables works chains = (⟨false, .none, true⟩, after) := by
  have hBackend : detectBackend false true = .iptables := rfl
  unfold setupIptables Firewall.setup
  rw [if_neg (by decide), if_neg (by decide)]
  dsimp only
  rw [hBackend, if_neg (by decide), h]

/-- What was set up is taken down again, whatever the chain held before. -/
theorem teardown_setup {works : Cmd → Bool} {chains : Chains}
    (h : (setupIptables works chains).1.isOwner = true) :
    (Firewall.teardown (iptablesShell fun _ => true) (setupIptables works chains).1
      (setupIptables works chains).2).input = chains.input := by
  cases hAccept : works (insertInput "iptables" acceptEcho) with
  | false =>
    rw [setupIptables_error (applyRules_first chains hAccept)] at h
    cases h
  | true =>
    cases hDrop : works (insertInput "iptables" dropEcho) with
    | false =>
      rw [setupIptables_error (applyRules_second chains hAccept hDrop)] at h
      cases h
    | true =>
      obtain ⟨after, hRun, hInput⟩ := applyRules_both chains hAccept hDrop
      have hOther : (dropEcho == acceptEcho) = false := by decide
      have hErase : after.input.erase acceptEcho = dropEcho :: chains.input := by
        rw [hInput, List.erase_cons, hOther, if_neg Bool.false_ne_true, List.erase_cons_head]
      rw [setupIptables_ok hRun]
      show ((Firewall.removeRules (iptablesShell fun _ => true) .iptables).exec after).2.input = _
      rw [removeRules_input after rfl rfl (by
          rw [hInput]
          exact List.mem_cons_of_mem _ (List.mem_cons_self ..)) (by
          rw [hErase]
          exact List.mem_cons_self ..), hErase, List.erase_cons_head]

/-- A request within the limit. -/
def withinRequest : Packet := ⟨true, true, []⟩

/-- **The rules.** Whatever the chain, the protection does what it is for exactly when its
first command fails and nothing is done. -/
theorem guardsInput_iff (nf : Netfilter) (works : Cmd → Bool) (chains : Chains) :
    GuardsInput nf works chains ↔ works (insertInput "iptables" acceptEcho) = false := by
  constructor
  · intro hGuards
    by_contra hWorks
    have hAccept := eq_true_of_ne_false hWorks
    cases hDrop : works (insertInput "iptables" dropEcho) with
    | false =>
      have hUndone := hGuards.undoes
      rw [setupIptables_error (applyRules_second chains hAccept hDrop)] at hUndone
      exact List.cons_ne_self _ _ (hUndone rfl)
    | true =>
      obtain ⟨after, hRun, hInput⟩ := applyRules_both chains hAccept hDrop
      have hLimits := hGuards.limits
      rw [setupIptables_ok hRun] at hLimits
      have hAccepted := hLimits rfl withinRequest rfl
      have hDropped := verdict_cons (nf.drop_match withinRequest) nf.drop_target
        (acceptEcho :: chains.input)
      rw [hInput, hDropped] at hAccepted
      cases hAccepted
  · intro hFails
    have hNone := setupIptables_error (applyRules_first chains hFails)
    refine ⟨fun hOwner => ?_, fun hOwner => ?_, fun _ => ?_⟩
    · rw [hNone] at hOwner
      cases hOwner
    · rw [hNone] at hOwner
      cases hOwner
    · rw [hNone]

/-- The rules of the protection mean what they should, and others nothing. -/
def echoNetfilter : Netfilter where
  isMatch rule p :=
    if rule = acceptEcho then p.echoRequest && p.withinLimit
    else if rule = dropEcho then p.echoRequest
    else false
  target rule := if rule = acceptEcho then some .accept else if rule = dropEcho then some .drop else none
  policy := .accept
  accept_match p := if_pos rfl
  accept_target := if_pos rfl
  drop_match p := by rw [if_neg (by decide), if_pos rfl]
  drop_target := by rw [if_neg (by decide), if_pos rfl]

/-- On an empty chain, every command carried out. -/
theorem not_guardsInput : ¬ ∀ (nf : Netfilter) (works : Cmd → Bool) (chains : Chains),
    GuardsInput nf works chains := by
  intro hAll
  have hLimits := (hAll echoNetfilter (fun _ => true) ⟨[], []⟩).limits
  have hOwner : (setupIptables (fun _ => true) ⟨[], []⟩).1.isOwner = true := by decide
  have hVerdict : echoNetfilter.verdict (setupIptables (fun _ => true) ⟨[], []⟩).2.input withinRequest =
      .drop := by decide
  have hAccepted := hLimits hOwner withinRequest rfl
  rw [hVerdict] at hAccepted
  cases hAccepted

end RunAlexDb
