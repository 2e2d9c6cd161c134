import RunAlexDb.Access.FirewallRules
import RunAlexDb.Model.FirewallManager
import RunAlexDb.Lib.Trace

/-!
# OpenedPorts — what the firewall manager leaves behind

Whatever the programs answer, the manager asks for the deletion of each rule it has
opened once, in the order it opened them, and of no other. With iptables a rule is in
the chain as often as it was there before, plus once for each time it is open and
once for each time a crash or a deletion that failed has left it behind.

Main results: `ledger_run` and `chain_run`.
-/

namespace RunAlexDb

open Text

/-- The ports that calls ask to open. -/
def FirewallCall.ports : FirewallCall → List Port
  | .open ports => ports
  | .close => []

-- ---------------------------------------------------------------------------
-- The commands
-- ---------------------------------------------------------------------------

/-- A command and what it returned. -/
abbrev CmdRun := Cmd × Except Str CmdOutput

/-- The machine with a record of what was run. -/
def Machine.recorded {σ : Type} (machine : Machine σ) : Machine (σ × List CmdRun) where
  output cmd s := ((machine.output cmd s.1).1, (machine.output cmd s.1).2, s.2 ++ [(cmd, (machine.output cmd s.1).1)])

/-- The command adds a rule. -/
def Cmd.adds (cmd : Cmd) : Bool := cmd.args.headD [] ∈ [("allow" : Str), ("add" : Str), ("-A" : Str)]

/-- The command deletes a rule. -/
def Cmd.deletes (cmd : Cmd) : Bool := cmd.args.headD [] ∈ [("delete" : Str), ("-D" : Str)]

/-- The rule that was added, if it was: its command and the handle it was given. -/
def added (backend : FirewallBackend) (e : CmdRun) : Option (Cmd × Option UInt64) :=
  if e.1.adds then ((resultOf e.1 e.2).toOption.map fun out => (e.1, handleIn backend out)) else none

theorem adds_addCmd {backend : FirewallBackend} {tag : Str} {p : Port} {cmd : Cmd}
    (h : addCmd backend tag p = some cmd) : cmd.adds = true ∧ cmd.deletes = false := by
  rcases backend with _ | _ | _ | _
  · obtain rfl := Option.some.inj h
    exact ⟨rfl, rfl⟩
  · obtain rfl := Option.some.inj h
    exact ⟨rfl, rfl⟩
  · obtain rfl := Option.some.inj h
    exact ⟨rfl, rfl⟩
  · cases h

theorem deletes_deleteCmd {backend : FirewallBackend} {tag : Str} {r : OpenRule} {cmd : Cmd}
    (h : deleteCmd backend tag r = some cmd) : cmd.adds = false ∧ cmd.deletes = true := by
  rcases backend with _ | _ | _ | _
  · obtain rfl := Option.some.inj h
    exact ⟨rfl, rfl⟩
  · obtain ⟨handle, -, rfl⟩ := Option.map_eq_some_iff.1 h
    exact ⟨rfl, rfl⟩
  · obtain rfl := Option.some.inj h
    exact ⟨rfl, rfl⟩
  · cases h

theorem addCmd_isSome {backend : FirewallBackend} (h : backend ≠ .none) (tag : Str) (p : Port) :
    ∃ cmd, addCmd backend tag p = some cmd := by
  rcases backend with _ | _ | _ | _
  · exact ⟨_, rfl⟩
  · exact ⟨_, rfl⟩
  · exact ⟨_, rfl⟩
  · exact absurd rfl h

-- ---------------------------------------------------------------------------
-- One rule
-- ---------------------------------------------------------------------------

section OneRule

variable {σ : Type} (machine : Machine σ)

theorem openPort_eq {m : FirewallManager} (hDry : m.dryRun = false) {p : Port} {cmd : Cmd}
    (hCmd : addCmd m.backend m.tag p = some cmd) (s : σ) :
    FirewallManager.openPort machine (m, s) p =
      (match (resultOf cmd (machine.output cmd s).1).toOption with
        | some out => { m with opened := m.opened ++ [⟨p, handleIn m.backend out⟩] }
        | none => m, (machine.output cmd s).2) := by
  unfold FirewallManager.openPort FirewallManager.openRule
  dsimp only
  rw [hCmd]
  dsimp only
  rw [hDry, if_neg Bool.false_ne_true, Prog.exec_bind]
  unfold Machine.run
  rw [Prog.exec_mk]
  rcases resultOf cmd (machine.output cmd s).1 with e | out <;> rfl

theorem closeRule_eq {m : FirewallManager} (hDry : m.dryRun = false) {r : OpenRule} {cmd : Cmd}
    (hCmd : deleteCmd m.backend m.tag r = some cmd) (s : σ) :
    (m.closeRule machine r).exec s =
      ((resultOf cmd (machine.output cmd s).1).map fun _ => (), (machine.output cmd s).2) := by
  unfold FirewallManager.closeRule
  rw [hCmd]
  dsimp only
  rw [hDry, if_neg Bool.false_ne_true, Prog.exec_bind]
  unfold Machine.run
  rw [Prog.exec_mk]
  rcases resultOf cmd (machine.output cmd s).1 with e | out <;> rfl

theorem closeRule_none {m : FirewallManager} {r : OpenRule} (hCmd : deleteCmd m.backend m.tag r = none) (s : σ) :
    (m.closeRule machine r).exec s = (.ok (), s) := by
  unfold FirewallManager.closeRule
  rw [hCmd]
  rfl

end OneRule

-- ---------------------------------------------------------------------------
-- The ledger
-- ---------------------------------------------------------------------------

/-- The record of a manager that was asked for these ports and has closed these
rules. -/
structure Ledger (backend : FirewallBackend) (tag : Str) (asked : List Port) (closed : List OpenRule)
    (m : FirewallManager) (log : List CmdRun) : Prop where
  config : m.backend = backend ∧ m.tag = tag ∧ m.dryRun = false
  asks : (log.map Prod.fst).filter Cmd.adds = asked.filterMap (addCmd backend tag)
  opened : log.filterMap (added backend) =
    (closed ++ m.opened).filterMap fun r => (addCmd backend tag r.port).map fun cmd => (cmd, r.nftHandle)
  closed : (log.map Prod.fst).filter Cmd.deletes = closed.filterMap (deleteCmd backend tag)
  only : ∀ e ∈ log, e.1.adds = true ∨ e.1.deletes = true

section Ledger

variable {σ : Type} (machine : Machine σ) {backend : FirewallBackend} {tag : Str} {asked : List Port}
  {closed : List OpenRule} {m : FirewallManager} {s : σ} {log : List CmdRun}

theorem ledger_openPort (hSome : backend ≠ .none) (h : Ledger backend tag asked closed m log) (p : Port) :
    ∃ m' s' log', FirewallManager.openPort machine.recorded (m, (s, log)) p = (m', (s', log')) ∧
      Ledger backend tag (asked ++ [p]) closed m' log' := by
  obtain ⟨rfl, rfl, hDry⟩ := h.config
  obtain ⟨cmd, hCmd⟩ := addCmd_isSome hSome m.tag p
  obtain ⟨hAdds, hDeletes⟩ := adds_addCmd hCmd
  rw [openPort_eq machine.recorded hDry hCmd]
  refine ⟨_, _, _, rfl, ?_⟩
  have hOnly : ∀ e ∈ log ++ [(cmd, (machine.output cmd s).1)], e.1.adds = true ∨ e.1.deletes = true := by
    intro e he
    rcases List.mem_append.1 he with he | he
    · exact h.only e he
    · rw [List.mem_singleton.1 he]
      exact .inl hAdds
  show Ledger m.backend m.tag (asked ++ [p]) closed
    (match (resultOf cmd (machine.output cmd s).1).toOption with
      | some out => { m with opened := m.opened ++ [⟨p, handleIn m.backend out⟩] }
      | none => m) (log ++ [(cmd, (machine.output cmd s).1)])
  rcases hResult : (resultOf cmd (machine.output cmd s).1).toOption with _ | out
  · exact {
      config := ⟨rfl, rfl, hDry⟩
      asks := by simp [h.asks, hCmd, hAdds]
      opened := by simp [h.opened, added, hAdds, hResult]
      closed := by simp [h.closed, hDeletes]
      only := hOnly }
  · exact {
      config := ⟨rfl, rfl, hDry⟩
      asks := by simp [h.asks, hCmd, hAdds]
      opened := by simp [h.opened, added, hAdds, hResult, hCmd]
      closed := by simp [h.closed, hDeletes]
      only := hOnly }

theorem ledger_open (hSome : backend ≠ .none) (ports : List Port) (h : Ledger backend tag asked closed m log) :
    ∃ m' s' log', ports.foldl (FirewallManager.openPort machine.recorded) (m, (s, log)) = (m', (s', log')) ∧
      Ledger backend tag (asked ++ ports) closed m' log' := by
  induction ports generalizing asked m s log with
  | nil => exact ⟨m, s, log, rfl, by rwa [List.append_nil]⟩
  | cons p ports ih =>
    obtain ⟨m', s', log', hOpen, hLedger⟩ := ledger_openPort machine (s := s) hSome h p
    obtain ⟨m'', s'', log'', hRest, hDone⟩ := ih (s := s') hLedger
    refine ⟨m'', s'', log'', ?_, ?_⟩
    · rw [List.foldl_cons, hOpen, hRest]
    · rwa [List.append_assoc] at hDone

/-- The commands that close rules. -/
theorem record_close (log : List CmdRun) (hDry : m.dryRun = false) (rules : List OpenRule) :
    ∃ s' runs, rules.foldl (fun s r => ((m.closeRule machine.recorded r).exec s).2) (s, log) = (s', log ++ runs) ∧
      runs.map Prod.fst = rules.filterMap (deleteCmd m.backend m.tag) := by
  induction rules generalizing s log with
  | nil => exact ⟨s, [], by rw [List.append_nil]; rfl, rfl⟩
  | cons r rules ih =>
    rw [List.foldl_cons, List.filterMap_cons]
    rcases hCmd : deleteCmd m.backend m.tag r with _ | cmd
    · rw [closeRule_none machine.recorded hCmd]
      exact ih log
    · rw [closeRule_eq machine.recorded hDry hCmd]
      obtain ⟨s', runs, hRun, hCmds⟩ := ih (s := (machine.output cmd s).2)
        (log ++ [(cmd, (machine.output cmd s).1)])
      refine ⟨s', (cmd, (machine.output cmd s).1) :: runs, ?_, ?_⟩
      · rw [List.append_cons]
        exact hRun
      · rw [List.map_cons, hCmds]

theorem ledger_close (hSome : backend ≠ .none) (h : Ledger backend tag asked closed m log) :
    ∃ s' log', FirewallManager.close machine.recorded (m, (s, log)) = ({ m with opened := [] }, (s', log')) ∧
      Ledger backend tag asked (closed ++ m.opened) { m with opened := [] } log' := by
  obtain ⟨rfl, rfl, hDry⟩ := h.config
  obtain ⟨s', runs, hRun, hCmds⟩ := record_close machine (s := s) log hDry m.opened
  have hEach : ∀ e ∈ runs, e.1.adds = false ∧ e.1.deletes = true := by
    intro e he
    have hIn : e.1 ∈ m.opened.filterMap (deleteCmd m.backend m.tag) := by
      rw [← hCmds]
      exact List.mem_map_of_mem he
    obtain ⟨r, -, hCmd⟩ := List.mem_filterMap.1 hIn
    exact deletes_deleteCmd hCmd
  have hAdds : (runs.map Prod.fst).filter Cmd.adds = [] := by
    rw [List.filter_eq_nil_iff]
    intro cmd hIn
    obtain ⟨e, he, rfl⟩ := List.mem_map.1 hIn
    rw [(hEach e he).1]
    exact Bool.false_ne_true
  have hDeletes : (runs.map Prod.fst).filter Cmd.deletes = runs.map Prod.fst := by
    rw [List.filter_eq_self]
    intro cmd hIn
    obtain ⟨e, he, rfl⟩ := List.mem_map.1 hIn
    exact (hEach e he).2
  have hAdded : runs.filterMap (added m.backend) = [] := by
    rw [List.filterMap_eq_nil_iff]
    intro e he
    unfold added
    rw [(hEach e he).1, if_neg Bool.false_ne_true]
  refine ⟨s', log ++ runs, ?_, ?_⟩
  · unfold FirewallManager.close
    rw [if_neg hSome]
    exact congrArg _ hRun
  · exact {
      config := ⟨rfl, rfl, hDry⟩
      asks := by rw [List.map_append, List.filter_append, h.asks, hAdds, List.append_nil]
      opened := by rw [List.filterMap_append, h.opened, hAdded, List.append_nil, List.append_nil]
      closed := by rw [List.map_append, List.filter_append, h.closed, hDeletes, hCmds, List.filterMap_append]
      only := fun e he => (List.mem_append.1 he).elim (h.only e) fun he => .inr (hEach e he).2 }

theorem ledger_call (hSome : backend ≠ .none) (h : Ledger backend tag asked closed m log) (c : FirewallCall) :
    ∃ m' s' log' closed', FirewallManager.call machine.recorded (m, (s, log)) c = (m', (s', log')) ∧
      Ledger backend tag (asked ++ c.ports) closed' m' log' := by
  have hBackend : ¬ m.backend = .none := by rw [h.config.1]; exact hSome
  rcases c with ports | _
  · obtain ⟨m', s', log', hRun, hLedger⟩ := ledger_open machine (s := s) hSome ports h
    refine ⟨m', s', log', closed, ?_, hLedger⟩
    show FirewallManager.open machine.recorded ports (m, (s, log)) = _
    unfold FirewallManager.open
    rw [if_neg hBackend, hRun]
  · obtain ⟨s', log', hRun, hLedger⟩ := ledger_close machine (s := s) hSome h
    refine ⟨_, s', log', closed ++ m.opened, hRun, ?_⟩
    rwa [show FirewallCall.close.ports = [] from rfl, List.append_nil]

theorem ledger_calls (hSome : backend ≠ .none) (calls : List FirewallCall)
    (h : Ledger backend tag asked closed m log) :
    ∃ m' s' log' closed', calls.foldl (FirewallManager.call machine.recorded) (m, (s, log)) = (m', (s', log')) ∧
      Ledger backend tag (asked ++ calls.flatMap FirewallCall.ports) closed' m' log' := by
  induction calls generalizing asked closed m s log with
  | nil => exact ⟨m, s, log, closed, rfl, by rwa [List.flatMap_nil, List.append_nil]⟩
  | cons c calls ih =>
    obtain ⟨m', s', log', closed', hCall, hLedger⟩ := ledger_call machine (s := s) hSome h c
    obtain ⟨m'', s'', log'', closed'', hRest, hDone⟩ := ih (s := s') hLedger
    refine ⟨m'', s'', log'', closed'', ?_, ?_⟩
    · rw [List.foldl_cons, hCall, hRest]
    · rwa [List.append_assoc, ← List.flatMap_cons] at hDone

end Ledger

-- ---------------------------------------------------------------------------
-- Runs
-- ---------------------------------------------------------------------------

section Runs

variable {σ : Type} (machine : Machine σ)

/-- The same manager on the same machine, with a record. -/
def Recorded (x : FirewallManager × σ) (y : FirewallManager × σ × List CmdRun) : Prop :=
  y.1 = x.1 ∧ y.2.1 = x.2

theorem recorded_run (cmd : Cmd) (s : σ) (log : List CmdRun) :
    ∃ log', (machine.recorded.run cmd).exec (s, log) =
      (((machine.run cmd).exec s).1, (((machine.run cmd).exec s).2, log')) := ⟨_, rfl⟩

/-- The record changes nothing. -/
theorem recorded_openPort {x : FirewallManager × σ} {y : FirewallManager × σ × List CmdRun} (h : Recorded x y)
    (p : Port) :
    Recorded (FirewallManager.openPort machine x p) (FirewallManager.openPort machine.recorded y p) := by
  obtain ⟨m, s⟩ := x
  obtain ⟨m', s', log⟩ := y
  obtain ⟨rfl, rfl⟩ : m' = m ∧ s' = s := h
  have hRule : ∃ log', (m'.openRule machine.recorded p).exec (s', log) =
      (((m'.openRule machine p).exec s').1, (((m'.openRule machine p).exec s').2, log')) := by
    unfold FirewallManager.openRule
    rcases addCmd m'.backend m'.tag p with _ | cmd
    · exact ⟨log, rfl⟩
    · dsimp only
      split
      · exact ⟨log, rfl⟩
      · obtain ⟨log', hRun⟩ := recorded_run machine cmd s' log
        rw [Prog.exec_bind, Prog.exec_bind, hRun]
        rcases (machine.run cmd).exec s' with ⟨e | out, s''⟩
        · exact ⟨log', rfl⟩
        · exact ⟨log', rfl⟩
  obtain ⟨log', hRule⟩ := hRule
  unfold FirewallManager.openPort
  dsimp only
  rw [hRule]
  rcases (m'.openRule machine p).exec s' with ⟨e | handle, s''⟩
  · exact ⟨rfl, rfl⟩
  · exact ⟨rfl, rfl⟩

theorem recorded_closeRule (m : FirewallManager) (r : OpenRule) (s : σ × List CmdRun) :
    ((m.closeRule machine.recorded r).exec s).2.1 = ((m.closeRule machine r).exec s.1).2 := by
  unfold FirewallManager.closeRule
  rcases deleteCmd m.backend m.tag r with _ | cmd
  · rfl
  · dsimp only
    split
    · rfl
    · obtain ⟨log', hRun⟩ := recorded_run machine cmd s.1 s.2
      rw [Prog.exec_bind, Prog.exec_bind, hRun]
      rcases (machine.run cmd).exec s.1 with ⟨e | out, s'⟩
      · rfl
      · rfl

theorem recorded_call {x : FirewallManager × σ} {y : FirewallManager × σ × List CmdRun} (h : Recorded x y)
    (c : FirewallCall) :
    Recorded (FirewallManager.call machine x c) (FirewallManager.call machine.recorded y c) := by
  rcases c with ports | _
  · unfold FirewallManager.call FirewallManager.open
    dsimp only
    rw [h.1]
    split
    · exact h
    · exact Trace.related_run_all (R := Recorded) (fun _ _ p hSame => recorded_openPort machine hSame p) h ports
  · unfold FirewallManager.call FirewallManager.close
    dsimp only
    rw [h.1]
    split
    · exact h
    · refine ⟨rfl, ?_⟩
      have hStep : ∀ (s : σ) (t : σ × List CmdRun) (r : OpenRule), t.1 = s →
          ((x.1.closeRule machine.recorded r).exec t).2.1 = ((x.1.closeRule machine r).exec s).2 :=
        fun s t r hSame => by rw [recorded_closeRule, hSame]
      exact Trace.related_run_all (R := fun (s : σ) (t : σ × List CmdRun) => t.1 = s) hStep h.2 x.1.opened

/-- The manager runs no commands. -/
def FirewallManager.Quiet (m : FirewallManager) : Prop := m.backend = .none ∨ m.dryRun = true

theorem quiet_openPort {x : FirewallManager × σ} (h : x.1.Quiet) (p : Port) :
    (FirewallManager.openPort machine x p).2 = x.2 ∧ (FirewallManager.openPort machine x p).1.Quiet := by
  obtain ⟨m, s⟩ := x
  have hRule : (m.openRule machine p).exec s = (.ok none, s) := by
    unfold FirewallManager.openRule
    rcases h with hNone | hDry
    · rw [show m.backend = .none from hNone]
      rfl
    · rcases addCmd m.backend m.tag p with _ | cmd
      · rfl
      · dsimp only
        rw [if_pos hDry]
        rfl
  unfold FirewallManager.openPort
  dsimp only
  rw [hRule]
  exact ⟨rfl, h⟩

theorem quiet_call {x : FirewallManager × σ} (h : x.1.Quiet) (c : FirewallCall) :
    (FirewallManager.call machine x c).2 = x.2 ∧ (FirewallManager.call machine x c).1.Quiet := by
  obtain ⟨m, s⟩ := x
  rcases c with ports | _
  · unfold FirewallManager.call FirewallManager.open
    dsimp only
    split
    · exact ⟨rfl, h⟩
    · exact Trace.invariant_run_all (I := fun y : FirewallManager × σ => y.2 = s ∧ y.1.Quiet)
        (fun y p hQuiet => ⟨((quiet_openPort machine hQuiet.2 p).1).trans hQuiet.1,
          (quiet_openPort machine hQuiet.2 p).2⟩) ⟨rfl, h⟩ ports
  · unfold FirewallManager.call FirewallManager.close
    dsimp only
    split
    · exact ⟨rfl, h⟩
    · rename_i hSome
      have hDry : m.dryRun = true := h.resolve_left hSome
      refine ⟨?_, h⟩
      refine Trace.invariant_run_all (I := fun t => t = s) (fun t r hSame => ?_) rfl m.opened
      unfold FirewallManager.closeRule
      rw [hSame]
      rcases deleteCmd m.backend m.tag r with _ | cmd
      · rfl
      · dsimp only
        rw [if_pos hDry]
        rfl

/-- **What the manager asks for.** On any machine, whatever its programs answer, and
over any calls of a new manager: every command it runs adds or deletes a rule. It
asks for a rule for each port it is given, in that order. The rules whose command
succeeded are, in order, those it has closed and those it still holds, each with the
handle it was told; and the deletions it has asked for are those of the rules it has
closed, once each. With no backend, and in a dry run, it runs nothing. -/
theorem ledger_run {m : FirewallManager} (hNew : m.opened = []) (s : σ) (calls : List FirewallCall) :
    ∃ m' s' log closed, calls.foldl (FirewallManager.call machine) (m, s) = (m', s') ∧
      calls.foldl (FirewallManager.call machine.recorded) (m, (s, [])) = (m', (s', log)) ∧
      (¬ m.Quiet → Ledger m.backend m.tag (calls.flatMap FirewallCall.ports) closed m' log) ∧
      (m.Quiet → log = [] ∧ s' = s) := by
  have hSame : Recorded (calls.foldl (FirewallManager.call machine) (m, s))
      (calls.foldl (FirewallManager.call machine.recorded) (m, (s, []))) :=
    Trace.related_run_all (R := Recorded) (fun _ _ c h => recorded_call machine h c) ⟨rfl, rfl⟩ calls
  by_cases hQuiet : m.Quiet
  · obtain ⟨hState, -⟩ := Trace.invariant_run_all
      (I := fun y : FirewallManager × σ × List CmdRun => y.2 = (s, []) ∧ y.1.Quiet)
      (fun y c h => ⟨((quiet_call machine.recorded h.2 c).1).trans h.1, (quiet_call machine.recorded h.2 c).2⟩)
      (s := (m, (s, []))) ⟨rfl, hQuiet⟩ calls
    have hHost : (calls.foldl (FirewallManager.call machine.recorded) (m, (s, []))).2.1 = s :=
      congrArg Prod.fst hState
    have hLog : (calls.foldl (FirewallManager.call machine.recorded) (m, (s, []))).2.2 = [] :=
      congrArg Prod.snd hState
    refine ⟨_, _, [], [], rfl, ?_, fun hNot => absurd hQuiet hNot, fun _ => ⟨rfl, ?_⟩⟩
    · exact Prod.ext hSame.1 (Prod.ext hSame.2 hLog)
    · rw [← hSame.2]
      exact hHost
  · obtain ⟨hSome, hDry⟩ := not_or.1 hQuiet
    have hStart : Ledger m.backend m.tag [] [] m [] := {
      config := ⟨rfl, rfl, Bool.eq_false_iff.2 hDry⟩
      asks := rfl
      opened := by rw [hNew]; rfl
      closed := rfl
      only := fun e he => absurd he List.not_mem_nil }
    obtain ⟨m', s', log, closed, hRun, hLedger⟩ := ledger_calls machine (s := s) hSome calls hStart
    refine ⟨m', s', log, closed, ?_, hRun, fun _ => hLedger, fun h => absurd h hQuiet⟩
    rw [hRun] at hSame
    exact Prod.ext hSame.1.symm hSame.2.symm

end Runs

/-- The ports of the server and of its web interface. -/
def serverPorts : List Port := [(3306, "tcp"), (8306, "tcp")]

/-- Both ports are opened and closed, on an empty chain. -/
theorem ledger_run_server :
    ∃ m' s' log closed,
      [FirewallCall.open serverPorts, .close].foldl (FirewallManager.call (iptablesMachine fun _ => true))
        (⟨.iptables, "runalexdb", false, []⟩, ⟨[], 0⟩) = (m', s') ∧
      Ledger .iptables "runalexdb" serverPorts closed m' log := by
  obtain ⟨m', s', log, closed, hRun, -, hLedger, -⟩ := ledger_run (iptablesMachine fun _ => true)
    (m := ⟨.iptables, "runalexdb", false, []⟩) rfl ⟨[], 0⟩ [.open serverPorts, .close]
  exact ⟨m', s', log, closed, hRun, hLedger (not_or.2 ⟨by decide, by decide⟩)⟩

-- ---------------------------------------------------------------------------
-- Edits of the chain
-- ---------------------------------------------------------------------------

/-- The rule of an edit. -/
def ruleOf (args : List Str) : Rule := args.drop 2

/-- What an edit does. -/
theorem editInput_eq (args : List Str) (rules : List Rule) :
    editInput args rules =
      if args.take 2 = [("-A" : Str), ("INPUT" : Str)] then some (rules ++ [ruleOf args])
      else if args.take 2 = [("-I" : Str), ("INPUT" : Str)] then some (ruleOf args :: rules)
      else if args.take 2 = [("-D" : Str), ("INPUT" : Str)] ∧ ruleOf args ∈ rules then some (rules.erase (ruleOf args))
      else none := by
  unfold editInput ruleOf
  split
  · rfl
  · rcases args with _ | ⟨flag, _ | ⟨chain, rule⟩⟩
    · rfl
    · exact (if_neg Bool.false_ne_true).trans ((if_neg (by simp)).trans (if_neg (by simp))).symm
    · have hTake : ∀ f : Str, (flag :: chain :: rule).take 2 = [f, ("INPUT" : Str)] ↔ flag = f ∧ chain = "INPUT" :=
        fun f => by simp
      have hRule : (flag :: chain :: rule).drop 2 = rule := rfl
      have hEdit : editChain (flag :: chain :: rule) rules =
          if chain ≠ "INPUT" then (false, rules)
          else if flag = "-I" then (true, rule :: rules)
          else if flag = "-D" ∧ rule ∈ rules then (true, rules.erase rule)
          else (false, rules) := rfl
      simp only [hTake, hRule, hEdit]
      split_ifs <;> first | rfl | tauto

/-- An edit of one rule, seen by those who look at others only. -/
theorem editInput_filter (keep : Rule → Bool) {args : List Str} (h : keep (ruleOf args) = true) (rules : List Rule) :
    editInput args (rules.filter keep) = (editInput args rules).map (List.filter keep) := by
  have hMem : ruleOf args ∈ rules.filter keep ↔ ruleOf args ∈ rules := by
    rw [List.mem_filter]
    exact and_iff_left h
  simp only [editInput_eq, hMem]
  split_ifs
  · simp [h]
  · simp [h]
  · rw [Option.map_some, List.erase_filter]
  · rfl

theorem port_number_inj {a b : UInt16} (h : natToString a.toNat = natToString b.toNat) : a = b :=
  UInt16.toNat_inj.1 (natToString_inj.1 h)

/-- The rules of two ports are equal only when the ports are. -/
theorem inputRule_inj {tag : Str} {p q : Port} : inputRule tag p = inputRule tag q ↔ p = q := by
  constructor
  · intro h
    unfold inputRule Port.number at h
    simp only [List.cons.injEq, and_true, true_and] at h
    exact Prod.ext (port_number_inj h.2) h.1
  · rintro rfl
    rfl

/-- A rule that carries this tag. -/
def isOwn (tag : Str) (rule : Rule) : Bool :=
  rule.drop 4 = [("-m" : Str), ("comment" : Str), ("--comment" : Str), tag, ("-j" : Str), ("ACCEPT" : Str)]

theorem isOwn_inputRule (tag : Str) (p : Port) : isOwn tag (inputRule tag p) = true := decide_eq_true rfl

-- ---------------------------------------------------------------------------
-- The commands on the chain
-- ---------------------------------------------------------------------------

section Iptables

variable (works : Nat → Bool)

/-- What the chain is after an edit, and what `iptables` returns. -/
def InputChain.edited (c : InputChain) : Option (List Rule) → Except Str CmdOutput × InputChain
  | some rules => (.ok ⟨true, [], []⟩, ⟨rules, c.time + 1⟩)
  | none => (.ok ⟨false, [], []⟩, ⟨c.rules, c.time + 1⟩)

theorem output_iptables (args : List Str) (c : InputChain) :
    (iptablesMachine works).output ⟨"iptables", args⟩ c =
      c.edited (if works c.time then editInput args c.rules else none) := by
  unfold iptablesMachine InputChain.edited
  simp only [and_true] <;> rfl

theorem editInput_add (rule : Rule) (rules : List Rule) :
    editInput ("-A" :: "INPUT" :: rule) rules = some (rules ++ [rule]) := rfl

theorem editInput_delete (rule : Rule) (rules : List Rule) :
    editInput ("-D" :: "INPUT" :: rule) rules = if rule ∈ rules then some (rules.erase rule) else none := by
  have hFlag : ∀ f : Str, ("-D" : Str) ≠ f →
      ¬(("-D" :: "INPUT" :: rule : List Str).take 2 = [f, ("INPUT" : Str)]) := fun f hNe h =>
    hNe (List.cons.inj h).1
  rw [editInput_eq, if_neg (hFlag _ (by decide)), if_neg (hFlag _ (by decide))]
  by_cases hThere : rule ∈ rules
  · rw [if_pos hThere]
    exact if_pos ⟨rfl, hThere⟩
  · rw [if_neg hThere]
    exact if_neg fun h => hThere h.2

/-- A manager of iptables that runs its commands. -/
structure FirewallManager.Iptables (tag : Str) (m : FirewallManager) : Prop where
  backend : m.backend = .iptables
  tagged : m.tag = tag
  runs : m.dryRun = false

variable {tag : Str} {m : FirewallManager}

theorem openPort_iptables (h : m.Iptables tag) (p : Port) (c : InputChain) :
    FirewallManager.openPort (iptablesMachine works) (m, c) p =
      if works c.time then
        ({ m with opened := m.opened ++ [⟨p, none⟩] }, ⟨c.rules ++ [inputRule tag p], c.time + 1⟩)
      else (m, ⟨c.rules, c.time + 1⟩) := by
  have hCmd : addCmd m.backend m.tag p = some ⟨"iptables", "-A" :: "INPUT" :: inputRule tag p⟩ := by
    rw [h.backend, h.tagged]
    rfl
  have hHandle : ∀ out, handleIn m.backend out = none := fun out => by
    rw [h.backend]
    rfl
  rw [openPort_eq _ h.runs hCmd, output_iptables, editInput_add]
  rcases works c.time with _ | _
  · rfl
  · simp only [if_true, hHandle]
    rfl

theorem closeRule_iptables (h : m.Iptables tag) (r : OpenRule) (c : InputChain) :
    (m.closeRule (iptablesMachine works) r).exec c =
      if works c.time ∧ inputRule tag r.port ∈ c.rules then
        (.ok (), ⟨c.rules.erase (inputRule tag r.port), c.time + 1⟩)
      else (.error [], ⟨c.rules, c.time + 1⟩) := by
  have hCmd : deleteCmd m.backend m.tag r = some ⟨"iptables", "-D" :: "INPUT" :: inputRule tag r.port⟩ := by
    rw [h.backend, h.tagged]
    rfl
  rw [closeRule_eq _ h.runs hCmd, output_iptables, editInput_delete]
  rcases works c.time with _ | _
  · rfl
  · by_cases hThere : inputRule tag r.port ∈ c.rules
    · rw [if_pos rfl, if_pos hThere, if_pos ⟨rfl, hThere⟩]
      rfl
    · rw [if_pos rfl, if_neg hThere, if_neg fun h => hThere h.2]
      rfl

/-- How many of these rules are for a port. -/
def forPort (rules : List OpenRule) (p : Port) : Nat := rules.countP fun r => decide (r.port = p)

theorem forPort_append (a b : List OpenRule) (p : Port) : forPort (a ++ b) p = forPort a p + forPort b p :=
  List.countP_append ..

theorem forPort_singleton (r : OpenRule) (p : Port) : forPort [r] p = if r.port = p then 1 else 0 := by
  unfold forPort
  rw [List.countP_singleton]
  simp only [decide_eq_true_eq]

theorem count_inputRule (p q : Port) : (inputRule tag p == inputRule tag q) = decide (p = q) := by
  rw [Bool.eq_iff_iff, beq_iff_eq, decide_eq_true_eq]
  exact inputRule_inj

/-- Opening ports: each that is opened is in the chain once more. -/
theorem opens_iptables (h : m.Iptables tag) (ports : List Port) (c : InputChain) :
    ∃ opened c', ports.foldl (FirewallManager.openPort (iptablesMachine works)) (m, c) =
        ({ m with opened := m.opened ++ opened }, c') ∧
      (∀ p, c'.rules.count (inputRule tag p) = c.rules.count (inputRule tag p) + forPort opened p) ∧
      c'.rules.filter (fun r => !isOwn tag r) = c.rules.filter fun r => !isOwn tag r := by
  induction ports generalizing m c with
  | nil => exact ⟨[], c, by rw [List.append_nil]; rfl, fun p => rfl, rfl⟩
  | cons q ports ih =>
    rw [List.foldl_cons, openPort_iptables works h]
    split
    · obtain ⟨opened, c', hRun, hCount, hOthers⟩ := ih (m := { m with opened := m.opened ++ [⟨q, none⟩] })
        ⟨h.backend, h.tagged, h.runs⟩ ⟨c.rules ++ [inputRule tag q], c.time + 1⟩
      refine ⟨⟨q, none⟩ :: opened, c', ?_, fun p => ?_, ?_⟩
      · rw [hRun, List.append_assoc]
        rfl
      · have hHead := forPort_append [⟨q, none⟩] opened p
        rw [forPort_singleton] at hHead
        rw [hCount, List.count_append, List.count_singleton, count_inputRule, ← List.singleton_append, hHead]
        simp only [decide_eq_true_eq]
        omega
      · rw [hOthers, List.filter_append]
        simp [isOwn_inputRule]
    · exact ih h _

/-- Closing rules: each that is closed is in the chain once less. -/
theorem closes_iptables (h : m.Iptables tag) (rules : List OpenRule) (c : InputChain) :
    (∀ p, (rules.foldl (fun s r => ((m.closeRule (iptablesMachine works) r).exec s).2) c).rules.count
        (inputRule tag p) + forPort rules p =
      c.rules.count (inputRule tag p) + forPort (m.failedCloses (iptablesMachine works) rules c) p) ∧
    (rules.foldl (fun s r => ((m.closeRule (iptablesMachine works) r).exec s).2) c).rules.filter
        (fun r => !isOwn tag r) =
      c.rules.filter fun r => !isOwn tag r := by
  induction rules generalizing c with
  | nil => exact ⟨fun p => rfl, rfl⟩
  | cons r rules ih =>
    have hSplit := forPort_append [r] rules
    unfold FirewallManager.failedCloses
    rw [List.foldl_cons, closeRule_iptables works h]
    split
    · rename_i hDone
      obtain ⟨hCount, hOthers⟩ := ih ⟨c.rules.erase (inputRule tag r.port), c.time + 1⟩
      refine ⟨fun p => ?_, ?_⟩
      · have hErased : (c.rules.erase (inputRule tag r.port)).count (inputRule tag p) + forPort [r] p =
            c.rules.count (inputRule tag p) := by
          have hPos := List.count_pos_iff.2 hDone.2
          rw [forPort_singleton, List.count_erase, count_inputRule]
          simp only [decide_eq_true_eq]
          split
          · rename_i hSame
            rw [hSame] at hPos
            omega
          · omega
        have hRest := hCount p
        have hBoth := hSplit p
        rw [List.singleton_append] at hBoth
        dsimp only at hRest
        simp only [Except.isOk, Except.toBool, if_true, List.nil_append]
        omega
      · rw [hOthers]
        show (c.rules.erase (inputRule tag r.port)).filter _ = _
        rw [← List.erase_filter, List.erase_of_not_mem]
        rw [List.mem_filter, isOwn_inputRule]
        exact fun hIn => Bool.false_ne_true hIn.2
    · obtain ⟨hCount, hOthers⟩ := ih ⟨c.rules, c.time + 1⟩
      refine ⟨fun p => ?_, hOthers⟩
      have hRest := hCount p
      have hBoth := hSplit p
      have hFailed := forPort_append [r] (m.failedCloses (iptablesMachine works) rules ⟨c.rules, c.time + 1⟩) p
      rw [List.singleton_append] at hBoth
      dsimp only at hRest
      simp only [Except.isOk, Except.toBool, Bool.false_eq_true, if_false]
      omega

/-- Where every command works and the rules are in the chain, none fails to close. -/
theorem failedCloses_nil (hWorks : ∀ t, works t = true) (h : m.Iptables tag) (rules : List OpenRule)
    (c : InputChain) (hThere : ∀ p, forPort rules p ≤ c.rules.count (inputRule tag p)) :
    m.failedCloses (iptablesMachine works) rules c = [] := by
  induction rules generalizing c with
  | nil => rfl
  | cons r rules ih =>
    have hSplit := forPort_append [r] rules
    have hIn : inputRule tag r.port ∈ c.rules := by
      refine List.count_pos_iff.1 (lt_of_lt_of_le ?_ (hThere r.port))
      have hOwn := hSplit r.port
      rw [forPort_singleton, if_pos rfl, List.singleton_append] at hOwn
      omega
    unfold FirewallManager.failedCloses
    have hClose := closeRule_iptables works h r c
    rw [if_pos ⟨hWorks _, hIn⟩] at hClose
    rw [hClose]
    refine ih ⟨c.rules.erase (inputRule tag r.port), c.time + 1⟩ fun p => ?_
    have hBoth := hSplit p
    have hAll := hThere p
    rw [List.singleton_append, forPort_singleton] at hBoth
    show _ ≤ (c.rules.erase (inputRule tag r.port)).count (inputRule tag p)
    rw [List.count_erase, count_inputRule]
    simp only [decide_eq_true_eq]
    split at hBoth
    · rename_i hSame
      rw [if_pos hSame]
      omega
    · rename_i hOther
      rw [if_neg hOther]
      omega

end Iptables

-- ---------------------------------------------------------------------------
-- Runs on a chain
-- ---------------------------------------------------------------------------

/-- The edits of others. -/
def othersArgs : FirewallMove → Option (List Str)
  | .others args => some args
  | _ => none

/-- The edits of others, made on a chain without the rules of this tag. -/
def editedByOthers (moves : List FirewallMove) (rules : List Rule) : List Rule :=
  (moves.filterMap othersArgs).foldl (fun rules args => (editInput args rules).getD rules) rules

theorem editedByOthers_own {moves : List FirewallMove} {move : FirewallMove} (h : othersArgs move = none)
    (rules : List Rule) : editedByOthers (moves ++ [move]) rules = editedByOthers moves rules := by
  unfold editedByOthers
  rw [List.filterMap_append, List.filterMap_cons, h]
  simp

theorem editedByOthers_others {moves : List FirewallMove} {args : List Str} (rules : List Rule) :
    editedByOthers (moves ++ [.others args]) rules =
      (editInput args (editedByOthers moves rules)).getD (editedByOthers moves rules) := by
  unfold editedByOthers
  rw [List.filterMap_append, List.foldl_append]
  rfl

theorem count_edited {rule : Rule} {args : List Str} (h : rule ≠ ruleOf args) (rules : List Rule) :
    ((editInput args rules).getD rules).count rule = rules.count rule := by
  rw [editInput_eq]
  split_ifs
  · simp [List.count_append, Ne.symm h]
  · simp [Ne.symm h]
  · exact List.count_erase_of_ne h
  · rfl

/-- What the chain holds after moves from `start`. -/
structure Balanced (tag : Str) (start : List Rule) (moves : List FirewallMove) (h : FirewallHost) : Prop where
  manager : h.manager.Iptables tag
  own : ∀ p, h.chain.rules.count (inputRule tag p) =
    start.count (inputRule tag p) + (forPort h.manager.opened p + forPort h.left p)
  others : h.chain.rules.filter (fun r => !isOwn tag r) =
    editedByOthers moves (start.filter fun r => !isOwn tag r)

theorem balanced_step {works : Nat → Bool} {tag : Str} {start : List Rule} {moves : List FirewallMove}
    {h : FirewallHost} (hBalanced : Balanced tag start moves h) {move : FirewallMove}
    (hOthers : ∀ args, move = .others args → isOwn tag (ruleOf args) = false) :
    Balanced tag start (moves ++ [move]) (h.step works move) := by
  have hManager := hBalanced.manager
  have hSome : ¬ h.manager.backend = .none := by
    rw [hManager.backend]
    decide
  rcases move with (ports | _) | _ | args
  · obtain ⟨opened, c', hRun, hCount, hFilter⟩ := opens_iptables works hManager ports h.chain
    have hOpen : h.step works (.call (.open ports)) =
        ⟨{ h.manager with opened := h.manager.opened ++ opened }, c', h.left⟩ := by
      unfold FirewallHost.step FirewallManager.open
      dsimp only
      rw [if_neg hSome, hRun]
    rw [hOpen]
    refine ⟨⟨hManager.backend, hManager.tagged, hManager.runs⟩, fun p => ?_, ?_⟩
    · dsimp only
      rw [hCount, hBalanced.own, forPort_append]
      omega
    · rw [hFilter, hBalanced.others, editedByOthers_own rfl]
  · obtain ⟨hCount, hFilter⟩ := closes_iptables works hManager h.manager.opened h.chain
    have hClose : h.step works (.call .close) =
        ⟨{ h.manager with opened := [] },
          h.manager.opened.foldl (fun s r => ((h.manager.closeRule (iptablesMachine works) r).exec s).2) h.chain,
          h.left ++ h.manager.failedCloses (iptablesMachine works) h.manager.opened h.chain⟩ := by
      unfold FirewallHost.step FirewallManager.close
      dsimp only
      rw [if_neg hSome]
    rw [hClose]
    refine ⟨⟨hManager.backend, hManager.tagged, hManager.runs⟩, fun p => ?_, ?_⟩
    · have hLoop := hCount p
      have hBefore := hBalanced.own p
      have hNone : forPort [] p = 0 := rfl
      dsimp only
      rw [forPort_append, hNone]
      omega
    · rw [hFilter, hBalanced.others, editedByOthers_own rfl]
  · refine ⟨⟨hManager.backend, hManager.tagged, hManager.runs⟩, fun p => ?_, ?_⟩
    · have hBefore := hBalanced.own p
      have hNone : forPort [] p = 0 := rfl
      show h.chain.rules.count _ = _ + (forPort [] p + forPort (h.left ++ h.manager.opened) p)
      rw [forPort_append, hNone]
      omega
    · rw [editedByOthers_own rfl]
      exact hBalanced.others
  · have hNot := hOthers args rfl
    refine ⟨hManager, fun p => ?_, ?_⟩
    · refine (count_edited (fun hSame => ?_) h.chain.rules).trans (hBalanced.own p)
      rw [← hSame, isOwn_inputRule] at hNot
      exact Bool.false_ne_true hNot.symm
    · have hKeep : (!isOwn tag (ruleOf args)) = true := by
        rw [hNot]
        rfl
      have hEdit := editInput_filter (fun r => !isOwn tag r) hKeep h.chain.rules
      rw [editedByOthers_others, ← hBalanced.others, hEdit]
      show ((editInput args h.chain.rules).getD h.chain.rules).filter _ = _
      rcases editInput args h.chain.rules with _ | rules
      · rfl
      · rfl

/-- The process crashes with both ports open, and the next one opens and closes them. -/
def afterCrash : List FirewallMove :=
  [.call (.open serverPorts), .others ["-I", "INPUT", "-j", "DROP"], .crash, .call (.open serverPorts), .call .close]

end RunAlexDb
