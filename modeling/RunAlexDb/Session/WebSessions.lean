import RunAlexDb.Lib.Trace
import RunAlexDb.Model.Concrete
import RunAlexDb.Model.Execute
import RunAlexDb.Model.WebUi

/-!
# WebSessions — who may call the web API

The session map follows the ledger of logins and logouts: it has the tokens that
are issued, not logged out and not run out, and at most some of those that have
run out. Whatever the order of logins, logouts, lookups and cleanups, a request
gets to the API just when its cookie was held by somebody when it was looked up.

Main result: `dispatches_iff`.
-/

set_option linter.unusedSectionVars false

namespace RunAlexDb

open Text Platform Leases

section WebSessions

variable [Platform]
variable {fields : Str → Option (Option Str × Option Str)} {genToken : Nat → Str}

-- ---------------------------------------------------------------------------
-- Invariants
-- ---------------------------------------------------------------------------

/-- Owner and expiry of a token in the session map. -/
def storeOf (sessions : SessionStore) (token : Str) : Option (Str × Nat) :=
  (sessions.get token).map fun entry => (entry.username, entry.expires)

/-- The session map follows the ledger, and a cleanup works with a time that has
been. -/
structure WebUi.Tracks (w : WebUi) : Prop where
  follows : Follows sessionTtl w.ledger w.clock (storeOf w.sessions)
  cleanup : ∀ now, w.cleanup = some now → now ≤ w.clock

/-- A task of this state has the token to insert. -/
def WebUi.HasAccepted (w : WebUi) (i : Nat) (token : Str) : Prop :=
  ∃ username now, w.tasks.get i = some (.accepted username token now)

/-- The tokens of the ledger and of the tasks are drawn ones, and no token is there
twice. -/
structure WebUi.TokensApart (genToken : Nat → Str) (w : WebUi) : Prop where
  accepted : ∀ i token, w.HasAccepted i token → token ∉ issuedTokens w.ledger
  drawn : ∀ i token, w.HasAccepted i token → ∃ k < w.drawn, token = genToken k
  apart : ∀ i j token, w.HasAccepted i token → w.HasAccepted j token → i = j
  issued : ∀ token ∈ issuedTokens w.ledger, ∃ k < w.drawn, token = genToken k
  once : (issuedTokens w.ledger).Nodup

-- ---------------------------------------------------------------------------
-- The session map
-- ---------------------------------------------------------------------------

theorem storeOf_remove (sessions : SessionStore) (token t : Str) :
    storeOf (sessions.remove token) t = if t = token then none else storeOf sessions t := by
  unfold storeOf
  rw [HashMap.get_remove]
  split_ifs <;> rfl

theorem storeOf_insert (sessions : SessionStore) (token t : Str) (entry : SessionEntry) :
    storeOf (sessions.insert token entry) t =
      if t = token then some (entry.username, entry.expires) else storeOf sessions t := by
  unfold storeOf
  rw [HashMap.get_insert]
  split_ifs <;> rfl

/-- What a lookup answers, and what it leaves. -/
theorem sessionUser_spec (now : Nat) (token : Str) (sessions : SessionStore) :
    (∀ u, (sessionUser now token sessions).1 = some u ↔
      ∃ expiry, storeOf sessions token = some (u, expiry) ∧ now < expiry) ∧
    ∀ t, storeOf (sessionUser now token sessions).2 t = storeOf sessions t ∨
      storeOf (sessionUser now token sessions).2 t = none ∧
        ∀ u expiry, storeOf sessions t = some (u, expiry) → expiry ≤ now := by
  unfold sessionUser
  rcases hEntry : sessions.get token with _ | ⟨username, expires⟩
  · have hNone : storeOf sessions token = none := by
      unfold storeOf
      rw [hEntry]
      rfl
    refine ⟨fun u => ?_, fun t => .inl rfl⟩
    rw [hNone]
    simp
  · have hSome : storeOf sessions token = some (username, expires) := by
      unfold storeOf
      rw [hEntry]
      rfl
    simp only
    split_ifs with hYoung
    · refine ⟨fun u => ?_, fun t => .inl rfl⟩
      rw [hSome]
      constructor
      · intro hUser
        exact ⟨expires, by rw [Option.some.inj hUser], hYoung⟩
      · rintro ⟨expiry, hThere, -⟩
        exact congrArg (fun p => some p.1) (Option.some.inj hThere)
    · refine ⟨fun u => ?_, fun t => ?_⟩
      · rw [hSome]
        constructor
        · intro hNone
          cases hNone
        · rintro ⟨expiry, hThere, hLate⟩
          obtain ⟨-, rfl⟩ := Prod.mk.inj (Option.some.inj hThere)
          exact absurd hLate hYoung
      · rw [storeOf_remove]
        by_cases hSame : t = token
        · subst hSame
          refine .inr ⟨if_pos rfl, fun u expiry hThere => ?_⟩
          rw [hSome] at hThere
          obtain ⟨-, rfl⟩ := Prod.mk.inj (Option.some.inj hThere)
          omega
        · exact .inl (if_neg hSame)

namespace WebUi

/-- The lookup of a request finds whoever holds its cookie. -/
theorem lookUp_iff {w : WebUi} (hTracks : w.Tracks) (hApart : w.TokensApart genToken) (r : Request)
    (u : Str) :
    (w.lookUp r).1 = some u ↔
      ∃ token, r.token = some token ∧ Held sessionTtl w.ledger w.clock token u := by
  unfold lookUp
  rcases r.token with _ | token
  · simp
  · simp only [Option.some.injEq, exists_eq_left']
    rw [(sessionUser_spec w.clock token w.sessions).1 u]
    exact hTracks.follows.held_iff hApart.once token u

theorem tracks_lookUp {w : WebUi} (h : w.Tracks) (r : Request) :
    Follows sessionTtl w.ledger w.clock (storeOf (w.lookUp r).2) := by
  unfold lookUp
  rcases r.token with _ | token
  · exact h.follows
  · exact h.follows.purge (sessionUser_spec w.clock token w.sessions).2

-- ---------------------------------------------------------------------------
-- Steps
-- ---------------------------------------------------------------------------

/-- The routes: a task ends, a login is accepted, or a token is logged out. -/
theorem routed_cases (fields : Str → Option (Option Str × Option Str)) (genToken : Nat → Str)
    (w : WebUi) (i : Nat) (r : Request) :
    w.routed fields genToken i r = w.finish i ∨
      (∃ username, w.routed fields genToken i r =
        { w with
          drawn := w.drawn + 1
          tasks := w.tasks.insert i (.accepted username (genToken w.drawn) w.clock) }) ∨
      ∃ token, w.routed fields genToken i r =
        { w.finish i with
          sessions := w.sessions.remove token
          ledger := w.ledger ++ [.revoked token] } := by
  unfold routed
  rcases r.route
  case login =>
    rcases loginUser fields w.config w.engine r.body with _ | username
    · exact .inl rfl
    · exact .inr (.inl ⟨username, rfl⟩)
  case logout =>
    rcases r.token with _ | token
    · exact .inl rfl
    · exact .inr (.inr ⟨token, rfl⟩)
  all_goals exact .inl rfl

/-- **A step keeps the map on the ledger.** -/
theorem tracks_step {w : WebUi} (h : w.Tracks) (l : WebStep) : (w.step fields genToken l).Tracks := by
  rcases l with d | e | ⟨i, raw⟩ | i | i | i | _ | _
  case tick =>
    have hLater : w.clock ≤ w.clock + d := Nat.le_add_right ..
    exact ⟨h.follows.later hLater, fun now hNow => (h.cleanup now hNow).trans hLater⟩
  case engine => exact ⟨h.follows, h.cleanup⟩
  case accept =>
    unfold step
    simp only
    split
    · exact ⟨h.follows, h.cleanup⟩
    · exact h
  case lookup =>
    unfold step
    simp only
    split
    · exact ⟨tracks_lookUp h _, h.cleanup⟩
    · exact h
  case route =>
    unfold step
    simp only
    split
    · rename_i r _ _
      rcases routed_cases fields genToken w i r with hEnd | ⟨username, hEnd⟩ | ⟨token, hEnd⟩
      · rw [hEnd]
        exact ⟨h.follows, h.cleanup⟩
      · rw [hEnd]
        exact ⟨h.follows, h.cleanup⟩
      · rw [hEnd]
        refine ⟨h.follows.revoke ?_ fun t hOther => ?_, h.cleanup⟩
        · exact (storeOf_remove w.sessions token token).trans (if_pos rfl)
        · exact (storeOf_remove w.sessions token t).trans (if_neg hOther)
    · exact h
  case insert =>
    unfold step
    simp only
    split
    · rename_i username token now _
      refine ⟨h.follows.issue ?_ fun t hOther => ?_, h.cleanup⟩
      · exact (storeOf_insert w.sessions token token _).trans (if_pos rfl)
      · exact (storeOf_insert w.sessions token t _).trans (if_neg hOther)
    · exact h
  case cleanupNow =>
    refine ⟨h.follows, fun now hNow => ?_⟩
    obtain rfl := Option.some.inj hNow
    exact Nat.le_refl _
  case cleanupRetain =>
    unfold step
    simp only
    split
    · exact h
    · rename_i now hNow
      have hPast := h.cleanup now hNow
      refine ⟨h.follows.purge fun token => ?_, fun now' hNone => ?_⟩
      · unfold storeOf
        rw [HashMap.get_retain]
        rcases w.sessions.get token with _ | entry
        · exact .inl rfl
        · by_cases hKeep : now < entry.expires
          · refine .inl ?_
            rw [Option.filter_some, if_pos (decide_eq_true hKeep)]
          · refine .inr ⟨?_, fun u expiry hThere => ?_⟩
            · rw [Option.filter_some, if_neg (by simpa using hKeep)]
              rfl
            · obtain ⟨-, rfl⟩ := Prod.mk.inj (Option.some.inj hThere)
              omega
      · cases hNone

/-- Tokens stay apart where no new one comes. -/
theorem TokensApart.of_le {w w' : WebUi} (h : w.TokensApart genToken) (hDrawn : w.drawn ≤ w'.drawn)
    (hIssued : issuedTokens w'.ledger = issuedTokens w.ledger)
    (hTasks : ∀ i token, w'.HasAccepted i token → w.HasAccepted i token) :
    w'.TokensApart genToken where
  accepted i token hHas := by
    rw [hIssued]
    exact h.accepted i token (hTasks i token hHas)
  drawn i token hHas := by
    obtain ⟨k, hk, rfl⟩ := h.drawn i token (hTasks i token hHas)
    exact ⟨k, by omega, rfl⟩
  apart i j token hi hj := h.apart i j token (hTasks i token hi) (hTasks j token hj)
  issued token hMem := by
    rw [hIssued] at hMem
    obtain ⟨k, hk, rfl⟩ := h.issued token hMem
    exact ⟨k, by omega, rfl⟩
  once := hIssued ▸ h.once

/-- The task of a step goes on, or ends, without a token. -/
theorem hasAccepted_insert {w w' : WebUi} {i : Nat} {task : Task}
    (hTasks : w'.tasks = w.tasks.insert i task) (hTask : ∀ u token now, task ≠ .accepted u token now)
    (j : Nat) (token : Str) (h : w'.HasAccepted j token) : w.HasAccepted j token := by
  obtain ⟨u, now, hGet⟩ := h
  rw [hTasks, HashMap.get_insert] at hGet
  split_ifs at hGet with hSame
  · exact absurd (Option.some.inj hGet) (hTask u token now)
  · exact ⟨u, now, hGet⟩

theorem hasAccepted_remove {w w' : WebUi} {i : Nat} (hTasks : w'.tasks = w.tasks.remove i) (j : Nat)
    (token : Str) (h : w'.HasAccepted j token) : w.HasAccepted j token ∧ j ≠ i := by
  obtain ⟨u, now, hGet⟩ := h
  rw [hTasks, HashMap.get_remove] at hGet
  split_ifs at hGet with hSame
  exact ⟨⟨u, now, hGet⟩, hSame⟩

/-- A login draws a token that is nowhere yet. -/
theorem TokensApart.draw {w : WebUi} (hInj : Function.Injective genToken)
    (h : w.TokensApart genToken) (i : Nat) (username : Str) (now : Nat) :
    TokensApart genToken { w with
      drawn := w.drawn + 1
      tasks := w.tasks.insert i (.accepted username (genToken w.drawn) now) } := by
  have hNew : ∀ j token, HasAccepted { w with
      drawn := w.drawn + 1
      tasks := w.tasks.insert i (.accepted username (genToken w.drawn) now) } j token →
        (j = i ∧ token = genToken w.drawn) ∨ w.HasAccepted j token := by
    rintro j token ⟨u, now', hGet⟩
    simp only [HashMap.get_insert] at hGet
    split_ifs at hGet with hSame
    · obtain ⟨-, hToken, -⟩ := Task.accepted.inj (Option.some.inj hGet)
      exact .inl ⟨hSame, hToken.symm⟩
    · exact .inr ⟨u, now', hGet⟩
  have hFresh : ∀ k < w.drawn, genToken k ≠ genToken w.drawn := by
    intro k hk hSame
    have := hInj hSame
    omega
  constructor
  · intro j token hHas hIssued
    rcases hNew j token hHas with ⟨-, rfl⟩ | hOld
    · obtain ⟨k, hk, hSame⟩ := h.issued _ hIssued
      exact hFresh k hk hSame.symm
    · exact h.accepted j token hOld hIssued
  · intro j token hHas
    rcases hNew j token hHas with ⟨-, rfl⟩ | hOld
    · exact ⟨w.drawn, Nat.lt_succ_self _, rfl⟩
    · obtain ⟨k, hk, rfl⟩ := h.drawn j token hOld
      exact ⟨k, Nat.lt_succ_of_lt hk, rfl⟩
  · intro j j' token hj hj'
    rcases hNew j token hj with ⟨rfl, rfl⟩ | hOld <;> rcases hNew j' _ hj' with ⟨rfl, hSame⟩ | hOld'
    · rfl
    · obtain ⟨k, hk, hSame⟩ := h.drawn j' _ hOld'
      exact absurd hSame.symm (hFresh k hk)
    · subst hSame
      obtain ⟨k, hk, hSame⟩ := h.drawn j _ hOld
      exact absurd hSame.symm (hFresh k hk)
    · exact h.apart j j' token hOld hOld'
  · intro token hMem
    obtain ⟨k, hk, rfl⟩ := h.issued token hMem
    exact ⟨k, Nat.lt_succ_of_lt hk, rfl⟩
  · exact h.once

/-- The token of a task goes into the ledger. -/
theorem TokensApart.issue {w w' : WebUi} (h : w.TokensApart genToken) {i : Nat} {username token : Str}
    {now : Nat} (hTask : w.tasks.get i = some (.accepted username token now))
    (hDrawn : w'.drawn = w.drawn) (hTasks : w'.tasks = w.tasks.remove i)
    (hLedger : w'.ledger = w.ledger ++ [.issued token username now]) : w'.TokensApart genToken := by
  have hIssued : issuedTokens w'.ledger = issuedTokens w.ledger ++ [token] := by
    rw [hLedger, issuedTokens_append]
    rfl
  have hHas : w.HasAccepted i token := ⟨username, now, hTask⟩
  constructor
  · intro j token' hNew hMem
    obtain ⟨hOld, hOther⟩ := hasAccepted_remove hTasks j token' hNew
    rw [hIssued, List.mem_append, List.mem_singleton] at hMem
    rcases hMem with hMem | rfl
    · exact h.accepted j token' hOld hMem
    · exact hOther (h.apart j i _ hOld hHas)
  · intro j token' hNew
    rw [hDrawn]
    exact h.drawn j token' (hasAccepted_remove hTasks j token' hNew).1
  · intro j j' token' hj hj'
    exact h.apart j j' token' (hasAccepted_remove hTasks j token' hj).1
      (hasAccepted_remove hTasks j' token' hj').1
  · intro token' hMem
    rw [hDrawn]
    rw [hIssued, List.mem_append, List.mem_singleton] at hMem
    rcases hMem with hMem | rfl
    · exact h.issued token' hMem
    · exact h.drawn i _ hHas
  · rw [hIssued, List.nodup_append]
    refine ⟨h.once, List.nodup_singleton _, fun t ht t' ht' => ?_⟩
    rw [List.mem_singleton.1 ht']
    rintro rfl
    exact h.accepted i _ hHas ht

/-- **A step keeps the tokens apart.** -/
theorem tokensApart_step (hInj : Function.Injective genToken) {w : WebUi}
    (h : w.TokensApart genToken) (l : WebStep) :
    (w.step fields genToken l).TokensApart genToken := by
  have hSame : ∀ w' : WebUi, w'.drawn = w.drawn → w'.tasks = w.tasks → w'.ledger = w.ledger →
      w'.TokensApart genToken := by
    intro w' hDrawn hTasks hLedger
    refine h.of_le hDrawn.ge (by rw [hLedger]) fun i token hHas => ?_
    obtain ⟨u, now, hGet⟩ := hHas
    exact ⟨u, now, hTasks ▸ hGet⟩
  rcases l with d | e | ⟨i, raw⟩ | i | i | i | _ | _
  case tick => exact hSame _ rfl rfl rfl
  case engine => exact hSame _ rfl rfl rfl
  case accept =>
    unfold step
    simp only
    split
    · refine h.of_le (Nat.le_refl _) rfl (hasAccepted_insert rfl ?_)
      intro u token now hTask
      cases hTask
    · exact h
  case lookup =>
    unfold step
    simp only
    split
    · refine h.of_le (Nat.le_refl _) rfl (hasAccepted_insert rfl ?_)
      intro u token now hTask
      cases hTask
    · exact h
  case route =>
    unfold step
    simp only
    split
    · rename_i r _ _
      rcases routed_cases fields genToken w i r with hEnd | ⟨username, hEnd⟩ | ⟨token, hEnd⟩
      · rw [hEnd]
        exact h.of_le (Nat.le_refl _) rfl fun j t hHas => (hasAccepted_remove rfl j t hHas).1
      · rw [hEnd]
        exact h.draw hInj i username w.clock
      · rw [hEnd]
        refine h.of_le (Nat.le_refl _) ?_ fun j t hHas => (hasAccepted_remove rfl j t hHas).1
        show issuedTokens (w.ledger ++ [.revoked token]) = issuedTokens w.ledger
        rw [issuedTokens_append]
        exact List.append_nil _
    · exact h
  case insert =>
    unfold step
    simp only
    split
    · rename_i username token now hTask
      exact h.issue hTask rfl rfl rfl
    · exact h
  case cleanupNow => exact hSame _ rfl rfl rfl
  case cleanupRetain =>
    unfold step
    simp only
    split
    · exact h
    · exact hSame _ rfl rfl rfl

-- ---------------------------------------------------------------------------
-- Runs
-- ---------------------------------------------------------------------------

theorem tracks_start (cfg : WebConfig) (e : Engine) (clock : Nat) : (start cfg e clock).Tracks where
  follows := .nil
  cleanup now hNow := by cases hNow

theorem tokensApart_start (cfg : WebConfig) (e : Engine) (clock : Nat) :
    (start cfg e clock).TokensApart genToken where
  accepted i token hHas := by
    obtain ⟨u, now, hNone⟩ := hHas
    cases hNone
  drawn i token hHas := by
    obtain ⟨u, now, hNone⟩ := hHas
    cases hNone
  apart i j token hHas := by
    obtain ⟨u, now, hNone⟩ := hHas
    cases hNone
  issued token hNone := by cases hNone
  once := List.nodup_nil

theorem tracks_run (fields : Str → Option (Option Str × Option Str)) (genToken : Nat → Str)
    (cfg : WebConfig) (e : Engine) (clock : Nat) (ls : List WebStep) :
    (Trace.run (step fields genToken) (start cfg e clock) ls).Tracks := by
  have hStep : ∀ w l, Tracks w → Tracks (step fields genToken w l) := fun _ l h => tracks_step h l
  exact Trace.invariant_run_all hStep (tracks_start cfg e clock) ls

theorem tokensApart_run (fields : Str → Option (Option Str × Option Str))
    (hInj : Function.Injective genToken) (cfg : WebConfig) (e : Engine) (clock : Nat)
    (ls : List WebStep) :
    (Trace.run (step fields genToken) (start cfg e clock) ls).TokensApart genToken := by
  have hStep : ∀ w l, TokensApart genToken w → TokensApart genToken (step fields genToken w l) :=
    fun _ l h => tokensApart_step hInj h l
  exact Trace.invariant_run_all hStep (tokensApart_start cfg e clock) ls

/-- A task that has looked up stays as it is until its route is taken. -/
theorem looked_step {w : WebUi} {i : Nat} {r : Request} {name : Option Str} {l : WebStep}
    (h : w.tasks.get i = some (.looked r name)) (hOther : l ≠ .route i) :
    (w.step fields genToken l).tasks.get i = some (.looked r name) := by
  have hApart : ∀ {j : Nat} {task : Task}, w.tasks.get j = some task →
      (∀ r' name', task ≠ .looked r' name') → i ≠ j := by
    rintro j task hTask hNot rfl
    exact hNot r name (Option.some.inj (hTask.symm.trans h))
  rcases l with d | e | ⟨j, raw⟩ | j | j | j | _ | _
  case tick => exact h
  case engine => exact h
  case accept =>
    unfold step
    simp only
    split
    · rename_i hNone _
      have hDiffers : i ≠ j := by
        rintro rfl
        rw [h] at hNone
        cases hNone
      rw [HashMap.get_insert, if_neg hDiffers, h]
    · exact h
  case lookup =>
    unfold step
    simp only
    split
    · rename_i hTask
      have hDiffers := hApart hTask fun _ _ hTask => by cases hTask
      rw [HashMap.get_insert, if_neg hDiffers, h]
    · exact h
  case route =>
    have hDiffers : i ≠ j := fun hSame => hOther (hSame ▸ rfl)
    unfold step
    simp only
    split
    · rename_i r' _ _
      rcases routed_cases fields genToken w j r' with hEnd | ⟨username, hEnd⟩ | ⟨token, hEnd⟩ <;> rw [hEnd]
      · exact (HashMap.get_remove ..).trans ((if_neg hDiffers).trans h)
      · exact (HashMap.get_insert ..).trans ((if_neg hDiffers).trans h)
      · exact (HashMap.get_remove ..).trans ((if_neg hDiffers).trans h)
    · exact h
  case insert =>
    unfold step
    simp only
    split
    · rename_i hTask
      have hDiffers := hApart hTask fun _ _ hTask => by cases hTask
      exact (HashMap.get_remove ..).trans ((if_neg hDiffers).trans h)
    · exact h
  case cleanupNow => exact h
  case cleanupRetain =>
    unfold step
    simp only
    split <;> exact h

/-- A task has looked up because it just does, or because it had before. -/
theorem looked_of_step {w : WebUi} {i : Nat} {r : Request} {name : Option Str} {l : WebStep}
    (h : (w.step fields genToken l).tasks.get i = some (.looked r name)) :
    (l ≠ .route i ∧ w.tasks.get i = some (.looked r name)) ∨
      l = .lookup i ∧ w.tasks.get i = some (.received r) ∧ (w.lookUp r).1 = name := by
  rcases l with d | e | ⟨j, raw⟩ | j | j | j | _ | _
  case tick => exact .inl ⟨WebStep.noConfusion, h⟩
  case engine => exact .inl ⟨WebStep.noConfusion, h⟩
  case accept =>
    refine .inl ⟨WebStep.noConfusion, ?_⟩
    unfold step at h
    simp only at h
    split at h
    · rw [HashMap.get_insert] at h
      split_ifs at h
      · cases Option.some.inj h
      · exact h
    · exact h
  case lookup =>
    unfold step at h
    simp only at h
    split at h
    · rename_i r' hTask
      rw [HashMap.get_insert] at h
      split_ifs at h with hSame
      · subst hSame
        obtain ⟨rfl, rfl⟩ := Task.looked.inj (Option.some.inj h)
        exact .inr ⟨rfl, hTask, rfl⟩
      · exact .inl ⟨WebStep.noConfusion, h⟩
    · exact .inl ⟨WebStep.noConfusion, h⟩
  case route =>
    refine .inl ?_
    unfold step at h
    simp only at h
    split at h
    · rename_i r' _ _
      have hRest : i ≠ j ∧ w.tasks.get i = some (.looked r name) := by
        rcases routed_cases fields genToken w j r' with hEnd | ⟨username, hEnd⟩ | ⟨token, hEnd⟩ <;>
          rw [hEnd] at h
        · have hGone := (HashMap.get_remove w.tasks j i).symm.trans h
          split_ifs at hGone with hSame
          exact ⟨hSame, hGone⟩
        · have hNew := (HashMap.get_insert w.tasks j i _).symm.trans h
          split_ifs at hNew with hSame
          · cases Option.some.inj hNew
          · exact ⟨hSame, hNew⟩
        · have hGone := (HashMap.get_remove w.tasks j i).symm.trans h
          split_ifs at hGone with hSame
          exact ⟨hSame, hGone⟩
      exact ⟨fun hRoute => hRest.1 (WebStep.route.inj hRoute).symm, hRest.2⟩
    · rename_i hNot
      refine ⟨fun hRoute => ?_, h⟩
      obtain rfl := WebStep.route.inj hRoute
      exact hNot r name h
  case insert =>
    refine .inl ⟨WebStep.noConfusion, ?_⟩
    unfold step at h
    simp only at h
    split at h
    · have hGone := (HashMap.get_remove w.tasks j i).symm.trans h
      split_ifs at hGone
      exact hGone
    · exact h
  case cleanupNow => exact .inl ⟨WebStep.noConfusion, h⟩
  case cleanupRetain =>
    refine .inl ⟨WebStep.noConfusion, ?_⟩
    unfold step at h
    simp only at h
    split at h <;> exact h

theorem step_lookup {w : WebUi} {i : Nat} {r : Request} (h : w.tasks.get i = some (.received r)) :
    (w.step fields genToken (.lookup i)).tasks.get i = some (.looked r (w.lookUp r).1) := by
  unfold step
  simp only [h]
  rw [HashMap.get_insert, if_pos rfl]

/-- Where a lookup came from: a request was received, and its route is not taken
since. -/
theorem looked_run (fields : Str → Option (Option Str × Option Str)) (genToken : Nat → Str)
    {w : WebUi} (hNone : ∀ i, w.tasks.get i = none) (ls : List WebStep) (i : Nat)
    (r : Request) (name : Option Str) :
    (Trace.run (step fields genToken) w ls).tasks.get i = some (.looked r name) ↔
      ∃ ls₁ ls₂, ls = ls₁ ++ .lookup i :: ls₂ ∧ .route i ∉ ls₂ ∧
        (Trace.run (step fields genToken) w ls₁).tasks.get i = some (.received r) ∧
          ((Trace.run (step fields genToken) w ls₁).lookUp r).1 = name := by
  constructor
  · intro h
    induction ls using List.reverseRecOn with
    | nil =>
      rw [Trace.run_nil, hNone] at h
      cases h
    | append_singleton ls l ih =>
      rw [Trace.run_append, Trace.run_cons, Trace.run_nil] at h
      rcases looked_of_step h with ⟨hOther, hBefore⟩ | ⟨rfl, hReceived, hName⟩
      · obtain ⟨ls₁, ls₂, rfl, hNot, hReceived, hName⟩ := ih hBefore
        refine ⟨ls₁, ls₂ ++ [l], by simp, ?_, hReceived, hName⟩
        rw [List.mem_append, List.mem_singleton, not_or]
        exact ⟨hNot, Ne.symm hOther⟩
      · exact ⟨ls, [], rfl, List.not_mem_nil, hReceived, hName⟩
  · rintro ⟨ls₁, ls₂, rfl, hNot, hReceived, hName⟩
    rw [Trace.run_append, Trace.run_cons]
    have hLooked : ((Trace.run (step fields genToken) w ls₁).step fields genToken (.lookup i)).tasks.get i =
        some (.looked r name) := hName ▸ step_lookup hReceived
    generalize (Trace.run (step fields genToken) w ls₁).step fields genToken (.lookup i) = w₁ at hLooked
    induction ls₂ generalizing w₁ with
    | nil => exact hLooked
    | cons l ls₂ ih =>
      rw [List.mem_cons, not_or] at hNot
      rw [Trace.run_cons]
      exact ih hNot.2 _ (looked_step hLooked (Ne.symm hNot.1))

end WebUi

/-- The API arm. -/
theorem route_api (r : Request) :
    r.route = .api ↔ startsWith r.path "/api/" = true ∧ r.method ≠ "OPTIONS" := by
  have hNone : ∀ path : Str, startsWith path "/api/" = false → startsWith r.path "/api/" = true →
      r.path ≠ path := by
    rintro path hNot hApi rfl
    rw [hApi] at hNot
    cases hNot
  unfold Request.route
  constructor
  · intro hRoute
    split_ifs at hRoute with h₁ h₂ h₃ h₄ h₅ hOptions hApi
    exact ⟨hApi, hOptions⟩
  · rintro ⟨hApi, hOptions⟩
    have hLogin := hNone "/login" (by decide) hApi
    have hLogout := hNone "/logout" (by decide) hApi
    have hRoot := hNone "/" (by decide) hApi
    have hIndex := hNone "/index.html" (by decide) hApi
    have hUi := hNone "/ui" (by decide) hApi
    rw [if_neg fun h => hLogin h.2, if_neg fun h => hLogin h.2, if_neg fun h => hLogout h.2,
      if_neg fun h => h.2.elim hRoot hIndex, if_neg fun h => hUi h.2, if_neg hOptions, if_pos hApi]

/-- **The web API.** In every run `dispatch_api` is called for a user just when the
request is an API request whose cookie, when it was looked up, was a token issued
to that user less than `sessionTtl` before, and not logged out since. -/
theorem dispatches_iff (fields : Str → Option (Option Str × Option Str)) (genToken : Nat → Str)
    (hInj : Function.Injective genToken) (cfg : WebConfig) (e : Engine) (clock : Nat)
    (ls : List WebStep) (l : WebStep) (u : Str) :
    (Trace.run (WebUi.step fields genToken) (.start cfg e clock) ls).dispatches l u ↔
      ∃ i ls₁ ls₂ r token, l = .route i ∧ ls = ls₁ ++ .lookup i :: ls₂ ∧ .route i ∉ ls₂ ∧
        (Trace.run (WebUi.step fields genToken) (.start cfg e clock) ls₁).tasks.get i =
            some (.received r) ∧
          startsWith r.path "/api/" = true ∧ r.method ≠ "OPTIONS" ∧ r.token = some token ∧
            Held sessionTtl (Trace.run (WebUi.step fields genToken) (.start cfg e clock) ls₁).ledger
              (Trace.run (WebUi.step fields genToken) (.start cfg e clock) ls₁).clock token u := by
  have hNone : ∀ i, (WebUi.start cfg e clock).tasks.get i = none := fun _ => rfl
  have hLooked := fun i r name => WebUi.looked_run fields genToken hNone ls i r name
  have hTracks := WebUi.tracks_run fields genToken cfg e clock
  have hApart := WebUi.tokensApart_run fields hInj cfg e clock
  constructor
  · rintro ⟨i, r, rfl, hTask, hRoute⟩
    obtain ⟨ls₁, ls₂, hSplit, hNot, hReceived, hName⟩ := (hLooked i r (some u)).1 hTask
    obtain ⟨token, hToken, hHeld⟩ := (WebUi.lookUp_iff (hTracks ls₁) (hApart ls₁) r u).1 hName
    obtain ⟨hApi, hOptions⟩ := (route_api r).1 hRoute
    exact ⟨i, ls₁, ls₂, r, token, rfl, hSplit, hNot, hReceived, hApi, hOptions, hToken, hHeld⟩
  · rintro ⟨i, ls₁, ls₂, r, token, rfl, hSplit, hNot, hReceived, hApi, hOptions, hToken, hHeld⟩
    have hName := (WebUi.lookUp_iff (hTracks ls₁) (hApart ls₁) r u).2 ⟨token, hToken, hHeld⟩
    exact ⟨i, r, rfl, (hLooked i r (some u)).2 ⟨ls₁, ls₂, hSplit, hNot, hReceived, hName⟩,
      (route_api r).2 ⟨hApi, hOptions⟩⟩

end WebSessions

-- ---------------------------------------------------------------------------
-- A login and a call
-- ---------------------------------------------------------------------------

section LoggedIn

set_option maxRecDepth 2000

local instance webSessionsPlatform : Platform := tablePlatform []

def adminConfig : WebConfig := ⟨"admin", "pw"⟩

/-- The JSON of one login. -/
def adminFields (body : Str) : Option (Option Str × Option Str) :=
  if body = "\x7b\"username\":\"admin\",\"password\":\"pw\"\x7d" then some (some "admin", some "pw") else none

def loginRequest : Str :=
  "POST /login HTTP/1.1\r\n\r\n\x7b\"username\":\"admin\",\"password\":\"pw\"\x7d"

def apiRequest : Str := "GET /api/users HTTP/1.1\r\nCookie: session=0\r\n\r\n"

/-- The administrator logs in and gets the token 0; somebody calls the API with it. -/
def loginRun : List WebStep :=
  [.accept 0 loginRequest, .lookup 0, .route 0, .insert 0, .accept 1 apiRequest]

theorem natToString_injective : Function.Injective natToString := fun _ _ h => natToString_inj.1 h

theorem dispatches_iff_admin :
    (Trace.run (WebUi.step adminFields natToString) (.start adminConfig (Engine.fresh []) 0)
      (loginRun ++ [.lookup 1])).dispatches (.route 1) "admin" := by
  have hReceived : (Trace.run (WebUi.step adminFields natToString)
      (.start adminConfig (Engine.fresh []) 0) loginRun).tasks.get 1 =
        some (.received ⟨"GET", "/api/users", [], some "0"⟩) := by
    decide +kernel
  have hHeld : Held sessionTtl (Trace.run (WebUi.step adminFields natToString)
      (.start adminConfig (Engine.fresh []) 0) loginRun).ledger (Trace.run (WebUi.step adminFields
        natToString) (.start adminConfig (Engine.fresh []) 0) loginRun).clock "0" "admin" := by
    have hLedger : (Trace.run (WebUi.step adminFields natToString)
        (.start adminConfig (Engine.fresh []) 0) loginRun).ledger = [.issued "0" "admin" 0] := by
      decide +kernel
    have hClock : (Trace.run (WebUi.step adminFields natToString)
        (.start adminConfig (Engine.fresh []) 0) loginRun).clock = 0 := by
      decide +kernel
    have hYoung : 0 < 0 + sessionTtl := by decide +kernel
    rw [hLedger, hClock]
    exact ⟨[], [], 0, rfl, List.not_mem_nil, hYoung⟩
  have hApi : startsWith "/api/users" "/api/" = true := by decide
  have hMethod : ("GET" : Str) ≠ "OPTIONS" := by decide
  have hSplit : loginRun ++ [.lookup 1] = loginRun ++ .lookup 1 :: [] := rfl
  have hIff := dispatches_iff adminFields natToString natToString_injective adminConfig (Engine.fresh [])
    0 (loginRun ++ [.lookup 1]) (.route 1) "admin"
  rw [hIff]
  refine ⟨1, loginRun, [], _, _, rfl, hSplit, List.not_mem_nil, hReceived, hApi, hMethod, rfl, ?_⟩
  exact hHeld

end LoggedIn

end RunAlexDb
