import Mathlib.Data.List.Induction
import Mathlib.Data.List.Nodup

/-!
# Leases — tokens that are issued, revoked and run out

A ledger is the list of what was issued and revoked, in order. A token is held by
its owner when it was issued, has not been revoked since and is younger than the
time to live. A store follows the ledger when it has the tokens that are held, and
none but issued and unrevoked ones: it may drop a token that has run out at any
time after.

Main results: `held_iff` and `Follows.held_iff`.
-/

namespace Leases

variable {τ ω : Type}

/-- An entry of the ledger. -/
inductive Entry (τ ω : Type)
  | issued (token : τ) (owner : ω) (time : Nat)
  | revoked (token : τ)
deriving DecidableEq, Repr

/-- Token `token`, issued to `owner` at a time less than `ttl` ago, and not revoked
since. -/
def Held (ttl : Nat) (ledger : List (Entry τ ω)) (now : Nat) (token : τ) (owner : ω) : Prop :=
  ∃ before after time, ledger = before ++ .issued token owner time :: after ∧
    .revoked token ∉ after ∧ now < time + ttl

def issuedToken : Entry τ ω → Option τ
  | .issued token _ _ => some token
  | .revoked _ => none

/-- The tokens issued, in order. -/
def issuedTokens (ledger : List (Entry τ ω)) : List τ := ledger.filterMap issuedToken

theorem issuedTokens_append (a b : List (Entry τ ω)) :
    issuedTokens (a ++ b) = issuedTokens a ++ issuedTokens b := List.filterMap_append ..

variable [DecidableEq τ]

-- ---------------------------------------------------------------------------
-- The state of a token
-- ---------------------------------------------------------------------------

def stateStep (token : τ) (state : Option (ω × Nat)) : Entry τ ω → Option (ω × Nat)
  | .issued t owner time => if t = token then some (owner, time) else state
  | .revoked t => if t = token then none else state

/-- Owner and time of the last issue of a token that is not revoked. -/
def state (ledger : List (Entry τ ω)) (token : τ) : Option (ω × Nat) :=
  ledger.foldl (stateStep token) none

theorem state_append (ledger : List (Entry τ ω)) (entry : Entry τ ω) (token : τ) :
    state (ledger ++ [entry]) token = stateStep token (state ledger token) entry := by
  unfold state
  rw [List.foldl_append]
  rfl

/-- The last issue is in the ledger, and no revocation behind it. -/
theorem exists_of_state {ledger : List (Entry τ ω)} {token : τ} {owner : ω} {time : Nat}
    (h : state ledger token = some (owner, time)) :
    ∃ before after, ledger = before ++ .issued token owner time :: after ∧ .revoked token ∉ after := by
  induction ledger using List.reverseRecOn with
  | nil => cases h
  | append_singleton ledger entry ih =>
    rw [state_append] at h
    have hEarlier : state ledger token = some (owner, time) → entry ≠ .revoked token →
        ∃ before after, ledger ++ [entry] = before ++ .issued token owner time :: after ∧
          .revoked token ∉ after := by
      intro hState hOther
      obtain ⟨before, after, rfl, hNone⟩ := ih hState
      refine ⟨before, after ++ [entry], by simp, ?_⟩
      rw [List.mem_append, List.mem_singleton, not_or]
      exact ⟨hNone, Ne.symm hOther⟩
    unfold stateStep at h
    rcases entry with ⟨t, owner', time'⟩ | t
    · simp only at h
      split_ifs at h with hSame
      · obtain ⟨rfl, rfl⟩ := Prod.mk.inj (Option.some.inj h)
        subst hSame
        exact ⟨ledger, [], rfl, List.not_mem_nil⟩
      · refine hEarlier h fun hEntry => ?_
        cases hEntry
    · simp only at h
      split_ifs at h with hSame
      refine hEarlier h fun hEntry => hSame ?_
      exact Entry.revoked.inj hEntry

/-- What follows an issue without a revocation or another issue keeps it. -/
theorem state_of_exists {before after : List (Entry τ ω)} {token : τ} {owner : ω} {time : Nat}
    (hNone : .revoked token ∉ after) (hOnce : token ∉ issuedTokens after) :
    state (before ++ .issued token owner time :: after) token = some (owner, time) := by
  induction after using List.reverseRecOn with
  | nil =>
    rw [state_append]
    exact if_pos rfl
  | append_singleton after entry ih =>
    rw [List.mem_append, List.mem_singleton, not_or] at hNone
    rw [issuedTokens_append, List.mem_append, not_or] at hOnce
    have hAppend : before ++ Entry.issued token owner time :: (after ++ [entry]) =
        (before ++ .issued token owner time :: after) ++ [entry] := by simp
    rw [hAppend, state_append, ih hNone.1 hOnce.1]
    unfold stateStep
    rcases entry with ⟨t, owner', time'⟩ | t
    · have hOther : t ≠ token := by
        rintro rfl
        exact hOnce.2 (by simp [issuedTokens, issuedToken])
      exact if_neg hOther
    · have hOther : t ≠ token := by
        rintro rfl
        exact hNone.2 rfl
      exact if_neg hOther

/-- Where no token is issued twice, a token is held by the owner its state shows. -/
theorem held_iff {ttl : Nat} {ledger : List (Entry τ ω)} (hOnce : (issuedTokens ledger).Nodup)
    (now : Nat) (token : τ) (owner : ω) :
    Held ttl ledger now token owner ↔
      ∃ time, state ledger token = some (owner, time) ∧ now < time + ttl := by
  constructor
  · rintro ⟨before, after, time, rfl, hNone, hYoung⟩
    rw [issuedTokens_append] at hOnce
    have hAfter : (token :: issuedTokens after).Nodup := hOnce.of_append_right
    exact ⟨time, state_of_exists hNone (List.nodup_cons.1 hAfter).1, hYoung⟩
  · rintro ⟨time, hState, hYoung⟩
    obtain ⟨before, after, hLedger, hNone⟩ := exists_of_state hState
    exact ⟨before, after, time, hLedger, hNone, hYoung⟩

-- ---------------------------------------------------------------------------
-- Stores
-- ---------------------------------------------------------------------------

/-- A store of owners and expiry times that follows a ledger. -/
structure Follows (ttl : Nat) (ledger : List (Entry τ ω)) (now : Nat) (store : τ → Option (ω × Nat)) :
    Prop where
  sound : ∀ token owner expiry, store token = some (owner, expiry) →
    ∃ time, state ledger token = some (owner, time) ∧ expiry = time + ttl
  complete : ∀ token owner time, state ledger token = some (owner, time) → now < time + ttl →
    store token = some (owner, time + ttl)

namespace Follows

variable {ttl now : Nat} {ledger : List (Entry τ ω)} {store : τ → Option (ω × Nat)}

theorem nil : Follows ttl ([] : List (Entry τ ω)) now (fun _ => none) :=
  ⟨fun _ _ _ h => (Option.some_ne_none _ h.symm).elim, fun _ _ _ h => (Option.some_ne_none _ h.symm).elim⟩

theorem later {now' : Nat} (h : Follows ttl ledger now store) (hLater : now ≤ now') :
    Follows ttl ledger now' store :=
  ⟨h.sound, fun token owner time hState hYoung => h.complete token owner time hState (by omega)⟩

/-- Entries that have run out may go. -/
theorem purge {store' : τ → Option (ω × Nat)} (h : Follows ttl ledger now store)
    (hPurge : ∀ token, store' token = store token ∨
      store' token = none ∧ ∀ owner expiry, store token = some (owner, expiry) → expiry ≤ now) :
    Follows ttl ledger now store' := by
  constructor
  · intro token owner expiry hThere
    rcases hPurge token with hSame | ⟨hGone, -⟩
    · exact h.sound token owner expiry (hSame ▸ hThere)
    · rw [hGone] at hThere
      cases hThere
  · intro token owner time hState hYoung
    have hThere := h.complete token owner time hState hYoung
    rcases hPurge token with hSame | ⟨-, hOut⟩
    · rw [hSame, hThere]
    · have hExpired := hOut owner (time + ttl) hThere
      omega

theorem issue {token : τ} {owner : ω} {time : Nat} {store' : τ → Option (ω × Nat)}
    (h : Follows ttl ledger now store) (hNew : store' token = some (owner, time + ttl))
    (hOthers : ∀ t, t ≠ token → store' t = store t) :
    Follows ttl (ledger ++ [.issued token owner time]) now store' := by
  have hState : ∀ t, state (ledger ++ [.issued token owner time]) t =
      if token = t then some (owner, time) else state ledger t := fun t => state_append ledger _ t
  constructor
  · intro t owner' expiry hThere
    rw [hState]
    by_cases hSame : token = t
    · subst hSame
      rw [hNew] at hThere
      obtain ⟨rfl, rfl⟩ := Prod.mk.inj (Option.some.inj hThere)
      exact ⟨time, if_pos rfl, rfl⟩
    · rw [hOthers t (Ne.symm hSame)] at hThere
      rw [if_neg hSame]
      exact h.sound t owner' expiry hThere
  · intro t owner' time' hIssued hYoung
    rw [hState] at hIssued
    by_cases hSame : token = t
    · subst hSame
      rw [if_pos rfl] at hIssued
      obtain ⟨rfl, rfl⟩ := Prod.mk.inj (Option.some.inj hIssued)
      exact hNew
    · rw [if_neg hSame] at hIssued
      rw [hOthers t (Ne.symm hSame)]
      exact h.complete t owner' time' hIssued hYoung

theorem revoke {token : τ} {store' : τ → Option (ω × Nat)} (h : Follows ttl ledger now store)
    (hGone : store' token = none) (hOthers : ∀ t, t ≠ token → store' t = store t) :
    Follows ttl (ledger ++ [.revoked token]) now store' := by
  have hState : ∀ t, state (ledger ++ [.revoked token]) t =
      if token = t then none else state ledger t := fun t => state_append ledger _ t
  constructor
  · intro t owner expiry hThere
    by_cases hSame : token = t
    · subst hSame
      rw [hGone] at hThere
      cases hThere
    · rw [hOthers t (Ne.symm hSame)] at hThere
      rw [hState, if_neg hSame]
      exact h.sound t owner expiry hThere
  · intro t owner time hIssued hYoung
    rw [hState] at hIssued
    by_cases hSame : token = t
    · rw [if_pos hSame] at hIssued
      cases hIssued
    · rw [if_neg hSame] at hIssued
      rw [hOthers t (Ne.symm hSame)]
      exact h.complete t owner time hIssued hYoung

/-- **A lookup in the store** that looks at the expiry finds the holder. -/
theorem held_iff (h : Follows ttl ledger now store) (hOnce : (issuedTokens ledger).Nodup)
    (token : τ) (owner : ω) :
    (∃ expiry, store token = some (owner, expiry) ∧ now < expiry) ↔
      Held ttl ledger now token owner := by
  rw [Leases.held_iff hOnce]
  constructor
  · rintro ⟨expiry, hThere, hYoung⟩
    obtain ⟨time, hState, rfl⟩ := h.sound token owner expiry hThere
    exact ⟨time, hState, hYoung⟩
  · rintro ⟨time, hState, hYoung⟩
    exact ⟨time + ttl, h.complete token owner time hState hYoung, hYoung⟩

end Follows

end Leases
