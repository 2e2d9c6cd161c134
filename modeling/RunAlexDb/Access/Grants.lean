import RunAlexDb.Access.ReadOnlyUsers
import RunAlexDb.Lib.Words
import RunAlexDb.Model.Concrete

/-!
# Grants — GRANT, REVOKE and the databases of an account

GRANT ends in a panic whenever it has a user to grant to, so no GRANT is ever
answered OK. REVOKE takes a database off the list of an account; an account that
is marked root, or has no list because it may use all databases, keeps its access
while REVOKE says OK.

Main results: `grants_run_iff` and `reaches_plain`.
-/

set_option linter.unusedSectionVars false

namespace RunAlexDb

open Text Platform

section Grants

variable [Platform]

-- ---------------------------------------------------------------------------
-- The statements
-- ---------------------------------------------------------------------------

/-- A character of a name that needs no quotes. -/
def isNameChar (c : Char) : Bool := c.isAlphanum || c == '_' || c == '$' || 0x80 ≤ c.toNat

/-- How a name is written: as it is, or in one of the quotes, doubled inside. -/
inductive Spells (quotes : List Char) (name : Str) : Str → Prop
  | bare (hSome : name ≠ []) (hChars : ∀ c ∈ name, isNameChar c = true) : Spells quotes name name
  | quoted (q : Char) (hQuote : q ∈ quotes) :
    Spells quotes name (q :: doubleQuote name q ++ [q])

/-- White space between two words. -/
def Gap (s : Str) : Prop := s ≠ [] ∧ ∀ c ∈ s, isWhitespace c = true

/-- A statement `verb privileges ON level by account`, whatever follows the name
of the account. -/
structure AccountText (verb level by_ u sql : Str) : Prop where
  reads : ∃ v g₁ privs g₂ on g₃ g₄ b g₅ who rest,
    sql = v ++ g₁ ++ privs ++ g₂ ++ on ++ g₃ ++ level ++ g₄ ++ b ++ g₅ ++ who ++ rest ∧
      eqIgnoreAsciiCase v verb = true ∧ eqIgnoreAsciiCase on "ON" = true ∧
        eqIgnoreAsciiCase b by_ = true ∧ Gap g₁ ∧ Gap g₂ ∧ Gap g₃ ∧ Gap g₄ ∧ Gap g₅ ∧
          Spells ['\'', '"', '`'] u who ∧ ∀ c, rest.head? = some c → isNameChar c = false

/-- REVOKE ... ON `d`.* FROM `u`. -/
def RevokesOn (d u sql : Str) : Prop :=
  ∃ db, Spells ['`'] d db ∧ AccountText "REVOKE" (db ++ ".*") "FROM" u sql

/-- GRANT ... ON `d`.* TO `u`, or ON *.*. -/
def GrantsOn (d u sql : Str) : Prop :=
  AccountText "GRANT" "*.*" "TO" u sql ∨
    ∃ db, Spells ['`'] d db ∧ AccountText "GRANT" (db ++ ".*") "TO" u sql

/-- A statement as `execute` hands it on, trimmed. -/
inductive AccountCall
  | grant (sql : Str)
  | revoke (sql : Str)

namespace AccountCall

def run : AccountCall → EngineM QueryResult
  | .grant sql => execGrant sql
  | .revoke sql => execRevoke sql

/-- The engine it leaves, panic or not. -/
def step (e : Engine) (c : AccountCall) : Engine := (c.run.exec e).2

/-- It is answered OK. -/
def Succeeds (e : Engine) (c : AccountCall) : Prop := ∃ n id, (c.run.exec e).1 = .ok (.ok n id)

end AccountCall

/-- `execute` hands on what begins with GRANT or REVOKE. -/
theorem exec_execute_account {sql : Str} (now : Nat) (currentDb : Option Str) (userName : Str) :
    (shortcutOf (toUppercase (trim sql)) = some .grant →
      execute now sql currentDb userName = (AccountCall.grant (trim sql)).run) ∧
    (shortcutOf (toUppercase (trim sql)) = some .revoke →
      execute now sql currentDb userName = (AccountCall.revoke (trim sql)).run) :=
  ⟨fun h => exec_execute_shortcut h now currentDb userName,
    fun h => exec_execute_shortcut h now currentDb userName⟩

-- ---------------------------------------------------------------------------
-- What a REVOKE does
-- ---------------------------------------------------------------------------

/-- Right after a REVOKE of `d` from `u` that succeeds `u` may not use `d`, and
right after a GRANT of it that succeeds `u` may. -/
def Lawful (d u : Str) (e : Engine) (c : AccountCall) : Prop :=
  match c with
  | .revoke sql => RevokesOn d u sql → c.Succeeds e → (c.step e).userCanAccessDb u d = false
  | .grant sql => GrantsOn d u sql → c.Succeeds e → (c.step e).userCanAccessDb u d = true

/-- The user and the database, `none` for all, that stand in a REVOKE at the
places its capitals show. -/
def revokeNames (sql : Str) : Option (Str × Option Str) :=
  (find (toUppercase sql) " FROM ").bind fun fromPos => (revokeArgs sql fromPos).toOption

/-- An account that loses the database: it is not root, and either it loses all
or it has a list. -/
def DbUser.canLose (account : DbUser) (db : Option Str) : Bool :=
  !account.isRoot && (db.isNone || account.allowedDbs.isSome)

/-- A REVOKE of `d` from `u` finds them, and an account of `u` that can lose `d`;
or `u` could not use `d` before. -/
def Reaches (d u : Str) (e : Engine) (c : AccountCall) : Prop :=
  match c with
  | .grant _ => True
  | .revoke sql => RevokesOn d u sql → ∀ name db account, revokeNames sql = some (name, db) →
      e.users.get name = some account →
        e.userCanAccessDb u d = false ∨
          name = u ∧ (db = none ∨ db = some d) ∧ account.canLose db = true

/-- What a REVOKE that succeeds has done. -/
theorem succeeds_revoke {sql : Str} {e : Engine} (h : (AccountCall.revoke sql).Succeeds e) :
    ∃ name db account, revokeNames sql = some (name, db) ∧ e.users.get name = some account ∧
      ((AccountCall.revoke sql).step e).users = e.users.modify name fun a => a.revoke db := by
  obtain ⟨n, id, hOk⟩ := h
  unfold AccountCall.step AccountCall.run revokeNames
  unfold AccountCall.run at hOk
  simp only at hOk ⊢
  unfold execRevoke at hOk ⊢
  rcases hFrom : find (toUppercase sql) " FROM " with _ | fromPos
  · rw [hFrom] at hOk
    cases Except.ok.inj hOk
  · rw [hFrom] at hOk
    simp only at hOk ⊢
    rw [Prog.exec_bind, Prog.exec_ofExcept] at hOk ⊢
    rw [Option.bind_some]
    rcases hArgs : revokeArgs sql fromPos with fault | ⟨name, db⟩
    · rw [hArgs] at hOk
      cases hOk
    · rw [hArgs] at hOk
      simp only [Prog.exec_bind, onUsers, Prog.exec_mk, users_bumpIfOk] at hOk ⊢
      rw [exec_bumpIfOk] at hOk
      split_ifs at hOk ⊢ with hThere
      · obtain ⟨account, hAccount⟩ := Option.isSome_iff_exists.1 hThere
        exact ⟨name, db, account, rfl, hAccount, rfl⟩
      · cases Except.ok.inj hOk

theorem succeeds_of_names {sql name : Str} {db : Option Str} {account : DbUser} {e : Engine}
    (hNames : revokeNames sql = some (name, db)) (hAccount : e.users.get name = some account) :
    (AccountCall.revoke sql).Succeeds e := by
  obtain ⟨fromPos, hFrom, hArgs⟩ := Option.bind_eq_some_iff.1 hNames
  have hOk : revokeArgs sql fromPos = .ok (name, db) := by
    rcases hRead : revokeArgs sql fromPos with fault | args
    · rw [hRead] at hArgs
      cases hArgs
    · rw [hRead] at hArgs
      rw [Option.some.inj hArgs]
  have hThere : e.users.containsKey name = true := by
    unfold HashMap.containsKey
    rw [hAccount]
    rfl
  refine ⟨0, 0, ?_⟩
  unfold AccountCall.run
  simp only
  unfold execRevoke
  rw [hFrom]
  simp only
  rw [Prog.exec_bind, Prog.exec_ofExcept, hOk]
  simp only [Prog.exec_bind, onUsers, Prog.exec_mk, if_pos hThere]
  rw [exec_bumpIfOk]

/-- No GRANT is answered OK. -/
theorem not_succeeds_grant (sql : Str) (e : Engine) : ¬ (AccountCall.grant sql).Succeeds e := by
  rintro ⟨n, id, hOk⟩
  unfold AccountCall.run at hOk
  simp only at hOk
  unfold execGrant at hOk
  split at hOk
  · cases hOk
  · cases Except.ok.inj hOk

-- ---------------------------------------------------------------------------
-- Access
-- ---------------------------------------------------------------------------

/-- An account that may use a database. -/
def DbUser.mayUse (account : DbUser) (db : Str) : Bool :=
  account.isRoot || account.allowedDbs.elim true fun s => HashSet.contains s db

theorem userCanAccessDb_eq (e : Engine) (u d : Str) :
    e.userCanAccessDb u d = (e.users.get u).elim false fun account => account.mayUse d := by
  unfold Engine.userCanAccessDb DbUser.mayUse
  rcases e.users.get u with _ | ⟨password, allowed, write, root⟩
  · rfl
  · rcases root with _ | _ <;> rcases allowed with _ | s <;> rfl

/-- An account loses a database that it can lose, and keeps any other. -/
theorem mayUse_revoke (account : DbUser) (db : Option Str) (d : Str) :
    (account.revoke db).mayUse d = false ↔
      account.mayUse d = false ∨ (db = none ∨ db = some d) ∧ account.canLose db = true := by
  rcases account with ⟨password, allowed, write, root⟩
  unfold DbUser.revoke DbUser.mayUse DbUser.canLose
  rcases root with _ | _
  · rcases db with _ | d'
    · simp only [Bool.false_or, Option.elim_some]
      exact iff_of_true rfl (.inr ⟨.inl trivial, rfl⟩)
    · rcases allowed with _ | s
      · simp
      · simp only [Bool.false_or, Option.map_some, Option.elim_some, Option.some.injEq]
        unfold HashSet.contains HashMap.containsKey
        rw [HashMap.get_remove]
        by_cases hSame : d = d'
        · subst hSame
          simp
        · rw [if_neg hSame]
          simp [Ne.symm hSame]
  · rcases db with _ | d' <;> simp

/-- One REVOKE. -/
theorem lawful_iff_reaches (d u : Str) (e : Engine) (c : AccountCall) :
    Lawful d u e c ↔ Reaches d u e c := by
  rcases c with sql | sql
  · exact iff_of_true (fun _ hOk => absurd hOk (not_succeeds_grant sql e)) trivial
  · refine forall_congr' fun _ => ?_
    have hAfter : ∀ {name : Str} {db : Option Str} {account : DbUser},
        e.users.get name = some account →
        ((AccountCall.revoke sql).step e).users = e.users.modify name (fun a => a.revoke db) →
        (((AccountCall.revoke sql).step e).userCanAccessDb u d = false ↔
          e.userCanAccessDb u d = false ∨
            name = u ∧ (db = none ∨ db = some d) ∧ account.canLose db = true) := by
      intro name db account hAccount hUsers
      rw [userCanAccessDb_eq, userCanAccessDb_eq, hUsers, HashMap.get_modify]
      by_cases hSame : u = name
      · subst hSame
        rw [if_pos rfl, hAccount]
        simp only [Option.map_some, Option.elim_some, true_and]
        exact mayUse_revoke account db d
      · rw [if_neg hSame]
        exact ⟨.inl, fun h => h.resolve_right fun hBoth => hSame hBoth.1.symm⟩
    constructor
    · intro hLaw name db account hNames hAccount
      have hOk := succeeds_of_names hNames hAccount
      obtain ⟨name', db', account', hNames', hAccount', hUsers⟩ := succeeds_revoke hOk
      obtain ⟨rfl, rfl⟩ := Prod.mk.inj (Option.some.inj (hNames.symm.trans hNames'))
      exact (hAfter hAccount hUsers).1 (hLaw hOk)
    · intro hReaches hOk
      obtain ⟨name, db, account, hNames, hAccount, hUsers⟩ := succeeds_revoke hOk
      exact (hAfter hAccount hUsers).2 (hReaches name db account hNames hAccount)

/-- GRANT and REVOKE give no one the right to write. -/
theorem mayNotWrite_account {u : Str} {e : Engine} (h : e.mayNotWrite u) (c : AccountCall) :
    (c.step e).mayNotWrite u := by
  rcases c with sql | sql
  · have hSame : (AccountCall.step e (.grant sql)).users = e.users := by
      unfold AccountCall.step AccountCall.run
      simp only
      unfold execGrant
      split <;> rfl
    unfold Engine.mayNotWrite
    rw [hSame]
    exact h
  · intro account hUser
    by_contra hWrite
    obtain ⟨old, hOld, hOldWrite⟩ := keepsReadOnly_execRevoke sql e u account hUser (by simpa using hWrite)
    rw [h old hOld] at hOldWrite
    cases hOldWrite

theorem along_lawful (d u : Str) (e : Engine) (cs : List AccountCall) :
    Trace.Along AccountCall.step (Lawful d u) e cs ↔
      Trace.Along AccountCall.step (Reaches d u) e cs := by
  induction cs generalizing e with
  | nil => exact Iff.rfl
  | cons c cs ih => exact and_congr (lawful_iff_reaches d u e c) (ih (c.step e))

theorem mayNotWrite_run {u : Str} {e : Engine} (h : e.mayNotWrite u) (cs : List AccountCall) :
    (Trace.run AccountCall.step e cs).mayNotWrite u := by
  have hStep : ∀ (e : Engine) (c : AccountCall), e.mayNotWrite u →
      (AccountCall.step e c).mayNotWrite u := fun _ c hNot => mayNotWrite_account hNot c
  exact Trace.invariant_run_all hStep h cs

-- ---------------------------------------------------------------------------
-- Plain names
-- ---------------------------------------------------------------------------

/-- An ASCII letter or digit, `_` or `$`. -/
def isSimpleChar (c : Char) : Bool := c.toNat < 128 && (c.isAlphanum || c == '_' || c == '$')

/-- A name of such characters. -/
structure SimpleName (name : Str) : Prop where
  some : name ≠ []
  chars : ∀ c ∈ name, isSimpleChar c = true

/-- A plain name, bare or in quotes. -/
inductive Written (quotes : List Char) (name : Str) : Str → Prop
  | bare : Written quotes name name
  | quoted (q : Char) (hQuote : q ∈ quotes) : Written quotes name (q :: name ++ [q])

/-- `ON db.*`. -/
def onLevel (db : Str) : List Str := ["ON", db ++ ".*"]

/-- `REVOKE first privs ON db.* FROM who@host`, one blank between the words. -/
def revokeText (first : Str) (privs : List Str) (db who host : Str) : Str :=
  "REVOKE" ++ spaced (first :: (privs ++ onLevel db)) ++ ' ' :: "FROM" ++ ' ' :: (who ++ host)

theorem isPlain_of_simple {c : Char} (h : isSimpleChar c = true) :
    isPlain c = true ∧ c ≠ '.' ∧ c ≠ '@' ∧ c ≠ '*' ∧ c ≠ '\'' ∧ c ≠ '`' := by
  have hTable : ∀ n : Fin 128, isSimpleChar (Char.ofNat n) = true →
      isPlain (Char.ofNat n) = true ∧ Char.ofNat n ≠ '.' ∧ Char.ofNat n ≠ '@' ∧
        Char.ofNat n ≠ '*' ∧ Char.ofNat n ≠ '\'' ∧ Char.ofNat n ≠ '`' := by
    decide +kernel
  have hAscii : c.toNat < 128 := by
    unfold isSimpleChar at h
    rw [Bool.and_eq_true] at h
    exact of_decide_eq_true h.1
  have hSelf := hTable ⟨c.toNat, hAscii⟩
  rw [Char.ofNat_toNat] at hSelf
  exact hSelf h

theorem isNameChar_of_simple {c : Char} (h : isSimpleChar c = true) : isNameChar c = true := by
  unfold isSimpleChar at h
  rw [Bool.and_eq_true] at h
  unfold isNameChar
  rw [h.2, Bool.true_or]

theorem SimpleName.plain {name : Str} (h : SimpleName name) : PlainWord name :=
  ⟨h.some, fun c hc => (isPlain_of_simple (h.chars c hc)).1⟩

theorem Written.plain {quotes : List Char} {name text : Str} (hName : SimpleName name)
    (hQuotes : ∀ q ∈ quotes, isPlain q = true) (h : Written quotes name text) : PlainWord text := by
  rcases h with _ | ⟨q, hq⟩
  · exact hName.plain
  · refine ⟨List.cons_ne_nil _ _, fun c hc => ?_⟩
    rw [List.cons_append, List.mem_cons, List.mem_append, List.mem_singleton] at hc
    rcases hc with rfl | hc | rfl
    · exact hQuotes c hq
    · exact hName.plain.plain c hc
    · exact hQuotes c hq

theorem quotes_plain :
    (∀ q ∈ ['`'], isPlain q = true) ∧ ∀ q ∈ ['\'', '`'], isPlain q = true :=
  ⟨List.all_eq_true.1 (by decide), List.all_eq_true.1 (by decide)⟩

/-- A database name, bare or in backticks, is read. -/
theorem trimMatches_db {db text : Str} (hName : SimpleName db) (h : Written ['`'] db text) :
    trimMatches '\'' (trimMatches '`' text) = db := by
  have hQuote : '\'' ∉ db := fun hc => (isPlain_of_simple (hName.chars _ hc)).2.2.2.2.1 rfl
  have hTick : '`' ∉ db := fun hc => (isPlain_of_simple (hName.chars _ hc)).2.2.2.2.2 rfl
  rcases h with _ | ⟨q, hq⟩
  · rw [trimMatches_self hTick, trimMatches_self hQuote]
  · rw [List.mem_singleton.1 hq, trimMatches_quoted hTick, trimMatches_self hQuote]

/-- The name of an account, bare or in quotes, is read, its host aside. -/
theorem bareUser_written {name who host : Str} (hName : SimpleName name)
    (h : Written ['\'', '`'] name who) (hHost : host = [] ∨ ∃ rest, host = '@' :: rest) :
    bareUser (who ++ host) = name := by
  have hQuote : '\'' ∉ name := fun hc => (isPlain_of_simple (hName.chars _ hc)).2.2.2.2.1 rfl
  have hTick : '`' ∉ name := fun hc => (isPlain_of_simple (hName.chars _ hc)).2.2.2.2.2 rfl
  have hAt : ∀ c ∈ who, (c == '@') = false := by
    intro c hc
    have hIn : '@' ∉ name := fun hc => (isPlain_of_simple (hName.chars _ hc)).2.2.1 rfl
    rcases h with _ | ⟨q, hq⟩
    · exact beq_eq_false_iff_ne.2 fun hSame => hIn (hSame ▸ hc)
    · rw [List.cons_append, List.mem_cons, List.mem_append, List.mem_singleton] at hc
      refine beq_eq_false_iff_ne.2 fun hSame => ?_
      subst hSame
      rcases hc with rfl | hc | rfl
      · simp at hq
      · exact hIn hc
      · simp at hq
  have hHead : (split '@' (who ++ host)).headD (who ++ host) = who := by
    unfold split
    rcases hHost with rfl | ⟨rest, rfl⟩
    · rw [List.append_nil, List.splitOnP_eq_singleton hAt]
      rfl
    · rw [List.splitOnP_append_cons _ _ (by decide), List.splitOnP_eq_singleton hAt]
      rfl
  unfold bareUser
  rw [hHead]
  rcases h with _ | ⟨q, hq⟩
  · rw [trimMatches_self hQuote, trimMatches_self hTick]
    exact trim_of_trimmed hName.plain.trimmed
  · rw [List.mem_cons, List.mem_singleton] at hq
    rcases hq with rfl | rfl
    · rw [trimMatches_quoted hQuote, trimMatches_self hTick]
      exact trim_of_trimmed hName.plain.trimmed
    · have hOther : '\'' ∉ '`' :: name ++ ['`'] := by simpa using hQuote
      rw [trimMatches_self hOther, trimMatches_quoted hTick]
      exact trim_of_trimmed hName.plain.trimmed

/-- ASCII letters in upper case, as `to_uppercase` has them. -/
def UpperAscii : Prop :=
  ∀ s : Str, (∀ c ∈ s, c.toNat < 128) → toUppercase s = s.map Char.toUpper

/-- A REVOKE in plain words: no privilege reads ON or FROM. -/
structure PlainRevoke (d u first : Str) (privs : List Str) (db who host : Str) : Prop where
  dbName : SimpleName d
  userName : SimpleName u
  dbText : Written ['`'] d db
  userText : Written ['\'', '`'] u who
  hostText : host = [] ∨ ∃ rest, host = '@' :: rest
  hostPlain : ∀ c ∈ host, isPlain c = true
  firstPlain : PlainWord first
  firstFrom : first.map Char.toUpper ≠ "FROM"
  privs : ∀ p ∈ privs, PlainWord p ∧ p.map Char.toUpper ≠ "FROM" ∧ p.map Char.toUpper ≠ "ON"

namespace PlainRevoke

variable {d u first : Str} {privs : List Str} {db who host : Str}

theorem level (h : PlainRevoke d u first privs db who host) : PlainWord (db ++ ".*") := by
  have hStar : PlainWord ".*" := .of_all (by decide)
  exact (h.dbText.plain h.dbName quotes_plain.1).append hStar.plain

theorem account (h : PlainRevoke d u first privs db who host) : PlainWord (who ++ host) :=
  (h.userText.plain h.userName quotes_plain.2).append h.hostPlain

/-- The words between REVOKE and FROM. -/
theorem words (h : PlainRevoke d u first privs db who host) :
    ∀ w ∈ first :: (privs ++ onLevel db), PlainWord w ∧ w.map Char.toUpper ≠ "FROM" := by
  intro w hw
  rw [List.mem_cons, List.mem_append] at hw
  rcases hw with rfl | hw | hw
  · exact ⟨h.firstPlain, h.firstFrom⟩
  · exact ⟨(h.privs w hw).1, (h.privs w hw).2.1⟩
  · unfold onLevel at hw
    rw [List.mem_cons, List.mem_singleton] at hw
    rcases hw with rfl | rfl
    · exact ⟨.of_all (by decide), by decide⟩
    · refine ⟨h.level, fun hSame => ?_⟩
      have hIn : '.' ∈ (db ++ ".*").map Char.toUpper :=
        List.mem_map.2 ⟨'.', List.mem_append_right _ (by decide), by decide⟩
      rw [hSame] at hIn
      exact absurd hIn (by decide)

theorem ascii (h : PlainRevoke d u first privs db who host) :
    ∀ c ∈ revokeText first privs db who host, c.toNat < 128 := by
  have hVerb : PlainWord "REVOKE" := .of_all (by decide)
  have hFrom : PlainWord "FROM" := .of_all (by decide)
  intro c hc
  unfold revokeText at hc
  rcases List.mem_append.1 hc with hc | hc
  · rcases List.mem_append.1 hc with hc | hc
    · rcases List.mem_append.1 hc with hc | hc
      · exact ascii_of_plain hVerb.plain c hc
      · exact ascii_spaced (fun w hw => (h.words w hw).1) c hc
    · rcases List.mem_cons.1 hc with rfl | hc
      · decide
      · exact ascii_of_plain hFrom.plain c hc
  · rcases List.mem_cons.1 hc with rfl | hc
    · decide
    · exact ascii_of_plain h.account.plain c hc

theorem find_from (hUpper : UpperAscii) (h : PlainRevoke d u first privs db who host) :
    find (toUppercase (revokeText first privs db who host)) " FROM " =
      some (byteLen ("REVOKE" ++ spaced (first :: (privs ++ onLevel db)))) := by
  rw [hUpper _ h.ascii]
  exact find_upper_word (.of_all (by decide)) (fun w hw => (h.words w hw).1) (by decide) (by decide)
    (fun w hw => (h.words w hw).2) _

/-- The privileges, up to the level. -/
theorem find_on (hUpper : UpperAscii) (h : PlainRevoke d u first privs db who host) :
    find (toUppercase (first ++ spaced (privs ++ onLevel db))) " ON " =
      some (byteLen (first ++ spaced privs)) := by
  have hText : first ++ spaced (privs ++ onLevel db) =
      first ++ spaced privs ++ ' ' :: "ON" ++ ' ' :: (db ++ ".*") := by
    rw [spaced_append]
    simp [spaced, onLevel]
  have hAscii : ∀ c ∈ first ++ spaced (privs ++ onLevel db), c.toNat < 128 := by
    intro c hc
    rcases List.mem_append.1 hc with hc | hc
    · exact ascii_of_plain h.firstPlain.plain c hc
    · exact ascii_spaced (fun w hw => (h.words w (List.mem_cons_of_mem _ hw)).1) c hc
  rw [hUpper _ hAscii, hText]
  exact find_upper_word h.firstPlain (fun w hw => (h.privs w hw).1) (by decide) (by decide)
    (fun w hw => (h.privs w hw).2.2) _

end PlainRevoke

/-- The name of a database in front of `.*`. -/
theorem db_of_level {d db : Str} (hName : SimpleName d) (h : Written ['`'] d db) :
    trimMatches '\'' (trimMatches '`' (trim ((split '.' (db ++ ".*")).headD "*"))) = d := by
  have hDot : ∀ c ∈ db, (c == '.') = false := by
    intro c hc
    have hIn : '.' ∉ d := fun hc => (isPlain_of_simple (hName.chars _ hc)).2.1 rfl
    rcases h with _ | ⟨q, hq⟩
    · exact beq_eq_false_iff_ne.2 fun hSame => hIn (hSame ▸ hc)
    · rw [List.mem_singleton.1 hq, List.cons_append, List.mem_cons, List.mem_append,
        List.mem_singleton] at hc
      refine beq_eq_false_iff_ne.2 fun hSame => ?_
      subst hSame
      rcases hc with hc | hc | hc
      · exact absurd hc (by decide)
      · exact hIn hc
      · exact absurd hc (by decide)
  have hHead : (split '.' (db ++ ".*")).headD "*" = db := by
    unfold split
    show (List.splitOnP _ (db ++ '.' :: ['*'])).headD _ = _
    rw [List.splitOnP_append_cons _ _ (by decide), List.splitOnP_eq_singleton hDot]
    rfl
  rw [hHead, trim_of_trimmed (h.plain hName quotes_plain.1).trimmed]
  exact trimMatches_db hName h

/-- A plain REVOKE is read as it is written. -/
theorem revokeNames_plain (hUpper : UpperAscii) {d u first : Str} {privs : List Str}
    {db who host : Str} (h : PlainRevoke d u first privs db who host) :
    revokeNames (revokeText first privs db who host) = some (u, some d) := by
  have hUser : sliceFrom (revokeText first privs db who host)
      (byteLen ("REVOKE" ++ spaced (first :: (privs ++ onLevel db))) + 6) = some (who ++ host) := by
    have hText : revokeText first privs db who host =
        ("REVOKE" ++ spaced (first :: (privs ++ onLevel db))) ++ " FROM " ++ (who ++ host) := by
      unfold revokeText
      simp
    rw [hText, show 6 = byteLen " FROM " from rfl, ← byteLen_append]
    exact sliceFrom_append _ _
  have hPrivs : slice (revokeText first privs db who host) 7
      (byteLen ("REVOKE" ++ spaced (first :: (privs ++ onLevel db)))) =
        some (first ++ spaced (privs ++ onLevel db)) := by
    have hText : revokeText first privs db who host =
        "REVOKE " ++ ((first ++ spaced (privs ++ onLevel db)) ++ (" FROM " ++ (who ++ host))) := by
      unfold revokeText
      rw [spaced_cons]
      simp
    have hLen : byteLen ("REVOKE" ++ spaced (first :: (privs ++ onLevel db))) =
        byteLen "REVOKE " + byteLen (first ++ spaced (privs ++ onLevel db)) := by
      rw [← byteLen_append, spaced_cons]
      rfl
    rw [hText, hLen]
    exact slice_append _ _ _
  have hLevel : sliceFrom (first ++ spaced (privs ++ onLevel db))
      (byteLen (first ++ spaced privs) + 4) = some (db ++ ".*") := by
    have hText : first ++ spaced (privs ++ onLevel db) =
        (first ++ spaced privs) ++ " ON " ++ (db ++ ".*") := by
      rw [spaced_append]
      simp [spaced, onLevel]
    rw [hText, show 4 = byteLen " ON " from rfl, ← byteLen_append]
    exact sliceFrom_append _ _
  have hSentence : trim (first ++ spaced (privs ++ onLevel db)) =
      first ++ spaced (privs ++ onLevel db) := by
    refine trim_of_trimmed ?_
    have hSplit : privs ++ onLevel db = privs ++ [("ON" : Str)] ++ [db ++ (".*" : Str)] := by
      unfold onLevel
      rw [List.append_assoc]
      rfl
    rw [hSplit]
    exact trimmed_sentence h.firstPlain h.level _
  have hNotAll : d ≠ "*" := by
    intro hSame
    have hStar : '*' ∈ d := by
      rw [hSame]
      decide
    exact (isPlain_of_simple (h.dbName.chars _ hStar)).2.2.2.1 rfl
  unfold revokeNames
  rw [h.find_from hUpper, Option.bind_some]
  unfold revokeArgs
  rw [hUser, hPrivs]
  simp only [orPanic, bind, Except.bind, hSentence, h.find_on hUpper, hLevel,
    trim_of_trimmed h.account.trimmed, trim_of_trimmed h.level.trimmed,
    bareUser_written h.userName h.userText h.hostText, db_of_level h.dbName h.dbText, if_neg hNotAll]
  rfl

theorem SimpleName.spells {quotes : List Char} {name text : Str} (hName : SimpleName name)
    (hQuotes : ∀ q ∈ quotes, q = '\'' ∨ q = '`') (h : Written quotes name text)
    (more : List Char) (hMore : ∀ q ∈ quotes, q ∈ more) : Spells more name text := by
  rcases h with _ | ⟨q, hq⟩
  · exact .bare hName.some fun c hc => isNameChar_of_simple (hName.chars c hc)
  · have hNone : q ∉ name := by
      intro hIn
      have hChars := isPlain_of_simple (hName.chars q hIn)
      rcases hQuotes q hq with rfl | rfl
      · exact hChars.2.2.2.2.1 rfl
      · exact hChars.2.2.2.2.2 rfl
    have hDouble : doubleQuote name q = name := by
      unfold doubleQuote
      have hSelf : ∀ c ∈ name, (if c = q then [q, q] else [c]) = [c] :=
        fun c hc => if_neg fun (hSame : c = q) => hNone (hSame ▸ hc)
      rw [List.flatMap_congr hSelf, List.flatMap_singleton']
    have hText := @Spells.quoted more name q (hMore q hq)
    rw [hDouble] at hText
    exact hText

theorem revokesOn_plain {d u first : Str} {privs : List Str} {db who host : Str}
    (h : PlainRevoke d u first privs db who host) :
    RevokesOn d u (revokeText first privs db who host) := by
  have hGap : Gap " " := ⟨by decide, List.all_eq_true.1 (by decide)⟩
  refine ⟨db, h.dbName.spells (by simp) h.dbText _ (by simp), ⟨"REVOKE", " ",
    first ++ spaced privs, " ", "ON", " ", " ", "FROM", " ", who, host, ?_, by decide, by decide,
    by decide, hGap, hGap, hGap, hGap, hGap, h.userName.spells (by simp) h.userText _ (by simp),
    ?_⟩⟩
  · unfold revokeText onLevel
    rw [spaced_cons, spaced_append]
    simp [spaced]
  · intro c hHead
    rcases h.hostText with rfl | ⟨rest, rfl⟩
    · cases hHead
    · obtain rfl := Option.some.inj hHead
      decide

/-- A plain REVOKE does what it says to an account with a list that is not root. -/
theorem reaches_plain (hUpper : UpperAscii) {d u first : Str} {privs : List Str}
    {db who host : Str} (h : PlainRevoke d u first privs db who host) (e : Engine) :
    Reaches d u e (.revoke (revokeText first privs db who host)) ↔
      ∀ account, e.users.get u = some account →
        account.isRoot = false ∧ account.allowedDbs ≠ none := by
  have hNames := revokeNames_plain hUpper h
  have hLose : ∀ account : DbUser, e.users.get u = some account →
      ((e.userCanAccessDb u d = false ∨
          u = u ∧ (some d = none ∨ some d = some d) ∧ account.canLose (some d) = true) ↔
        account.isRoot = false ∧ account.allowedDbs ≠ none) := by
    intro account hAccount
    rw [userCanAccessDb_eq, hAccount, Option.elim_some]
    unfold DbUser.mayUse DbUser.canLose
    rcases account with ⟨password, allowed, write, root⟩
    rcases root with _ | _ <;> rcases allowed with _ | s <;> simp
  constructor
  · intro hReaches account hAccount
    exact (hLose account hAccount).1 (hReaches (revokesOn_plain h) u (some d) account hNames hAccount)
  · intro hAccounts _ name db' account hRead hAccount
    obtain ⟨rfl, rfl⟩ := Prod.mk.inj (Option.some.inj (hNames.symm.trans hRead))
    exact (hLose account hAccount).2 (hAccounts account hAccount)

/-- **Runs of GRANT and REVOKE.** Along a run every GRANT and REVOKE has done what
it says just when each REVOKE reaches what it names, and no run gives a user who
may not write the right to. A REVOKE in plain words reaches every account with a
list that is not root. -/
theorem grants_run_iff (d u : Str) (e : Engine) (cs : List AccountCall) :
    ((Trace.Along AccountCall.step (Lawful d u) e cs ∧
          (e.mayNotWrite u → (Trace.run AccountCall.step e cs).mayNotWrite u)) ↔
        Trace.Along AccountCall.step (Reaches d u) e cs) ∧
      (UpperAscii → ∀ (e' : Engine) (first : Str) (privs : List Str) (db who host : Str),
        PlainRevoke d u first privs db who host →
          (Reaches d u e' (.revoke (revokeText first privs db who host)) ↔
            ∀ account, e'.users.get u = some account →
              account.isRoot = false ∧ account.allowedDbs ≠ none)) := by
  refine ⟨?_, fun hUpper e' _ _ _ _ _ hPlain => reaches_plain hUpper hPlain e'⟩
  rw [← along_lawful]
  constructor
  · rintro ⟨hLaw, -⟩
    exact hLaw
  · intro hLaw
    exact ⟨hLaw, fun hNot => mayNotWrite_run hNot cs⟩

end Grants

-- ---------------------------------------------------------------------------
-- An account without a list
-- ---------------------------------------------------------------------------

section AllDatabases

set_option maxRecDepth 2000

local instance grantsPlatform : Platform := tablePlatform []

/-- An account that may use all databases. -/
def anyDatabase : DbUser :=
  { passwordSha1Sha1 := [], allowedDbs := none, canWrite := false, isRoot := false }

/-- An engine whose only account is bob, who may use all databases. -/
def bobAnywhere : Engine :=
  { Engine.fresh [] with users := HashMap.ofList [("bob", anyDatabase)] }

theorem plainRevoke_bob : PlainRevoke "app" "bob" "SELECT" [] "app" "'bob'" [] where
  dbName := ⟨by decide, List.all_eq_true.1 (by decide)⟩
  userName := ⟨by decide, List.all_eq_true.1 (by decide)⟩
  dbText := .bare
  userText := .quoted '\'' (by decide)
  hostText := .inl rfl
  hostPlain := fun _ hNone => absurd hNone List.not_mem_nil
  firstPlain := .of_all (by decide)
  firstFrom := by decide
  privs := fun _ hNone => absurd hNone (List.not_mem_nil)

theorem get_bob : bobAnywhere.users.get "bob" = some anyDatabase := rfl

theorem upperAscii_table : UpperAscii := fun _ _ => rfl

/-- The REVOKE does not reach bob. -/
theorem grants_run_iff_bob :
    ¬ Reaches "app" "bob" bobAnywhere (.revoke (revokeText "SELECT" [] "app" "'bob'" [])) := by
  have hPlain := (grants_run_iff "app" "bob" bobAnywhere []).2 upperAscii_table bobAnywhere "SELECT" []
    "app" "'bob'" [] plainRevoke_bob
  intro hReaches
  exact (hPlain.1 hReaches anyDatabase get_bob).2 rfl

/-- REVOKE SELECT ON app.* FROM 'bob' is answered OK, and bob may use app. -/
theorem not_grants_run :
    ¬ ∀ (d u : Str) (e : Engine) (cs : List AccountCall), u ≠ "root" →
      Trace.Along AccountCall.step (Lawful d u) e cs := by
  intro hAll
  obtain ⟨hLaw, -⟩ := hAll "app" "bob" bobAnywhere
    [.revoke (revokeText "SELECT" [] "app" "'bob'" [])] (by decide)
  have hOk : (AccountCall.revoke (revokeText "SELECT" [] "app" "'bob'" [])).Succeeds bobAnywhere :=
    succeeds_of_names (revokeNames_plain upperAscii_table plainRevoke_bob) get_bob
  have hKept : ((AccountCall.revoke (revokeText "SELECT" [] "app" "'bob'" [])).step
      bobAnywhere).userCanAccessDb "bob" "app" = true := by
    decide +kernel
  have hGone := hLaw (revokesOn_plain plainRevoke_bob) hOk
  rw [hKept] at hGone
  cases hGone

end AllDatabases

end RunAlexDb
