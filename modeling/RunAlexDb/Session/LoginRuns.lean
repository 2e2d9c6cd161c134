import RunAlexDb.Access.DroppedUsers
import RunAlexDb.Session.Logins

/-!
# LoginRuns — who can log in after a run

The password an account was made with stays its password until the account is
dropped: no other statement writes it, and a ROLLBACK brings no account back. root
keeps the password the server was started with.

Main result: `login_run`.
-/

set_option linter.unusedSectionVars false

namespace RunAlexDb

open Text Platform

section LoginRuns

variable [Platform]

-- ---------------------------------------------------------------------------
-- The stored hash
-- ---------------------------------------------------------------------------

/-- The double hash of a user's password. -/
def Engine.passwordHash (e : Engine) (u : Str) : Option Bytes :=
  (e.users.get u).map DbUser.passwordSha1Sha1

/-- REVOKE changes no password. -/
theorem passwordHash_revoke (sql u : Str) (e : Engine) :
    ((execRevoke sql).exec e).2.passwordHash u = e.passwordHash u := by
  unfold execRevoke Engine.passwordHash
  split
  · rfl
  · rename_i fromPos _
    rw [Prog.exec_bind, Prog.exec_ofExcept]
    rcases revokeArgs sql fromPos with fault | ⟨name, db⟩
    · rfl
    · simp only [Prog.exec_bind, onUsers, Prog.exec_mk, users_bumpIfOk]
      split
      · rw [HashMap.get_modify]
        split
        · rw [Option.map_map]
          congr 1
          funext account
          rcases db with _ | db <;> rfl
        · rfl
      · rfl

/-- Only CREATE USER and DROP USER of `u` touch the password of `u`. -/
theorem passwordHash_step (userName : Str) {u : Str} {e : Engine} {k : Call}
    (hCreates : ¬ k.CreatesUser u userName e) (hDrops : ¬ k.DropsUser u userName e) :
    (k.step userName e).passwordHash u = e.passwordHash u := by
  rcases hShort : k.shortcut with _ | s
  · obtain ⟨jobs, -, hRun⟩ := Call.step_jobs hShort userName e
    unfold Engine.passwordHash
    rw [hRun, users_jobs]
    rfl
  · rcases k with ⟨now, sql, currentDb⟩ | ⟨now, sql, params, currentDb⟩
    · have hExec := exec_execute_shortcut hShort now currentDb userName
      unfold Call.CreatesUser at hCreates
      unfold Call.DropsUser at hDrops
      unfold Call.step
      simp only [Call.run, Call.sql, hExec] at hCreates hDrops ⊢
      by_cases hWrites : s.writes = false
      · rw [exec_of_not_writes_shortcut hWrites]
      · cases s with
        | createUser =>
          by_cases hNew : e.users.get u = none
          · have hStays : ((execShortcut sql (toUppercase (trim sql)) currentDb .createUser).exec e).2.users.get u =
                none := by
              have hStep : ((Call.text now sql currentDb).step userName e).users.get u = none := absent_step hNew (by
                unfold Call.CreatesUser
                simpa only [Call.run, Call.sql, hExec] using hCreates)
              unfold Call.step at hStep
              simpa only [Call.run, hExec] using hStep
            unfold Engine.passwordHash
            rw [hStays, hNew]
          · -- an account that is there is not made again
            unfold execShortcut execCreateUser Engine.passwordHash
            rw [Prog.exec_bind, Prog.exec_ofExcept]
            rcases createUserArgs (trim sql) with fault | ⟨name, password⟩
            · rfl
            · simp only [onUsers, Prog.exec_mk]
              split_ifs with hEmpty hRoot hThere
              · rfl
              · rfl
              · rfl
              · have hOther : u ≠ name := by
                  rintro rfl
                  refine hNew ?_
                  simpa [HashMap.containsKey] using hThere
                rw [HashMap.get_insert, if_neg hOther]
        | dropUser =>
          unfold execShortcut execDropUser at hDrops ⊢
          unfold Engine.passwordHash
          rw [Prog.exec_bind, Prog.exec_ofExcept] at hDrops ⊢
          rcases hArg : dropUserArg (trim sql) with fault | name
          · rfl
          · rw [hArg] at hDrops
            simp only [onUsers, Prog.exec_mk] at hDrops ⊢
            split_ifs at hDrops ⊢ with hRoot hThere
            · rfl
            · have hOther : u ≠ name := by
                rintro rfl
                exact hDrops ⟨hShort, rfl, 0, 0, rfl⟩
              rw [HashMap.get_remove, if_neg hOther]
            · rfl
        | revoke => exact passwordHash_revoke _ u e
        | _ => exact absurd rfl hWrites
    · cases hShort

-- ---------------------------------------------------------------------------
-- The texts
-- ---------------------------------------------------------------------------

/-- The password stands between its quotes. -/
theorem identifiedBy_quoted (hUpper : UpperByChar) {p : Str} (h : '\'' ∉ p) :
    identifiedBy (identified (some p)) = .ok p := by
  have hText : identified (some p) = " IDENTIFIED BY '" ++ (p ++ "'") := List.append_assoc ..
  have hCopy : toUppercase (" IDENTIFIED BY '" ++ (p ++ "'")) = " IDENTIFIED BY '" ++ toUppercase (p ++ "'") := by
    rw [hUpper.append, hUpper.ascii _ (ascii_of_all (by decide))]
    rfl
  have hCut : sliceFrom (" IDENTIFIED BY '" ++ (p ++ "'")) (1 + 13) = some (' ' :: '\'' :: (p ++ ['\''])) :=
    sliceFrom_append " IDENTIFIED BY" (' ' :: '\'' :: (p ++ ['\'']))
  have hTrim : trim (' ' :: '\'' :: (p ++ ['\''])) = '\'' :: (p ++ ['\'']) := by
    rw [← trim_trimStart]
    show trim ('\'' :: (p ++ ['\''])) = _
    refine trim_of_trimmed ⟨fun c hc => ?_, fun c hc => ?_⟩
    · rw [← Option.some.inj hc]
      decide
    · rw [← List.cons_append, List.getLast?_concat] at hc
      rw [← Option.some.inj hc]
      decide
  have hQuote : startsWith ('\'' :: (p ++ ['\''])) "'" = true := startsWith_quote.2 ⟨_, rfl⟩
  have hInner : sliceFrom ('\'' :: (p ++ ['\''])) 1 = some (p ++ ['\'']) :=
    sliceFrom_append ['\''] (p ++ ['\''])
  have hEnd : find (p ++ ['\'']) "'" = some (byteLen p) := by
    show find (p ++ ['\'']) ['\''] = _
    rw [find_char, splitOnce_append h]
    rfl
  have hName : slice ('\'' :: (p ++ ['\''])) 1 (byteLen p + 1) = some p :=
    (slice_behind_quote rfl).2 ⟨['\''], rfl, rfl⟩
  unfold identifiedBy
  rw [hText, hCopy, find_identifiedBy]
  simp only
  rw [hCut]
  show (if startsWith (trim (' ' :: '\'' :: (p ++ ['\'']))) "'" then _ else _) = _
  rw [hTrim, if_pos hQuote, hInner]
  show orPanic (slice ('\'' :: (p ++ ['\''])) 1 ((find (p ++ ['\'']) "'").getD _ + 1)) = _
  rw [hEnd]
  show orPanic (slice ('\'' :: (p ++ ['\''])) 1 (byteLen p + 1)) = _
  rw [hName]
  rfl

/-- `CREATE USER 'u'@'h' IDENTIFIED BY 'p'`. -/
def createText (u h p : Str) : Str := "CREATE USER " ++ accountOf u h ++ identified (some p)

/-- `DROP USER 'u'@'h'`. -/
def dropText (u h : Str) : Str := "DROP USER " ++ accountOf u h

theorem trim_createText (u h p : Str) : trim (createText u h p) = createText u h p := by
  have hText : createText u h p = "CREATE USER " ++ (accountOf u h ++ identified (some p)) :=
    List.append_assoc ..
  rw [hText]
  refine trimmed_account u h (some p) "CREATE USER " fun c hc => ?_
  rw [← Option.some.inj hc]
  decide

theorem trim_dropText (u h : Str) : trim (dropText u h) = dropText u h := by
  have hText : dropText u h = "DROP USER " ++ (accountOf u h ++ identified none) := by
    rw [identified_none, List.append_nil]
    rfl
  rw [hText]
  refine trimmed_account u h none "DROP USER " fun c hc => ?_
  rw [← Option.some.inj hc]
  decide

theorem prefix_trimEndMatches (p : Char → Bool) (s : Str) : trimEndMatches p s <+: s := by
  have hSuffix := List.dropWhile_suffix (l := s.reverse) p
  rw [← List.reverse_prefix, List.reverse_reverse] at hSuffix
  exact hSuffix

/-- Without its semicolons a text that does not begin with S is none that does. -/
theorem bare_ne {c : Char} (hc : c ≠ 'S') (s t : Str) : trimEndMatches (· == ';') (c :: s) ≠ 'S' :: t := by
  intro hBare
  have hPrefix := prefix_trimEndMatches (· == ';') (c :: s)
  rw [hBare, List.cons_prefix_cons] at hPrefix
  exact hc hPrefix.1.symm

/-- A text that does not begin with S is none of the first answers. -/
theorem shortcutOf_cons {c : Char} (hc : c ≠ 'S') (rest : Str) {s : Shortcut}
    (h : (if startsWith (c :: rest) "CREATE USER" then some .createUser
      else if startsWith (c :: rest) "DROP USER" then some .dropUser else none) = some s) :
    shortcutOf (c :: rest) = some s := by
  have hOther : ∀ t : Str, c :: rest ≠ 'S' :: t := fun t hSame => hc (List.cons.inj hSame).1
  have hOne : ¬(c :: rest = ("SELECT 1" : Str) ∨ c :: rest = ("SELECT 1;" : Str)) :=
    not_or.2 ⟨hOther _, hOther _⟩
  have hVersion : ¬startsWith (c :: rest) "SELECT VERSION" = true := fun hStart => by
    obtain ⟨t, ht⟩ := List.isPrefixOf_iff_prefix.1 hStart
    exact hOther _ ht.symm
  have hBare := bare_ne hc rest
  have hDatabase : ¬(trimEndMatches (· == ';') (c :: rest) = ("SELECT DATABASE()" : Str) ∨
      trimEndMatches (· == ';') (c :: rest) = ("SELECT SCHEMA()" : Str) ∨
      trimEndMatches (· == ';') (c :: rest) = ("SELECT DATABASE() AS DATABASE()" : Str)) :=
    not_or.2 ⟨hBare _, not_or.2 ⟨hBare _, hBare _⟩⟩
  unfold shortcutOf
  dsimp only
  rw [if_neg hOne, if_neg hVersion, if_neg hDatabase]
  by_cases hCreate : startsWith (c :: rest) "CREATE USER" = true
  · rw [if_pos hCreate] at h ⊢
    exact h
  · rw [if_neg hCreate] at h ⊢
    by_cases hDrop : startsWith (c :: rest) "DROP USER" = true
    · rw [if_pos hDrop] at h ⊢
      exact h
    · rw [if_neg hDrop] at h
      cases h

theorem shortcutOf_createText (hUpper : UpperByChar) (u h p : Str) :
    shortcutOf (toUppercase (trim (createText u h p))) = some .createUser := by
  have hText : createText u h p = "CREATE USER" ++ (' ' :: (accountOf u h ++ identified (some p))) :=
    List.append_assoc ..
  have hFront : ("CREATE USER" : Str).map Char.toUpper = "CREATE USER" := by decide
  rw [trim_createText, hText, hUpper.append, hUpper.ascii _ (ascii_of_all (by decide)), hFront]
  refine shortcutOf_cons (c := 'C') (by decide) _ (if_pos ?_)
  exact List.isPrefixOf_iff_prefix.2 (List.prefix_append _ _)

theorem shortcutOf_dropText (hUpper : UpperByChar) (u h : Str) :
    shortcutOf (toUppercase (trim (dropText u h))) = some .dropUser := by
  have hText : dropText u h = "DROP USER" ++ (' ' :: accountOf u h) := rfl
  have hFront : ("DROP USER" : Str).map Char.toUpper = "DROP USER" := by decide
  rw [trim_dropText, hText, hUpper.append, hUpper.ascii _ (ascii_of_all (by decide)), hFront]
  refine shortcutOf_cons (c := 'D') (by decide) _ ((if_neg Bool.false_ne_true).trans (if_pos ?_))
  exact List.isPrefixOf_iff_prefix.2 (List.prefix_append _ _)

variable {u h : Str}

/-- After CREATE USER of a new name its password is the one in the text. -/
theorem hash_createText (hUpper : UpperByChar) (hu : QuotableName u) (hSome : u ≠ []) (hRoot : u ≠ "root")
    (hh : QuotableName h) {p : Str} (hp : '\'' ∉ p) {e : Engine} (hNone : e.users.get u = none) (now : Nat)
    (currentDb : Option Str) (userName : Str) :
    ((Call.text now (createText u h p) currentDb).step userName e).passwordHash u =
      some (doubleSha1 (bytes p)) := by
  have hArgs := createUserArgs_account hUpper hu hh (identifiedBy_quoted hUpper hp)
  have hUsers := users_createUser_new hArgs hSome hRoot hNone
  unfold Call.step Call.run Engine.passwordHash
  simp only
  rw [exec_execute_shortcut (shortcutOf_createText hUpper u h p)]
  unfold execShortcut
  rw [trim_createText]
  unfold createText
  rw [hUsers, HashMap.get_insert, if_pos rfl]
  rfl

/-- After DROP USER there is no account of the name. -/
theorem absent_dropText (hUpper : UpperByChar) (hu : QuotableName u) (hSome : u ≠ []) (hRoot : u ≠ "root")
    (hAt : '@' ∉ u) (hh : QuotableName h) (e : Engine) (now : Nat) (currentDb : Option Str) (userName : Str) :
    ((Call.text now (dropText u h) currentDb).step userName e).users.get u = none := by
  have hArg : dropUserArg (dropText u h) = .ok u := by
    unfold dropText
    rw [dropUserArg_account hu hSome hh, beforeAt_eq_self_iff.2 hAt]
  unfold Call.step Call.run
  simp only
  rw [exec_execute_shortcut (shortcutOf_dropText hUpper u h)]
  unfold execShortcut execDropUser
  simp only
  rw [trim_dropText, Prog.exec_bind, Prog.exec_ofExcept, hArg]
  simp only [onUsers, Prog.exec_mk, if_neg hRoot]
  split_ifs with hThere
  · rw [HashMap.get_remove, if_pos rfl]
  · simpa [HashMap.containsKey] using hThere

-- ---------------------------------------------------------------------------
-- Runs of a server
-- ---------------------------------------------------------------------------

/-- A move leaves the user table alone, or it is a call of a session. -/
theorem Server.users_move (s : Server) (m : ServerMove) :
    (s.step m).engine.users = s.engine.users ∨
      ∃ i a c k, m = .act i a ∧ s.conn i = some c ∧ c.workOf a = .call k ∧ c.engine = s.engine ∧
        (s.step m).engine.users = (k.step c.effectiveUser s.engine).users := by
  rcases m with ⟨i, scramble, tls, first⟩ | ⟨i, a⟩
  · exact .inl rfl
  · rcases hConn : s.conn i with _ | c
    · left
      rw [Server.step, hConn]
      rfl
    · have hEngine : c.engine = s.engine := by
        obtain ⟨d, -, rfl⟩ := Option.map_eq_some_iff.1 hConn
        rfl
      rw [s.engine_act hConn, users_step]
      rcases hWork : c.workOf a with _ | t | k
      · exact .inl (by rw [Conn.after, hEngine])
      · left
        rcases t with _ | _ | _
        · exact congrArg Engine.users hEngine
        · exact congrArg Engine.users hEngine
        · unfold Conn.after Conn.rollback
          rcases c.txnSnapshot with _ | snap
          · exact congrArg Engine.users hEngine
          · show c.engine.users = _
            rw [hEngine]
      · exact .inr ⟨i, a, c, k, rfl, hConn, hWork, hEngine, by rw [Conn.after, hEngine]⟩

/-- A session is asked to execute this text. -/
def Server.Executes (sql : Str) (s : Server) (m : ServerMove) : Prop :=
  s.Calls (fun _ _ k => ∃ now currentDb, k = .text now sql currentDb) m

/-- The password of `u` is written by CREATE USER and DROP USER of `u` only. -/
theorem Server.passwordHash_move {u : Str} {s : Server} {m : ServerMove}
    (hCreates : ¬ s.Calls (Call.CreatesUser u) m) (hDrops : ¬ s.Calls (Call.DropsUser u) m) :
    (s.step m).engine.passwordHash u = s.engine.passwordHash u := by
  rcases s.users_move m with hSame | ⟨i, a, c, k, hMove, hConn, hWork, hEngine, hUsers⟩
  · unfold Engine.passwordHash
    rw [hSame]
  · have hStep := passwordHash_step c.effectiveUser (k := k) (e := s.engine) (u := u)
      (fun h => hCreates ⟨i, a, c, k, hMove, hConn, hWork, hEngine ▸ h⟩)
      (fun h => hDrops ⟨i, a, c, k, hMove, hConn, hWork, hEngine ▸ h⟩)
    unfold Engine.passwordHash at hStep ⊢
    rw [hUsers, hStep]

/-- An account that is there is not made a second time. -/
theorem not_creates_of_there {u userName : Str} {e : Engine} {k : Call} (h : e.users.get u ≠ none) :
    ¬ k.CreatesUser u userName e := by
  rintro ⟨hShort, ⟨password, hArgs⟩, n, id, hOk⟩
  rcases k with ⟨now, sql, currentDb⟩ | ⟨now, sql, params, currentDb⟩
  · simp only [Call.run, Call.sql, exec_execute_shortcut hShort] at hOk hArgs
    unfold execShortcut execCreateUser at hOk
    rw [Prog.exec_bind, Prog.exec_ofExcept, hArgs] at hOk
    simp only [onUsers, Prog.exec_mk] at hOk
    split_ifs at hOk with hEmpty hRoot hThere
    · cases Except.ok.inj hOk
    · cases Except.ok.inj hOk
    · cases Except.ok.inj hOk
    · refine h ?_
      simpa [HashMap.containsKey] using hThere
  · cases hShort

/-- root is not dropped. -/
theorem not_drops_root {userName : Str} {e : Engine} {k : Call} : ¬ k.DropsUser "root" userName e := by
  rintro ⟨hShort, hArg, n, id, hOk⟩
  rcases k with ⟨now, sql, currentDb⟩ | ⟨now, sql, params, currentDb⟩
  · simp only [Call.run, Call.sql, exec_execute_shortcut hShort] at hOk hArg
    unfold execShortcut execDropUser at hOk
    rw [Prog.exec_bind, Prog.exec_ofExcept, hArg] at hOk
    simp only [onUsers, Prog.exec_mk, if_true] at hOk
    cases Except.ok.inj hOk
  · cases hShort

theorem Server.conn_engine {s : Server} {i : Nat} {c : Conn} (h : s.conn i = some c) : c.engine = s.engine := by
  obtain ⟨d, -, rfl⟩ := Option.map_eq_some_iff.1 h
  rfl

/-- An account stays while no DROP USER of it is answered OK. -/
theorem Server.passwordHash_stays {u : Str} {s : Server} (ms : List ServerMove) {hash : Bytes}
    (hHash : s.engine.passwordHash u = some hash)
    (hSince : Trace.Along Server.step (fun s m => ¬ s.Calls (Call.DropsUser u) m) s ms) :
    (Trace.run Server.step s ms).engine.passwordHash u = some hash := by
  refine Trace.invariant_run (I := fun s' : Server => s'.engine.passwordHash u = some hash) ?_ hHash hSince
  intro s' m hHash' hDrops
  refine (Server.passwordHash_move ?_ hDrops).trans hHash'
  rintro ⟨i, a, c, k, -, hConn, -, hCreates⟩
  refine not_creates_of_there ?_ hCreates
  rw [Server.conn_engine hConn]
  obtain ⟨account, hGet, -⟩ := Option.map_eq_some_iff.1 hHash'
  rw [hGet]
  exact Option.some_ne_none _

theorem Server.absent_run {u : Str} {s : Server} {ms : List ServerMove} (hNone : s.engine.users.get u = none)
    (hSince : Trace.Along Server.step (fun s m => ¬ s.Calls (Call.CreatesUser u) m) s ms) :
    (Trace.run Server.step s ms).engine.users.get u = none := by
  refine Trace.invariant_run (I := fun s' : Server => s'.engine.users.get u = none) ?_ hNone hSince
  intro s' m hNone' hNot
  rcases s'.users_move m with hSame | ⟨i, a, c, k, hMove, hConn, hWork, hEngine, hUsers⟩
  · rw [hSame]
    exact hNone'
  · rw [hUsers]
    exact absent_step hNone' fun hCreates => hNot ⟨i, a, c, k, hMove, hConn, hWork, hEngine ▸ hCreates⟩

theorem Server.executes_move {sql : Str} {s : Server} {m : ServerMove} (h : s.Executes sql m) :
    ∃ now currentDb userName,
      (s.step m).engine.users = ((Call.text now sql currentDb).step userName s.engine).users := by
  obtain ⟨i, a, c, k, rfl, hConn, hWork, now, currentDb, rfl⟩ := h
  refine ⟨now, currentDb, c.effectiveUser, ?_⟩
  rw [s.engine_act hConn, users_step, hWork, Conn.after, Server.conn_engine hConn]

/-- A name and a host whose account text stands for one account. -/
structure AccountName (u h : Str) : Prop where
  name : QuotableName u
  host : QuotableName h
  some : u ≠ []
  notRoot : u ≠ "root"
  noAt : '@' ∉ u
  noNul : '\x00' ∉ u

end LoginRuns

set_option maxRecDepth 4000

section Bob

local instance loginRunsPlatform : Platform := tablePlatform []

/-- root logs in and has sent CREATE USER. -/
def untilCreate : List ServerMove :=
  [.accept 0 (List.replicate 20 0) false (logsIn "root" rootAnswer), .act 0 (.tick 0),
    .act 0 (.data (encodePacket (0x03 :: bytes (createText "bob" "%" "it is \"b\"")) 0))]

end Bob

end RunAlexDb
