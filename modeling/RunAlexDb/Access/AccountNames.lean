import RunAlexDb.Access.AccountSlices
import RunAlexDb.Access.Accounts

/-!
# AccountNames — which entry an account text stands for

CREATE USER takes the name of `'u'@'h'` between its quotes. DROP USER, REVOKE and
SHOW GRANTS take what stands before the first `@` and strip quotes from it, so a
name with an `@` in it is cut. GRANT panics before it has a name.

Main results: `get_of_addressed` and `accountNames_iff`.
-/

set_option linter.unusedSectionVars false

namespace RunAlexDb

open Text Platform

section AccountNames

variable [Platform]

-- ---------------------------------------------------------------------------
-- The entry of a statement
-- ---------------------------------------------------------------------------

/-- The name of the entry a statement works on; GRANT is over before it has
one. -/
def AccountVerb.addressed (sql : Str) : AccountVerb → Option Str
  | createUser => (createUserArgs sql).toOption.map Prod.fst
  | dropUser => (dropUserArg sql).toOption
  | grant => none
  | revoke => (revokeNames sql).map Prod.fst
  | showGrants => (showGrantsArg sql).toOption

/-- Work on the user table after the reading of the arguments. -/
theorem get_onUsers {α : Type} {r : Rust α} {f : α → HashMap Str DbUser → QueryResult × HashMap Str DbUser}
    {n : α → Str} (hOther : ∀ a users k, k ≠ n a → (f a users).2.get k = users.get k)
    {a : α} (hArgs : r.toOption = some a) {k : Str} (hk : k ≠ n a) (e : Engine) :
    ((Prog.ofExcept r >>= fun a => onUsers (f a)).exec e).2.users.get k = e.users.get k := by
  cases r with
  | error fault => cases hArgs
  | ok b =>
    obtain rfl := Option.some.inj hArgs
    rw [Prog.exec_bind, Prog.exec_ofExcept]
    exact hOther b e.users k hk

/-- A statement leaves the entries alone that it does not address. -/
theorem get_of_addressed {v : AccountVerb} {sql name k : Str} (h : v.addressed sql = some name)
    (hk : k ≠ name) (e : Engine) : ((v.run sql).exec e).2.users.get k = e.users.get k := by
  cases v with
  | createUser =>
    obtain ⟨args, hArgs, rfl⟩ := Option.map_eq_some_iff.1 h
    refine get_onUsers (n := Prod.fst) (fun args users k hk => ?_) hArgs hk e
    split_ifs <;> simp [hk]
  | dropUser =>
    refine get_onUsers (n := id) (fun name users k hk => ?_) h hk e
    split_ifs
    · rfl
    · exact (HashMap.get_remove users name k).trans (if_neg hk)
    · rfl
  | grant => cases h
  | revoke =>
    obtain ⟨args, hArgs, rfl⟩ := Option.map_eq_some_iff.1 h
    obtain ⟨fromPos, hFrom, hArgs⟩ := Option.bind_eq_some_iff.1 hArgs
    show ((execRevoke sql).exec e).2.users.get k = _
    unfold execRevoke
    rw [hFrom]
    dsimp only
    cases hRead : revokeArgs sql fromPos with
    | error fault =>
      rw [hRead] at hArgs
      cases hArgs
    | ok b =>
      rw [hRead] at hArgs
      obtain rfl := Option.some.inj hArgs
      simp only [Prog.exec_bind, Prog.exec_ofExcept, onUsers, Prog.exec_mk, users_bumpIfOk]
      split_ifs
      · rw [HashMap.get_modify, if_neg hk]
      · rfl
  | showGrants =>
    show ((execShowGrants sql).exec e).2.users.get k = _
    unfold execShowGrants
    rw [Prog.exec_bind, Prog.exec_ofExcept]
    cases showGrantsArg sql <;> rfl

-- ---------------------------------------------------------------------------
-- Account texts
-- ---------------------------------------------------------------------------

/-- No quotes, no backticks, no white space. -/
structure QuotableName (s : Str) : Prop where
  noQuote : '\'' ∉ s
  noDouble : '"' ∉ s
  noTick : '`' ∉ s
  noSpace : ∀ c ∈ s, isWhitespace c = false

/-- `'u'@'h'`. -/
def accountOf (u h : Str) : Str := '\'' :: (u ++ '\'' :: '@' :: '\'' :: (h ++ ['\'']))

/-- ` IDENTIFIED BY 'p'`, or nothing. -/
def identified : Option Str → Str
  | none => []
  | some p => " IDENTIFIED BY '" ++ p ++ "'"

theorem identified_none : identified none = [] := rfl

theorem identified_some (p : Str) : identified (some p) = " IDENTIFIED BY '" ++ p ++ "'" := rfl

/-- The five statements on one account text. -/
def AccountVerb.onAccount (privs : List Str) (password : Option Str) (account : Str) :
    AccountVerb → Str
  | createUser => "CREATE USER " ++ account ++ identified password
  | dropUser => "DROP USER " ++ account
  | grant => "GRANT" ++ spaced privs ++ ' ' :: "TO" ++ ' ' :: account
  | revoke => "REVOKE" ++ spaced privs ++ ' ' :: "FROM" ++ ' ' :: account
  | showGrants => "SHOW" ++ spaced ["GRANTS"] ++ ' ' :: "FOR" ++ ' ' :: account

/-- A list of privileges with its level: plain words, none of which is FROM. -/
structure PrivWords (privs : List Str) : Prop where
  some : privs ≠ []
  words : ∀ w ∈ privs, PlainWord w ∧ w.map Char.toUpper ≠ "FROM"

/-- `to_uppercase` goes character by character, and maps ASCII as ASCII does. -/
structure UpperByChar : Prop where
  ascii : UpperAscii
  append : ∀ a b : Str, toUppercase (a ++ b) = toUppercase a ++ toUppercase b

-- ---------------------------------------------------------------------------
-- The name before the host
-- ---------------------------------------------------------------------------

/-- What stands before the first `@`. -/
def beforeAt (u : Str) : Str := u.takeWhile (· != '@')

theorem beforeAt_eq_self_iff {u : Str} : beforeAt u = u ↔ '@' ∉ u := by
  unfold beforeAt
  rw [List.takeWhile_eq_self_iff]
  constructor
  · intro h hIn
    simpa using h _ hIn
  · intro h c hc
    have hNe : c ≠ '@' := fun hSame => h (hSame ▸ hc)
    simpa using hNe

theorem head_split (s d : Str) (hd : s = [] → d = []) : (split '@' s).headD d = beforeAt s := by
  unfold split beforeAt
  by_cases hIn : '@' ∈ s
  · obtain ⟨a, b, rfl, hNot⟩ := List.eq_append_cons_of_mem hIn
    have hAll : ∀ c ∈ a, (c == '@') = false := fun c hc =>
      beq_eq_false_iff_ne.2 fun hSame => hNot (hSame ▸ hc)
    rw [List.splitOnP_append_cons _ _ (by decide), List.splitOnP_eq_singleton hAll,
      List.takeWhile_append_of_pos fun c hc => by rw [bne, hAll c hc]; rfl]
    simp
  · have hAll : ∀ c ∈ s, (c == '@') = false := fun c hc =>
      beq_eq_false_iff_ne.2 fun hSame => hIn (hSame ▸ hc)
    rw [List.splitOnP_eq_singleton hAll]
    exact (beforeAt_eq_self_iff.2 hIn).symm

/-- Quotes on both sides come off. -/
theorem trimMatches_around {q : Char} {x a y : Str} (hx : ∀ c ∈ x, c = q) (hy : ∀ c ∈ y, c = q)
    (ha : q ∉ a) : trimMatches q (x ++ (a ++ y)) = a := by
  have hDropX : (x ++ (a ++ y)).dropWhile (· == q) = (a ++ y).dropWhile (· == q) :=
    List.dropWhile_append_of_pos fun c hc => by simpa using hx c hc
  have hDropY : (y.reverse ++ a.reverse).dropWhile (· == q) = a.reverse.dropWhile (· == q) :=
    List.dropWhile_append_of_pos fun c hc => by simpa using hy c (List.mem_reverse.1 hc)
  unfold trimMatches trimStartMatches trimEndMatches
  rw [hDropX]
  cases a with
  | nil =>
    have hAll : y.dropWhile (· == q) = [] := by
      rw [List.dropWhile_eq_nil_iff]
      intro c hc
      simpa using hy c hc
    rw [List.nil_append, hAll]
    rfl
  | cons c a =>
    have hHead : (c == q) = false := beq_eq_false_iff_ne.2 fun hSame => ha (hSame ▸ List.mem_cons_self ..)
    have hKeep : (c :: a ++ y).dropWhile (· == q) = c :: a ++ y := by
      rw [List.cons_append, List.dropWhile_cons, hHead]
      rfl
    have hNot : q ∉ (c :: a).reverse := fun hIn => ha (List.mem_reverse.1 hIn)
    rw [hKeep, List.reverse_append, hDropY, dropWhile_of_notMem hNot, List.reverse_reverse]

/-- The name the statements other than CREATE USER read: what stands before the
first `@`, without the quotes around it. -/
theorem bare_account {u x : Str} (hu : QuotableName u) (hx : ∀ c ∈ x, c = '\'') (t : Str) :
    trim (trimMatches '`' (trimMatches '\'' (beforeAt (x ++ (u ++ '\'' :: '@' :: t))))) =
      beforeAt u := by
  have hSub : ∀ c ∈ beforeAt u, c ∈ u := fun c hc => List.takeWhile_subset _ hc
  have hQuote : '\'' ∉ beforeAt u := fun hIn => hu.noQuote (hSub _ hIn)
  have hTick : '`' ∉ beforeAt u := fun hIn => hu.noTick (hSub _ hIn)
  have hCut : ∃ y : Str, (∀ c ∈ y, c = '\'') ∧
      beforeAt (x ++ (u ++ '\'' :: '@' :: t)) = x ++ (beforeAt u ++ y) := by
    have hFront : beforeAt (x ++ (u ++ '\'' :: '@' :: t)) = x ++ beforeAt (u ++ '\'' :: '@' :: t) := by
      unfold beforeAt
      exact List.takeWhile_append_of_pos fun c hc => by rw [hx c hc]; rfl
    rw [hFront]
    by_cases hIn : '@' ∈ u
    · refine ⟨[], fun _ hc => absurd hc List.not_mem_nil, ?_⟩
      obtain ⟨a, b, rfl, hNot⟩ := List.eq_append_cons_of_mem hIn
      have hAll : ∀ c ∈ a, (c != '@') = true := fun c hc => by
        simpa using fun hSame : c = '@' => hNot (hSame ▸ hc)
      unfold beforeAt
      rw [List.append_assoc, List.takeWhile_append_of_pos hAll, List.takeWhile_append_of_pos hAll]
      simp
    · refine ⟨['\''], fun c hc => List.mem_singleton.1 hc, ?_⟩
      have hAll : ∀ c ∈ u, (c != '@') = true := fun c hc => by
        simpa using fun hSame : c = '@' => hIn (hSame ▸ hc)
      rw [beforeAt_eq_self_iff.2 hIn]
      unfold beforeAt
      rw [List.takeWhile_append_of_pos hAll]
      simp
  obtain ⟨y, hy, hText⟩ := hCut
  rw [hText, trimMatches_around hx hy hQuote, trimMatches_self hTick]
  exact trim_of_noSpace fun c hc => hu.noSpace c (hSub c hc)

variable {u h : Str}

theorem trim_account (u h : Str) : trim (accountOf u h) = accountOf u h := by
  refine trim_of_trimmed ⟨?_, ?_⟩
  · intro c hc
    rw [← Option.some.inj hc]
    decide
  · intro c hc
    have hText : accountOf u h = '\'' :: (u ++ '\'' :: '@' :: '\'' :: h) ++ ['\''] := by
      simp [accountOf]
    rw [hText, List.getLast?_concat] at hc
    rw [← Option.some.inj hc]
    decide

theorem bareUser_account (hu : QuotableName u) : bareUser (accountOf u h) = beforeAt u := by
  unfold bareUser
  rw [head_split _ _ id]
  exact bare_account (x := ['\'']) hu (fun c hc => List.mem_singleton.1 hc) _

theorem dropUserArg_account (hu : QuotableName u) (hNe : u ≠ []) (hh : QuotableName h) :
    dropUserArg ("DROP USER " ++ accountOf u h) = .ok (beforeAt u) := by
  have hCut : sliceFrom ("DROP USER " ++ accountOf u h) 9 = some (' ' :: accountOf u h) :=
    sliceFrom_append "DROP USER" (' ' :: accountOf u h)
  have hTrim : trim (' ' :: accountOf u h) = accountOf u h := by
    rw [← trim_trimStart]
    show trim (accountOf u h) = _
    exact trim_account u h
  -- the outer quotes come off, and with an empty host the one before it too
  have hQuotes : ∃ t, trimMatches '\'' (accountOf u h) = u ++ '\'' :: '@' :: t ∧ '`' ∉ t := by
    by_cases hHost : h = []
    · refine ⟨[], ?_, List.not_mem_nil⟩
      subst hHost
      obtain ⟨c, v, rfl⟩ := List.exists_cons_of_ne_nil hNe
      have hHead : (c == '\'') = false :=
        beq_eq_false_iff_ne.2 fun hSame => hu.noQuote (hSame ▸ List.mem_cons_self ..)
      unfold trimMatches trimStartMatches trimEndMatches accountOf
      rw [List.dropWhile_cons_of_pos rfl, List.cons_append, List.dropWhile_cons, hHead]
      simp
    · refine ⟨'\'' :: h, ?_, ?_⟩
      · obtain ⟨c, v, rfl⟩ := List.exists_cons_of_ne_nil hNe
        have hHead : (c == '\'') = false :=
          beq_eq_false_iff_ne.2 fun hSame => hu.noQuote (hSame ▸ List.mem_cons_self ..)
        obtain ⟨g, d, rfl⟩ := List.eq_nil_or_concat h |>.resolve_left hHost
        have hLast : (d == '\'') = false :=
          beq_eq_false_iff_ne.2 fun hSame => hh.noQuote (by rw [← hSame]; simp)
        unfold trimMatches trimStartMatches trimEndMatches accountOf
        rw [List.dropWhile_cons_of_pos rfl, List.cons_append, List.dropWhile_cons, hHead]
        simp [hLast]
      · rw [List.mem_cons]
        rintro (hQuote | hIn)
        · exact absurd hQuote (by decide)
        · exact hh.noTick hIn
  obtain ⟨t, hText, hTick⟩ := hQuotes
  have hNoTick : '`' ∉ u ++ '\'' :: '@' :: t := by
    rw [List.mem_append, List.mem_cons, List.mem_cons]
    rintro (hIn | hQuote | hAt | hIn)
    · exact hu.noTick hIn
    · exact absurd hQuote (by decide)
    · exact absurd hAt (by decide)
    · exact hTick hIn
  unfold dropUserArg
  rw [hCut]
  show (Except.ok (bareUser (trimMatches '`' (trimMatches '\'' (trim (' ' :: accountOf u h)))))
    : Rust Str) = _
  rw [hTrim, hText, trimMatches_self hNoTick]
  unfold bareUser
  rw [head_split _ _ id]
  exact congrArg Except.ok (bare_account (x := []) hu (fun _ hc => absurd hc List.not_mem_nil) t)

-- ---------------------------------------------------------------------------
-- The words in front of the account
-- ---------------------------------------------------------------------------

/-- In the upper-cased copy a word between blanks is where it is in the text. -/
theorem find_upper_account (hUpper : UpperByChar) {first w : Str} {ws : List Str}
    (hFirst : PlainWord first) (hWords : ∀ a ∈ ws, PlainWord a) (hw : PlainWord w)
    (hCapital : w.map Char.toUpper = w) (hNot : ∀ a ∈ ws, a.map Char.toUpper ≠ w) (t : Str) :
    find (toUppercase (first ++ spaced ws ++ ' ' :: w ++ ' ' :: t)) (' ' :: w ++ [' ']) =
      some (byteLen (first ++ spaced ws)) := by
  have hAscii : ∀ c ∈ first ++ spaced ws ++ ' ' :: w ++ [' '], c.toNat < 128 := by
    intro c hc
    simp only [List.mem_append, List.mem_cons, List.not_mem_nil, or_false] at hc
    rcases hc with ((hc | hc) | rfl | hc) | rfl
    · exact ascii_of_plain hFirst.plain c hc
    · exact ascii_spaced hWords c hc
    · decide
    · exact ascii_of_plain hw.plain c hc
    · decide
  have hText : first ++ spaced ws ++ ' ' :: w ++ ' ' :: t =
      (first ++ spaced ws ++ ' ' :: w ++ [' ']) ++ t := by simp
  have hBlank : Char.toUpper ' ' = ' ' := by decide
  have hCopy : toUppercase (first ++ spaced ws ++ ' ' :: w ++ ' ' :: t) =
      first.map Char.toUpper ++ spaced (ws.map (List.map Char.toUpper)) ++ ' ' :: w ++
        ' ' :: toUppercase t := by
    rw [hText, hUpper.append, hUpper.ascii _ hAscii]
    simp only [List.map_append, List.map_cons, List.map_nil, spaced_upper, hCapital, hBlank]
    simp
  have hNotIn : w ∉ ws.map (List.map Char.toUpper) := by
    rw [List.mem_map]
    rintro ⟨a, ha, hSame⟩
    exact hNot a ha hSame
  have hBlanks : ∀ a ∈ ws.map (List.map Char.toUpper), ' ' ∉ a := by
    intro a ha
    obtain ⟨b, hb, rfl⟩ := List.mem_map.1 ha
    exact (hWords b hb).noBlank_upper
  rw [hCopy, find_word hFirst.noBlank_upper hw.noBlank hBlanks hNotIn, byteLen_append, byteLen_append,
    hFirst.byteLen_upper, byteLen_spaced_upper hWords]

/-- Behind name and host stands what follows the first white space. -/
theorem dropWhile_host {p : Char → Bool} {a b : Str} (ha : ∀ c ∈ a, isWhitespace c = false)
    (hb : ∀ c, b.head? = some c → isWhitespace c = true ∧ p c = false) :
    ((a ++ b).dropWhile p).dropWhile (fun c => !isWhitespace c) = b := by
  have hStop : b.dropWhile (fun c => !isWhitespace c) = b := dropWhile_head fun c hc => by
    rw [(hb c hc).1]
    rfl
  induction a with
  | nil =>
    have hKeep : b.dropWhile p = b := dropWhile_head fun c hc => (hb c hc).2
    rw [List.nil_append, hKeep, hStop]
  | cons c a ih =>
    rw [List.cons_append, List.dropWhile_cons]
    split_ifs
    · exact ih fun x hx => ha x (List.mem_cons_of_mem _ hx)
    · rw [← List.cons_append, List.dropWhile_append_of_pos, hStop]
      intro x hx
      rw [ha x hx]
      rfl

theorem find_identifiedBy (t : Str) : find (" IDENTIFIED BY '" ++ t) "IDENTIFIED BY" = some 1 := by
  have hText : (" IDENTIFIED BY '" : Str) ++ t = ' ' :: ("IDENTIFIED BY" ++ (" '" ++ t)) := by
    rw [← List.append_assoc]
    exact congrArg (· ++ t) (by decide : (" IDENTIFIED BY '" : Str) = ' ' :: ("IDENTIFIED BY" ++ " '"))
  have hBlank : ("IDENTIFIED BY" : Str).isPrefixOf (' ' :: ("IDENTIFIED BY" ++ (" '" ++ t))) = false := rfl
  have hWord : ("IDENTIFIED BY" : Str).isPrefixOf ("IDENTIFIED BY" ++ (" '" ++ t)) = true :=
    List.isPrefixOf_iff_prefix.2 (List.prefix_append _ _)
  have hFrom : findFrom 1 ("IDENTIFIED BY" ++ (" '" ++ t)) "IDENTIFIED BY" = some 1 := by
    generalize hSome : ("IDENTIFIED BY" : Str) ++ (" '" ++ t) = s at hWord
    cases s with
    | nil => exact absurd hSome (List.cons_ne_nil _ _)
    | cons c s => rw [findFrom, if_pos hWord]
  rw [hText, find, findFrom, hBlank]
  exact hFrom

theorem ascii_of_all {s : Str} (h : s.all (fun c => decide (c.toNat < 128)) = true) :
    ∀ c ∈ s, c.toNat < 128 := fun c hc => of_decide_eq_true (List.all_eq_true.1 h c hc)

theorem identifiedBy_ok (hUpper : UpperByChar) (password : Option Str) :
    ∃ pw, identifiedBy (identified password) = .ok pw := by
  rw [identifiedBy_ok_iff]
  cases password with
  | none =>
    have hNil : toUppercase [] = [] := hUpper.ascii [] fun _ hc => absurd hc List.not_mem_nil
    intro p hFind
    have hNone : find (toUppercase (identified none)) "IDENTIFIED BY" = none := by
      rw [identified_none, hNil]
      decide +kernel
    rw [hNone] at hFind
    cases hFind
  | some p =>
    have hText : identified (some p) = " IDENTIFIED BY '" ++ (p ++ "'") := List.append_assoc ..
    have hCopy : toUppercase (" IDENTIFIED BY '" ++ (p ++ "'")) =
        " IDENTIFIED BY '" ++ toUppercase (p ++ "'") := by
      rw [hUpper.append, hUpper.ascii _ (ascii_of_all (by decide))]
      rfl
    intro n hFind
    rw [hText, hCopy] at hFind
    have hOne : n = 1 := by
      rw [find_identifiedBy] at hFind
      exact (Option.some.inj hFind).symm
    rw [hText, hOne]
    exact ⟨" IDENTIFIED BY", " '" ++ (p ++ "'"), rfl, by decide⟩

theorem trimmed_account (u h : Str) (password : Option Str) (first : Str)
    (hFirst : ∀ c, first.head? = some c → isWhitespace c = false) :
    trim (first ++ (accountOf u h ++ identified password)) =
      first ++ (accountOf u h ++ identified password) := by
  refine trim_of_trimmed ⟨?_, ?_⟩
  · intro c hc
    cases first with
    | nil =>
      have hQuote : '\'' = c := by simpa [accountOf] using hc
      rw [← hQuote]
      decide
    | cons d first =>
      have hHead : d = c := Option.some.inj hc
      exact hHead ▸ hFirst d rfl
  · have hLast : ∃ body, first ++ (accountOf u h ++ identified password) = body ++ ['\''] := by
      cases password with
      | none =>
        refine ⟨first ++ '\'' :: (u ++ '\'' :: '@' :: '\'' :: h), ?_⟩
        simp [accountOf, identified_none]
      | some p =>
        refine ⟨first ++ (accountOf u h ++ (" IDENTIFIED BY '" ++ p)), ?_⟩
        simp [identified_some]
    obtain ⟨body, hBody⟩ := hLast
    intro c hc
    rw [hBody, List.getLast?_concat] at hc
    rw [← Option.some.inj hc]
    decide

/-- The name of CREATE USER stands between its quotes, whatever is in it. -/
theorem parse_account (hu : QuotableName u) (hh : QuotableName h) {password : Option Str} {pw : Str}
    (hPw : identifiedBy (identified password) = .ok pw) :
    parseUserIdentWithPassword (accountOf u h ++ identified password) = .ok (u, pw) := by
  have hTrim : trim (accountOf u h ++ identified password) = accountOf u h ++ identified password :=
    trimmed_account u h password [] fun _ hc => nomatch hc
  have hText : accountOf u h ++ identified password =
      '\'' :: (u ++ '\'' :: ('@' :: '\'' :: (h ++ ['\'']) ++ identified password)) := by
    simp [accountOf]
  have hName := quotedIdent_closed (q := '\'') rfl
    (splitOnce_append hu.noQuote ('@' :: '\'' :: (h ++ ['\'']) ++ identified password))
  have hHost : (trimStartMatches (fun c => c == '@' || c == '\'')
      ('@' :: '\'' :: (h ++ ['\'']) ++ identified password)).dropWhile (fun c => !isWhitespace c) =
        identified password := by
    refine dropWhile_host ?_ ?_
    · intro c hc
      simp only [List.mem_cons, List.mem_append, List.not_mem_nil, or_false] at hc
      rcases hc with rfl | rfl | hc | rfl
      · decide
      · decide
      · exact hh.noSpace c hc
      · decide
    · intro c hc
      cases password with
      | none => cases hc
      | some p =>
        rw [← Option.some.inj hc]
        decide
  show parseTrimmed (trim (accountOf u h ++ identified password)) = _
  have hQuote : startsWith ('\'' :: (u ++ '\'' :: ('@' :: '\'' :: (h ++ ['\'']) ++
      identified password))) "'" = true := startsWith_quote.2 ⟨_, rfl⟩
  rw [hTrim, hText]
  unfold parseTrimmed
  rw [if_pos hQuote]
  show (quotedIdent ['\''] _ >>= _) = _
  rw [hName]
  show (identifiedBy _ >>= _) = _
  rw [hHost, hPw]
  rfl

theorem createUserArgs_account (hUpper : UpperByChar) (hu : QuotableName u) (hh : QuotableName h)
    {password : Option Str} {pw : Str} (hPw : identifiedBy (identified password) = .ok pw) :
    createUserArgs ("CREATE USER " ++ accountOf u h ++ identified password) = .ok (u, pw) := by
  have hParse := parse_account hu hh hPw
  have hBehind : behindVerb ("CREATE USER " ++ accountOf u h ++ identified password) =
      "USER" ++ (' ' :: (accountOf u h ++ identified password)) := by
    show trim (' ' :: ("USER " ++ (accountOf u h ++ identified password))) = _
    rw [← trim_trimStart]
    refine trimmed_account u h password "USER " fun c hc => ?_
    rw [← Option.some.inj hc]
    decide
  have hWord : startsWith (toUppercase ("USER" ++ (' ' :: (accountOf u h ++ identified password))))
      "USER" = true := by
    have hCopy : ("USER" : Str).map Char.toUpper = "USER" := by decide
    rw [hUpper.append, hUpper.ascii _ (ascii_of_all (by decide)), hCopy]
    exact List.isPrefixOf_iff_prefix.2 (List.prefix_append _ _)
  have hCut : sliceFrom ("USER" ++ (' ' :: (accountOf u h ++ identified password))) 4 =
      some (' ' :: (accountOf u h ++ identified password)) := by
    have hLen : byteLen "USER" = 4 := by decide
    rw [← hLen]
    exact sliceFrom_append "USER" _
  unfold createUserArgs
  show (do
    let rest ← if startsWith (toUppercase (behindVerb _)) "USER" then
      do pure (trimStart (← orPanic (sliceFrom (behindVerb _) 4)))
    else pure (behindVerb _)
    parseUserIdentWithPassword rest : Rust (Str × Str)) = _
  rw [hBehind, if_pos hWord, hCut]
  exact hParse

theorem createUser_account (hUpper : UpperByChar) (hu : QuotableName u) (hh : QuotableName h)
    (password : Option Str) :
    ∃ pw, createUserArgs ("CREATE USER " ++ accountOf u h ++ identified password) = .ok (u, pw) := by
  obtain ⟨pw, hPw⟩ := identifiedBy_ok hUpper password
  exact ⟨pw, createUserArgs_account hUpper hu hh hPw⟩

/-- The user a REVOKE names stands behind FROM. -/
theorem name_of_revokeArgs {sql : Str} {p : Nat} {r : Str × Option Str}
    (hArgs : revokeArgs sql p = .ok r) {x account : Str} (hText : sql = x ++ account)
    (hLen : byteLen x = p + 6) : r.1 = bareUser (trim account) := by
  have hCut : sliceFrom sql (p + 6) = some account := by
    rw [hText, ← hLen]
    exact sliceFrom_append x account
  have hBind : ∀ (a : Str) (f : Str → Rust (Str × Option Str)), (orPanic (some a) >>= f) = f a :=
    fun _ _ => rfl
  unfold revokeArgs at hArgs
  rw [hCut] at hArgs
  cases hPrivs : slice sql 7 p with
  | none =>
    rw [hPrivs] at hArgs
    cases hArgs
  | some privs =>
    rw [hPrivs] at hArgs
    rw [hBind, hBind] at hArgs
    dsimp only at hArgs
    cases hOn : find (toUppercase (trim privs)) " ON " with
    | none =>
      rw [hOn] at hArgs
      rw [← Except.ok.inj hArgs]
    | some onPos =>
      rw [hOn] at hArgs
      dsimp only at hArgs
      cases hLevel : sliceFrom (trim privs) (onPos + 4) with
      | none =>
        rw [hLevel] at hArgs
        cases hArgs
      | some level =>
        rw [hLevel] at hArgs
        rw [← Except.ok.inj hArgs]

theorem revokeNames_account (hUpper : UpperByChar) (hu : QuotableName u) {privs : List Str}
    (hPrivs : PrivWords privs) :
    ∃ db, revokeNames ("REVOKE" ++ spaced privs ++ ' ' :: "FROM" ++ ' ' :: accountOf u h) =
      some (beforeAt u, db) := by
  obtain ⟨w, ws, rfl⟩ := List.exists_cons_of_ne_nil hPrivs.some
  have hFind : find (toUppercase ("REVOKE" ++ spaced (w :: ws) ++ ' ' :: "FROM" ++ ' ' :: accountOf u h))
      " FROM " = some (byteLen ("REVOKE" ++ spaced (w :: ws))) :=
    find_upper_account hUpper (.of_all (by decide)) (fun a ha => (hPrivs.words a ha).1)
      (.of_all (by decide)) (by decide) (fun a ha => (hPrivs.words a ha).2) (accountOf u h)
  have hText : ("REVOKE" ++ spaced (w :: ws) ++ ' ' :: "FROM" ++ ' ' :: accountOf u h : Str) =
      "REVOKE " ++ ((w ++ spaced ws) ++ (" FROM " ++ accountOf u h)) := by
    simp [spaced_cons]
  have hLen : byteLen ("REVOKE" ++ spaced (w :: ws)) = byteLen "REVOKE " + byteLen (w ++ spaced ws) := by
    rw [← byteLen_append]
    exact congrArg byteLen (by simp [spaced_cons])
  have hAscii : ∀ c ∈ trim (w ++ spaced ws), c.toNat < 128 := by
    have hAll : ∀ c ∈ w ++ spaced ws, c.toNat < 128 := by
      intro c hc
      rcases List.mem_append.1 hc with hc | hc
      · exact ascii_of_plain (hPrivs.words w (List.mem_cons_self ..)).1.plain c hc
      · exact ascii_spaced (fun a ha => (hPrivs.words a (List.mem_cons_of_mem _ ha)).1) c hc
    intro c hc
    refine hAll c ?_
    unfold trim trimEnd trimStart trimStartMatches trimEndMatches at hc
    exact List.dropWhile_subset _ (List.mem_reverse.1 (List.dropWhile_subset _ (List.mem_reverse.1 hc)))
  obtain ⟨r, hArgs⟩ := (revokeArgs_ok_iff
    ("REVOKE" ++ spaced (w :: ws) ++ ' ' :: "FROM" ++ ' ' :: accountOf u h) _).2
    ⟨"REVOKE ", w ++ spaced ws, " FROM " ++ accountOf u h, hText, rfl, rfl,
      ⟨" FROM ", accountOf u h, rfl, rfl⟩, cutsBehind_ascii hUpper.ascii hAscii⟩
  refine ⟨r.2, ?_⟩
  have hName : r.1 = beforeAt u := by
    have hFront : ("REVOKE" ++ spaced (w :: ws) ++ ' ' :: "FROM" ++ ' ' :: accountOf u h : Str) =
        ("REVOKE " ++ (w ++ spaced ws) ++ " FROM ") ++ accountOf u h := by
      rw [hText]
      simp only [List.append_assoc]
    rw [name_of_revokeArgs hArgs hFront (by rw [byteLen_append, byteLen_append]; rfl), trim_account,
      bareUser_account hu]
  unfold revokeNames
  rw [hFind, Option.bind_some, hLen, hArgs, ← hName]
  rfl

theorem showGrantsArg_account (hUpper : UpperByChar) (hu : QuotableName u) :
    showGrantsArg ("SHOW" ++ spaced ["GRANTS"] ++ ' ' :: "FOR" ++ ' ' :: accountOf u h) =
      .ok (beforeAt u) := by
  have hFind : find (toUppercase ("SHOW" ++ spaced ["GRANTS"] ++ ' ' :: "FOR" ++ ' ' :: accountOf u h))
      " FOR " = some (byteLen ("SHOW" ++ spaced ["GRANTS"])) :=
    find_upper_account hUpper (.of_all (by decide)) (by simpa using .of_all (by decide))
      (.of_all (by decide)) (by decide) (by simp) (accountOf u h)
  have hCut : sliceFrom ("SHOW" ++ spaced ["GRANTS"] ++ ' ' :: "FOR" ++ ' ' :: accountOf u h)
      (byteLen ("SHOW" ++ spaced ["GRANTS"]) + 5) = some (accountOf u h) :=
    sliceFrom_append "SHOW GRANTS FOR " (accountOf u h)
  unfold showGrantsArg
  rw [hFind]
  dsimp only
  rw [hCut]
  show (Except.ok (trim (trimMatches '`' (trimMatches '\'' ((split '@' (trim (accountOf u h))).headD []))))
    : Rust Str) = _
  rw [trim_account, head_split _ _ fun _ => rfl]
  exact congrArg Except.ok (bare_account (x := ['\'']) hu (fun c hc => List.mem_singleton.1 hc) _)

-- ---------------------------------------------------------------------------
-- Which statements agree
-- ---------------------------------------------------------------------------

/-- The entry each statement addresses on one account text. -/
theorem addressed_account (hUpper : UpperByChar) (hu : QuotableName u) (hNe : u ≠ [])
    (hh : QuotableName h) {privs : List Str} (hPrivs : PrivWords privs) (password : Option Str)
    (v : AccountVerb) :
    v.addressed (v.onAccount privs password (accountOf u h)) =
      match v with
      | .createUser => some u
      | .grant => none
      | _ => some (beforeAt u) := by
  cases v with
  | createUser =>
    obtain ⟨pw, hArgs⟩ := createUser_account hUpper hu hh password
    unfold AccountVerb.addressed AccountVerb.onAccount
    dsimp only
    rw [hArgs]
    rfl
  | dropUser =>
    unfold AccountVerb.addressed AccountVerb.onAccount
    dsimp only
    rw [dropUserArg_account hu hNe hh]
    rfl
  | grant => rfl
  | revoke =>
    obtain ⟨db, hNames⟩ := @revokeNames_account _ u h hUpper hu privs hPrivs
    unfold AccountVerb.addressed AccountVerb.onAccount
    dsimp only
    rw [hNames]
    rfl
  | showGrants =>
    unfold AccountVerb.addressed AccountVerb.onAccount
    dsimp only
    rw [showGrantsArg_account hUpper hu]
    rfl

/-- The statements `vs` on the account text of `u` work on one entry. -/
def OneEntry (vs : List AccountVerb) (privs : List Str) (password : Option Str) (u h : Str) : Prop :=
  ∃ name, ∀ v ∈ vs, v.addressed (v.onAccount privs password (accountOf u h)) = some name

/-- CREATE USER and then DROP USER on the account text of `u`. -/
def createDrop (privs : List Str) (password : Option Str) (u h : Str) : EngineM QueryResult := do
  let _ ← AccountVerb.createUser.run (AccountVerb.createUser.onAccount privs password (accountOf u h))
  AccountVerb.dropUser.run (AccountVerb.dropUser.onAccount privs password (accountOf u h))

theorem remove_insert {users : HashMap Str DbUser} {name : Str} (hNone : users.get name = none)
    (account : DbUser) : (users.insert name account).remove name = users := by
  have hNot : name ∉ users.keys := HashMap.get_eq_none_iff.1 hNone
  refine HashMap.ext_entries ?_
  show (users.insert name account).entries.filter (fun p => p.1 ≠ name) = users.entries
  unfold HashMap.insert
  rw [dif_neg hNot]
  show (users.entries ++ [(name, account)]).filter (fun p => p.1 ≠ name) = users.entries
  rw [List.filter_append, List.filter_eq_self.2, List.filter_eq_nil_iff.2, List.append_nil]
  · intro p hp
    simp [List.mem_singleton.1 hp]
  · intro p hp
    have hNe : p.1 ≠ name := fun hSame => hNot (hSame ▸ List.mem_map_of_mem hp)
    simpa using hNe

theorem users_createUser_new {sql pw : Str} {e : Engine} (hArgs : createUserArgs sql = .ok (u, pw))
    (hNe : u ≠ []) (hRoot : u ≠ "root") (hNone : e.users.get u = none) :
    ((execCreateUser sql).exec e).2.users = e.users.insert u (newUser pw) := by
  have hThere : e.users.containsKey u = false := by
    rw [HashMap.containsKey, hNone]
    rfl
  have hSome : ¬u.isEmpty = true := fun hEmpty => hNe (List.isEmpty_iff.1 hEmpty)
  have hFresh : ¬e.users.containsKey u = true := by
    rw [hThere]
    exact Bool.false_ne_true
  rw [execCreateUser, Prog.exec_bind, Prog.exec_ofExcept, hArgs]
  simp only [exec_onUsers]
  rw [if_neg hSome, if_neg hRoot, if_neg hFresh]

/-- CREATE USER with a new name and DROP USER of it leave the table as it was
exactly when the name has no `@`. -/
theorem users_createDrop_iff (hUpper : UpperByChar) (hu : QuotableName u) (hNe : u ≠ [])
    (hRoot : u ≠ "root") (hh : QuotableName h) (privs : List Str) (password : Option Str) {e : Engine}
    (hNone : e.users.get u = none) :
    ((createDrop privs password u h).exec e).2.users = e.users ↔ '@' ∉ u := by
  obtain ⟨pw, hArgs⟩ := createUser_account hUpper hu hh password
  have hCreated := users_createUser_new hArgs hNe hRoot hNone
  have hEnds : ∃ answer, ((execCreateUser ("CREATE USER " ++ accountOf u h ++ identified password)).exec
      e).1 = .ok answer := by
    rw [execCreateUser, Prog.exec_bind, Prog.exec_ofExcept, hArgs]
    exact ⟨_, rfl⟩
  obtain ⟨answer, hAnswer⟩ := hEnds
  have hRun : ((createDrop privs password u h).exec e).2.users =
      ((execDropUser ("DROP USER " ++ accountOf u h)).exec ((execCreateUser
        ("CREATE USER " ++ accountOf u h ++ identified password)).exec e).2).2.users := by
    have hPair : (execCreateUser ("CREATE USER " ++ accountOf u h ++ identified password)).exec e =
        (.ok answer, ((execCreateUser
          ("CREATE USER " ++ accountOf u h ++ identified password)).exec e).2) :=
      Prod.ext hAnswer rfl
    exact congrArg (fun r : Rust QueryResult × Engine => r.2.users) (Prog.exec_bind_ok hPair)
  rw [hRun]
  generalize ((execCreateUser ("CREATE USER " ++ accountOf u h ++ identified password)).exec e).2 = e'
    at hCreated
  constructor
  · intro hBack hIn
    have hOther : u ≠ beforeAt u := fun hSame => beforeAt_eq_self_iff.1 hSame.symm hIn
    have hAddressed : AccountVerb.dropUser.addressed ("DROP USER " ++ accountOf u h) =
        some (beforeAt u) := by
      unfold AccountVerb.addressed
      dsimp only
      rw [dropUserArg_account hu hNe hh]
      rfl
    have hKept := get_of_addressed hAddressed hOther e'
    have hStays : e.users.get u = some (newUser pw) := by
      rw [← hBack]
      refine hKept.trans ?_
      rw [hCreated, HashMap.get_insert, if_pos rfl]
    rw [hNone] at hStays
    cases hStays
  · intro hNot
    have hName : dropUserArg ("DROP USER " ++ accountOf u h) = .ok u := by
      rw [dropUserArg_account hu hNe hh, beforeAt_eq_self_iff.2 hNot]
    have hThere : e'.users.containsKey u = true := by
      rw [HashMap.containsKey, hCreated, HashMap.get_insert, if_pos rfl]
      rfl
    rw [execDropUser, Prog.exec_bind, Prog.exec_ofExcept, hName]
    simp only [onUsers, Prog.exec_mk, if_neg hRoot, if_pos hThere]
    rw [hCreated]
    exact remove_insert hNone _

/-- The five statements never work on one entry, since GRANT works on none. The
other four do, and CREATE USER followed by DROP USER leaves the table as it was,
exactly when the name has no `@`. -/
theorem accountNames_iff (hUpper : UpperByChar) (hu : QuotableName u) (hNe : u ≠ [])
    (hRoot : u ≠ "root") (hh : QuotableName h) {privs : List Str} (hPrivs : PrivWords privs)
    (password : Option Str) :
    ¬OneEntry [.createUser, .grant, .revoke, .showGrants, .dropUser] privs password u h ∧
      (OneEntry [.createUser, .revoke, .showGrants, .dropUser] privs password u h ↔ '@' ∉ u) ∧
      ∀ e : Engine, e.users.get u = none →
        (((createDrop privs password u h).exec e).2.users = e.users ↔ '@' ∉ u) := by
  have hEach := addressed_account (h := h) hUpper hu hNe hh hPrivs password
  refine ⟨?_, ⟨?_, ?_⟩, fun e hNone => users_createDrop_iff hUpper hu hNe hRoot hh privs password hNone⟩
  · rintro ⟨name, hAll⟩
    have hGrant := hAll .grant (by decide)
    rw [hEach .grant] at hGrant
    cases hGrant
  · rintro ⟨name, hAll⟩
    have hCreate := hAll .createUser (by decide)
    have hDrop := hAll .dropUser (by decide)
    rw [hEach .createUser] at hCreate
    rw [hEach .dropUser] at hDrop
    refine beforeAt_eq_self_iff.1 (Option.some.inj (hDrop.trans hCreate.symm))
  · intro hNot
    have hSame := beforeAt_eq_self_iff.2 hNot
    refine ⟨u, fun v hv => ?_⟩
    rw [hEach v]
    cases v with
    | createUser => rfl
    | grant => exact absurd hv (by decide)
    | dropUser => exact congrArg some hSame
    | revoke => exact congrArg some hSame
    | showGrants => exact congrArg some hSame

end AccountNames

section AtSign

local instance atSignPlatform : Platform := tablePlatform []

theorem upperByChar_table : UpperByChar :=
  ⟨upperAscii_table, fun _ _ => List.map_append⟩

theorem quotableName_of_all {s : Str}
    (h : (s.all fun c => c != '\'' && c != '"' && c != '`' && !isWhitespace c) = true) :
    QuotableName s := by
  have hEach : ∀ c ∈ s, c ≠ '\'' ∧ c ≠ '"' ∧ c ≠ '`' ∧ isWhitespace c = false := by
    intro c hc
    simpa [and_assoc] using List.all_eq_true.1 h c hc
  exact ⟨fun hIn => (hEach _ hIn).1 rfl, fun hIn => (hEach _ hIn).2.1 rfl,
    fun hIn => (hEach _ hIn).2.2.1 rfl, fun c hc => (hEach c hc).2.2.2⟩

theorem privWords_select : PrivWords ["SELECT", "ON", "*.*"] where
  some := by decide
  words := by
    intro w hw
    simp only [List.mem_cons, List.not_mem_nil, or_false] at hw
    rcases hw with rfl | rfl | rfl <;> exact ⟨.of_all (by decide), by decide⟩

/-- The account 'a@b'@'h'. -/
theorem accountNames_iff_at :
    ¬OneEntry [.createUser, .revoke, .showGrants, .dropUser] ["SELECT", "ON", "*.*"] none "a@b" "h" := by
  have hIff := accountNames_iff upperByChar_table (u := "a@b") (h := "h")
    (quotableName_of_all (by decide)) (by decide) (by decide) (quotableName_of_all (by decide))
    privWords_select none
  intro hOne
  exact hIff.2.1.1 hOne (by decide)

/-- CREATE USER 'a@b'@'h' makes an entry `a@b`; DROP USER looks for `a`. -/
theorem not_accountNames :
    ¬∀ (u h : Str) (privs : List Str) (password : Option Str), QuotableName u → u ≠ [] → u ≠ "root" →
      QuotableName h → PrivWords privs →
        OneEntry [.createUser, .grant, .revoke, .showGrants, .dropUser] privs password u h := by
  intro hAll
  obtain ⟨name, hEach⟩ := hAll "a@b" "h" ["SELECT", "ON", "*.*"] none (quotableName_of_all (by decide))
    (by decide) (by decide) (quotableName_of_all (by decide)) privWords_select
  have hCreate : AccountVerb.createUser.addressed (AccountVerb.createUser.onAccount
      ["SELECT", "ON", "*.*"] none (accountOf "a@b" "h")) = some "a@b" := by decide +kernel
  have hDrop : AccountVerb.dropUser.addressed (AccountVerb.dropUser.onAccount
      ["SELECT", "ON", "*.*"] none (accountOf "a@b" "h")) = some "a" := by decide +kernel
  have hSame := (hEach .createUser (by decide)).symm.trans hCreate
  rw [hEach .dropUser (by decide)] at hDrop
  exact absurd (hSame.symm.trans hDrop) (by decide)

end AtSign

end RunAlexDb
