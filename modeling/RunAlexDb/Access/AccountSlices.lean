import Mathlib.Data.List.DropRight
import RunAlexDb.Access.Grants
import RunAlexDb.Lib.CharBoundaries

/-!
# AccountSlices — where the account statements are cut

CREATE USER, DROP USER, REVOKE and SHOW GRANTS cut names out of the statement
text at byte offsets that were found in its upper-cased copy, whose characters
may have other lengths, and behind quotes that may be missing. GRANT has slices
of the same kind behind an `unwrap_err` that no text passes.

Main result: `accountSlices_iff`.
-/

set_option linter.unusedSectionVars false

namespace RunAlexDb

open Text Platform

section AccountSlices

variable [Platform]

-- ---------------------------------------------------------------------------
-- The statements
-- ---------------------------------------------------------------------------

inductive AccountVerb
  | createUser | dropUser | grant | revoke | showGrants
deriving DecidableEq, Repr

/-- What ends the reading of a statement text: a slice out of range or inside a
character, or an `unwrap_err` of a value. -/
inductive Stop
  | slice
  | unwrapErr
deriving DecidableEq, Repr

/-- Everything that panics in `r` is a slice. -/
def slicing {α : Type} : Rust α → Except Stop Unit
  | .ok _ => .ok ()
  | .error _ => .error .slice

namespace AccountVerb

def run (sql : Str) : AccountVerb → EngineM QueryResult
  | createUser => execCreateUser sql
  | dropUser => execDropUser sql
  | grant => execGrant sql
  | revoke => execRevoke sql
  | showGrants => execShowGrants sql

/-- How the reading of the text ends. -/
def reads (sql : Str) : AccountVerb → Except Stop Unit
  | createUser => slicing (createUserArgs sql)
  | dropUser => slicing (dropUserArg sql)
  | grant => if (find (toUppercase sql) " TO ").isSome then .error .unwrapErr else .ok ()
  | revoke =>
    match find (toUppercase sql) " FROM " with
    | none => .ok ()
    | some fromPos => slicing (revokeArgs sql fromPos)
  | showGrants => slicing (showGrantsArg sql)

end AccountVerb

theorem slicing_ne_slice {α : Type} {r : Rust α} :
    slicing r ≠ .error .slice ↔ ∃ a, r = .ok a := by
  cases r with
  | ok a => exact iff_of_true nofun ⟨a, rfl⟩
  | error fault => exact iff_of_false (fun h => h rfl) nofun

/-- A statement panics exactly when the reading of its text does not come to
an end. -/
theorem exec_isError_iff (v : AccountVerb) (sql : Str) (e : Engine) :
    (∃ fault, ((v.run sql).exec e).1 = .error fault) ↔ ∃ stop, v.reads sql = .error stop := by
  have hArgs : ∀ {α : Type} (r : Rust α) (f : α → EngineM QueryResult),
      (∀ a, ∃ answer, ((f a).exec e).1 = .ok answer) →
        ((∃ fault, ((Prog.ofExcept r >>= f).exec e).1 = .error fault) ↔
          ∃ stop, slicing r = .error stop) := by
    intro α r f hRest
    rw [Prog.exec_bind, Prog.exec_ofExcept]
    cases r with
    | ok a =>
      obtain ⟨answer, hAnswer⟩ := hRest a
      have hEnds : ((f a).exec e).1 = .ok answer := hAnswer
      exact iff_of_false (fun ⟨fault, h⟩ => by cases hEnds.symm.trans h) nofun
    | error fault => exact iff_of_true ⟨fault, rfl⟩ ⟨_, rfl⟩
  unfold AccountVerb.run AccountVerb.reads
  cases v with
  | createUser => exact hArgs _ _ fun _ => ⟨_, rfl⟩
  | dropUser => exact hArgs _ _ fun _ => ⟨_, rfl⟩
  | grant =>
    dsimp only
    unfold execGrant
    cases find (toUppercase sql) " TO " with
    | none => exact iff_of_false nofun nofun
    | some _ => exact iff_of_true ⟨_, rfl⟩ ⟨_, rfl⟩
  | revoke =>
    dsimp only
    unfold execRevoke
    cases find (toUppercase sql) " FROM " with
    | none => exact iff_of_false nofun nofun
    | some fromPos =>
      refine hArgs _ _ fun a => ?_
      rw [Prog.exec_bind]
      exact ⟨_, congrArg Prod.fst (exec_bumpIfOk _ _)⟩
  | showGrants => exact hArgs _ _ fun _ => ⟨_, rfl⟩

-- ---------------------------------------------------------------------------
-- When the text can be cut
-- ---------------------------------------------------------------------------

/-- Where `word` stands in the upper-cased copy, the text itself can be cut `k`
bytes later. -/
def CutsBehind (word : Str) (k : Nat) (s : Str) : Prop :=
  ∀ p, find (toUppercase s) word = some p → IsBoundary s (p + k)

/-- The text behind a quote: the quote comes again, or the last character is
one byte long. -/
def QuoteFits (q : Char) (inner : Str) : Prop :=
  q ∈ inner ∨ ∃ body c, inner = body ++ [c] ∧ c.utf8Size = 1

/-- What follows the name of an account text. -/
def behindName : Str → Str
  | '\'' :: inner => ((splitOnce '\'' inner).map Prod.snd).getD []
  | '`' :: inner => ((splitOnce '`' inner).map Prod.snd).getD []
  | s => s.dropWhile fun c => !(c == '@' || isWhitespace c)

/-- What follows the host. -/
def behindHost (s : Str) : Str :=
  (trimStartMatches (fun c => c == '@' || c == '\'') (behindName s)).dropWhile
    fun c => !isWhitespace c

/-- `'name'@'host' [IDENTIFIED BY 'password']` can be cut into its parts. -/
structure AccountFits (s : Str) : Prop where
  quote : ∀ q inner, s = q :: inner → q = '\'' ∨ q = '`' → QuoteFits q inner
  password : CutsBehind "IDENTIFIED BY" 13 (behindHost s)

/-- REVOKE, the privileges, FROM and the account stand where the upper-cased
copy shows FROM. -/
def RevokeFits (sql : Str) : Prop :=
  ∀ p, find (toUppercase sql) " FROM " = some p →
    ∃ verb privs rest, sql = verb ++ (privs ++ rest) ∧ byteLen verb = 7 ∧
      byteLen verb + byteLen privs = p ∧ IsBoundary rest 6 ∧ CutsBehind " ON " 4 (trim privs)

/-- The text behind CREATE. -/
def behindVerb (sql : Str) : Str := trim (trimStartMatches (fun c => !isWhitespace c) sql)

def AccountVerb.Fits (sql : Str) : AccountVerb → Prop
  | createUser =>
    if startsWith (toUppercase (behindVerb sql)) "USER" then
      ∃ word rest, behindVerb sql = word ++ rest ∧ byteLen word = 4 ∧ AccountFits (trim rest)
    else AccountFits (trim (behindVerb sql))
  | dropUser => IsBoundary sql 9
  | grant => True
  | revoke => RevokeFits sql
  | showGrants => CutsBehind " FOR " 5 sql

-- ---------------------------------------------------------------------------
-- One cut after the other
-- ---------------------------------------------------------------------------

theorem orPanic_eq_ok {α : Type} {o : Option α} {a : α} : orPanic o = .ok a ↔ o = some a := by
  cases o with
  | none => exact iff_of_false nofun nofun
  | some b =>
    constructor
    · intro h
      rw [Except.ok.inj h]
    · rintro ⟨⟩
      rfl

theorem ok_orPanic_iff {α β : Type} {o : Option α} {f : α → Rust β} :
    (∃ b, (orPanic o >>= f) = .ok b) ↔ ∃ a, o = some a ∧ ∃ b, f a = .ok b := by
  cases o with
  | none => exact iff_of_false nofun nofun
  | some a => exact ⟨fun h => ⟨a, rfl, h⟩, fun ⟨_, hSome, h⟩ => Option.some.inj hSome ▸ h⟩

/-- A cut, and what is done with the text behind it. -/
theorem ok_cut_iff {α : Type} {s : Str} {n : Nat} {f : Str → Rust α} :
    (∃ a, (orPanic (sliceFrom s n) >>= f) = .ok a) ↔
      ∃ x r, s = x ++ r ∧ byteLen x = n ∧ ∃ a, f r = .ok a := by
  rw [ok_orPanic_iff]
  constructor
  · rintro ⟨r, hCut, h⟩
    obtain ⟨x, hText, hLen⟩ := sliceFrom_eq_some.1 hCut
    exact ⟨x, r, hText, hLen, h⟩
  · rintro ⟨x, r, hText, hLen, h⟩
    exact ⟨r, sliceFrom_eq_some.2 ⟨x, hText, hLen⟩, h⟩

/-- A byte is a character of its own. -/
theorem eq_singleton_of_byteLen {b : Str} (h : byteLen b = 1) : ∃ c, b = [c] ∧ c.utf8Size = 1 := by
  cases b with
  | nil => cases h
  | cons c b =>
    have hSize := Char.utf8Size_pos c
    rw [byteLen_cons] at h
    have hRest : b = [] := byteLen_eq_zero.1 (by omega)
    exact ⟨c, by rw [hRest], by omega⟩

theorem slice_behind_quote {q : Char} (hSize : q.utf8Size = 1) {inner r : Str} {n : Nat} :
    slice (q :: inner) 1 (n + 1) = some r ↔ ∃ b, inner = r ++ b ∧ byteLen r = n := by
  rw [slice_eq_some]
  constructor
  · rintro ⟨a, b, hText, hOne, hLen⟩
    obtain ⟨c, rfl, -⟩ := eq_singleton_of_byteLen hOne
    exact ⟨b, (List.cons.inj hText).2, by omega⟩
  · rintro ⟨b, rfl, rfl⟩
    have hOne : byteLen [q] = 1 := by rw [byteLen_cons, hSize]; rfl
    exact ⟨[q], b, rfl, hOne, by omega⟩

theorem sliceFrom_quote {q : Char} (hSize : q.utf8Size = 1) (inner : Str) :
    sliceFrom (q :: inner) 1 = some inner :=
  sliceFrom_eq_some.2 ⟨[q], rfl, by rw [byteLen_cons, hSize]; rfl⟩

/-- The end of a quoted name, at the next quote or before the last byte. -/
def quoteEnd (q : Char) (inner : Str) : Nat :=
  ((splitOnce q inner).map fun p => byteLen p.1 + 1).getD (byteLen (q :: inner) - 1)

theorem quotedIdent_eq {q : Char} (hSize : q.utf8Size = 1) (inner : Str) :
    quotedIdent [q] (q :: inner) = (do
      return (← orPanic (slice (q :: inner) 1 (quoteEnd q inner)),
        ← orPanic (sliceFrom (q :: inner) (quoteEnd q inner + 1)))) := by
  have hEnd : ((find inner [q]).map (· + 1)).getD (byteLen (q :: inner) - 1) = quoteEnd q inner := by
    rw [find_char, Option.map_map]
    rfl
  rw [← hEnd]
  unfold quotedIdent
  rw [sliceFrom_quote hSize]
  rfl

/-- The name between two quotes, the text behind the second. -/
theorem quotedIdent_closed {q : Char} (hSize : q.utf8Size = 1) {inner a b : Str}
    (h : splitOnce q inner = some (a, b)) : quotedIdent [q] (q :: inner) = .ok (a, b) := by
  obtain ⟨hInner, -⟩ := splitOnce_eq_some.1 h
  have hName : slice (q :: inner) 1 (byteLen a + 1) = some a :=
    (slice_behind_quote hSize).2 ⟨q :: b, hInner, rfl⟩
  have hRest : sliceFrom (q :: inner) (byteLen a + 1 + 1) = some b := by
    refine sliceFrom_eq_some.2 ⟨q :: (a ++ [q]), by rw [hInner]; simp, ?_⟩
    rw [byteLen_cons, byteLen_append, byteLen_cons, hSize]
    show 1 + (byteLen a + (1 + 0)) = _
    omega
  have hEnd : quoteEnd q inner = byteLen a + 1 := by rw [quoteEnd, h]; rfl
  rw [quotedIdent_eq hSize, hEnd, hName, hRest]
  rfl

/-- Without the second quote the name is cut before the last byte. -/
theorem quotedIdent_open {q : Char} (hSize : q.utf8Size = 1) {inner : Str}
    (h : splitOnce q inner = none) (r : Str × Str) :
    quotedIdent [q] (q :: inner) = .ok r ↔
      r.2 = [] ∧ ∃ c, inner = r.1 ++ [c] ∧ c.utf8Size = 1 := by
  have hLen : byteLen (q :: inner) - 1 = byteLen inner := by
    rw [byteLen_cons, hSize]
    omega
  have hAll : sliceFrom (q :: inner) (byteLen inner + 1) = some [] := by
    refine sliceFrom_eq_some.2 ⟨q :: inner, (List.append_nil _).symm, ?_⟩
    rw [byteLen_cons, hSize]
    omega
  have hEnd : quoteEnd q inner = byteLen inner := by
    rw [quoteEnd, h]
    exact hLen
  rw [quotedIdent_eq hSize, hEnd, hAll]
  constructor
  · intro hOk
    cases hName : slice (q :: inner) 1 (byteLen inner) with
    | none =>
      rw [hName] at hOk
      cases hOk
    | some name =>
      rw [hName] at hOk
      obtain rfl := Except.ok.inj hOk
      obtain ⟨a, b, hText, hOne, hSum⟩ := slice_eq_some.1 hName
      obtain ⟨c, rfl, -⟩ := eq_singleton_of_byteLen hOne
      have hInner : inner = name ++ b := (List.cons.inj hText).2
      have hLast : byteLen b = 1 := by
        have hBoth := congrArg byteLen hInner
        rw [byteLen_append] at hBoth
        omega
      obtain ⟨last, rfl, hLast⟩ := eq_singleton_of_byteLen hLast
      exact ⟨rfl, last, hInner, hLast⟩
  · rintro ⟨hRest, c, hInner, hOne⟩
    have hName : slice (q :: inner) 1 (byteLen inner) = some r.1 := by
      have hLast : byteLen [c] = 1 := by rw [byteLen_cons, hOne]; rfl
      have hBoth := congrArg byteLen hInner
      rw [byteLen_append, hLast] at hBoth
      rw [hBoth]
      exact (slice_behind_quote hSize).2 ⟨[c], hInner, rfl⟩
    rw [hName]
    exact congrArg Except.ok (Prod.ext rfl hRest.symm)

theorem quotedIdent_ok_iff {q : Char} (hSize : q.utf8Size = 1) (inner : Str) :
    (∃ r, quotedIdent [q] (q :: inner) = .ok r) ↔ QuoteFits q inner := by
  cases h : splitOnce q inner with
  | none =>
    have hNot := splitOnce_isNone.1 h
    constructor
    · rintro ⟨r, hOk⟩
      obtain ⟨-, c, hInner, hOne⟩ := (quotedIdent_open hSize h r).1 hOk
      exact .inr ⟨r.1, c, hInner, hOne⟩
    · rintro (hIn | ⟨body, c, hInner, hOne⟩)
      · exact absurd hIn hNot
      · exact ⟨(body, []), (quotedIdent_open hSize h _).2 ⟨rfl, c, hInner, hOne⟩⟩
  | some p =>
    obtain ⟨hInner, -⟩ := splitOnce_eq_some.1 h
    refine iff_of_true ⟨p, quotedIdent_closed hSize h⟩ (.inl ?_)
    rw [hInner]
    exact List.mem_append_right _ (List.mem_cons_self ..)

theorem quotedIdent_rest {q : Char} (hSize : q.utf8Size = 1) {inner : Str} {r : Str × Str}
    (hOk : quotedIdent [q] (q :: inner) = .ok r) :
    r.2 = ((splitOnce q inner).map Prod.snd).getD [] := by
  cases h : splitOnce q inner with
  | none => exact ((quotedIdent_open hSize h r).1 hOk).1
  | some p =>
    rw [quotedIdent_closed hSize h] at hOk
    obtain rfl := Except.ok.inj hOk
    rfl

/-- The password is cut out of any text: its quote is looked for behind itself. -/
theorem password_ok (pw : Str) :
    ∃ r, (if startsWith pw "'" then do
        let inner ← orPanic (sliceFrom pw 1)
        orPanic (slice pw 1 ((find inner "'").getD (byteLen pw - 1) + 1))
      else return (splitWhitespace pw).headD [] : Rust Str) = .ok r := by
  by_cases hStart : startsWith pw "'" = true
  · obtain ⟨inner, rfl⟩ := List.isPrefixOf_iff_prefix.1 hStart
    rw [if_pos hStart]
    show ∃ r, (do
      let inner' ← orPanic (sliceFrom ('\'' :: inner) 1)
      orPanic (slice ('\'' :: inner) 1
        ((find inner' ['\'']).getD (byteLen ('\'' :: inner) - 1) + 1)) : Rust Str) = .ok r
    rw [sliceFrom_quote rfl]
    show ∃ r, orPanic (slice ('\'' :: inner) 1
      ((find inner ['\'']).getD (byteLen ('\'' :: inner) - 1) + 1)) = .ok r
    rw [find_char]
    cases h : splitOnce '\'' inner with
    | none =>
      refine ⟨inner, orPanic_eq_ok.2 ((slice_behind_quote rfl).2 ⟨[], by simp, ?_⟩)⟩
      show byteLen inner = byteLen ('\'' :: inner) - 1
      rw [byteLen_cons]
      exact (Nat.add_sub_cancel_left 1 _).symm
    | some p =>
      obtain ⟨hInner, -⟩ := splitOnce_eq_some.1 h
      exact ⟨p.1, orPanic_eq_ok.2 ((slice_behind_quote rfl).2 ⟨_, hInner, rfl⟩)⟩
  · rw [if_neg hStart]
    exact ⟨_, rfl⟩

theorem identifiedBy_ok_iff (rest : Str) :
    (∃ pw, identifiedBy rest = .ok pw) ↔ CutsBehind "IDENTIFIED BY" 13 rest := by
  unfold identifiedBy CutsBehind
  cases find (toUppercase rest) "IDENTIFIED BY" with
  | none => exact iff_of_true ⟨_, rfl⟩ nofun
  | some pos =>
    dsimp only
    rw [ok_cut_iff]
    constructor
    · rintro ⟨x, r, hText, hLen, -⟩ p hPos
      obtain rfl := Option.some.inj hPos
      exact ⟨x, r, hText, hLen⟩
    · intro h
      obtain ⟨x, r, hText, hLen⟩ := h pos rfl
      exact ⟨x, r, hText, hLen, password_ok (trim r)⟩

theorem startsWith_quote {q : Char} {s : Str} :
    startsWith s [q] = true ↔ ∃ inner, s = q :: inner := by
  unfold startsWith
  rw [List.isPrefixOf_iff_prefix]
  exact ⟨fun ⟨inner, h⟩ => ⟨inner, h.symm⟩, fun ⟨inner, h⟩ => ⟨inner, h.symm⟩⟩

/-- The text of an account, trimmed. -/
def parseTrimmed (s : Str) : Rust (Str × Str) := do
  let (username, rest) ←
    if startsWith s "'" then quotedIdent "'" s
    else if startsWith s "`" then quotedIdent "`" s
    else
      let stop (c : Char) : Bool := c == '@' || isWhitespace c
      pure (before stop s, s.dropWhile fun c => !stop c)
  let rest := trimStartMatches (fun c => c == '@' || c == '\'') rest
  let password ← identifiedBy (rest.dropWhile fun c => !isWhitespace c)
  return (username, password)

/-- An account text is read when its name is, and its password behind it. -/
theorem ok_name_password {r : Rust (Str × Str)} {rest : Str}
    (hRest : ∀ p, r = .ok p → p.2 = rest) :
    (∃ a, (do
      let (username, rest) ← r
      let rest := trimStartMatches (fun c => c == '@' || c == '\'') rest
      let password ← identifiedBy (rest.dropWhile fun c => !isWhitespace c)
      return (username, password) : Rust (Str × Str)) = .ok a) ↔
      (∃ p, r = .ok p) ∧ CutsBehind "IDENTIFIED BY" 13
        ((trimStartMatches (fun c => c == '@' || c == '\'') rest).dropWhile fun c => !isWhitespace c) := by
  cases r with
  | error fault => exact iff_of_false nofun fun h => nomatch h.1
  | ok p =>
    obtain rfl := hRest p rfl
    rw [← identifiedBy_ok_iff]
    refine Iff.trans ?_ (and_iff_right ⟨p, rfl⟩).symm
    show (∃ a, (identifiedBy ((trimStartMatches (fun c => c == '@' || c == '\'') p.2).dropWhile
      fun c => !isWhitespace c) >>= fun password => pure (p.1, password) : Rust (Str × Str)) = .ok a) ↔ _
    cases identifiedBy ((trimStartMatches (fun c => c == '@' || c == '\'') p.2).dropWhile
      fun c => !isWhitespace c) with
    | error fault => exact iff_of_false nofun nofun
    | ok password => exact iff_of_true ⟨_, rfl⟩ ⟨_, rfl⟩

theorem parse_ok_iff (s : Str) :
    (∃ r, parseUserIdentWithPassword s = .ok r) ↔ AccountFits (trim s) := by
  show (∃ r, parseTrimmed (trim s) = .ok r) ↔ _
  generalize trim s = s
  unfold parseTrimmed
  by_cases hQuote : startsWith s "'" = true
  · obtain ⟨inner, rfl⟩ : ∃ inner, s = '\'' :: inner := startsWith_quote.1 hQuote
    rw [if_pos hQuote]
    refine (ok_name_password fun p => @quotedIdent_rest _ '\'' rfl inner p).trans ?_
    rw [quotedIdent_ok_iff rfl]
    constructor
    · rintro ⟨hFits, hPassword⟩
      refine ⟨fun q inner' hText hq => ?_, hPassword⟩
      obtain ⟨rfl, rfl⟩ := List.cons.inj hText
      exact hFits
    · exact fun h => ⟨h.quote _ _ rfl (.inl rfl), h.password⟩
  · rw [if_neg hQuote]
    by_cases hTick : startsWith s "`" = true
    · obtain ⟨inner, rfl⟩ : ∃ inner, s = '`' :: inner := startsWith_quote.1 hTick
      rw [if_pos hTick]
      refine (ok_name_password fun p => @quotedIdent_rest _ '`' rfl inner p).trans ?_
      rw [quotedIdent_ok_iff rfl]
      constructor
      · rintro ⟨hFits, hPassword⟩
        refine ⟨fun q inner' hText hq => ?_, hPassword⟩
        obtain ⟨rfl, rfl⟩ := List.cons.inj hText
        exact hFits
      · exact fun h => ⟨h.quote _ _ rfl (.inr rfl), h.password⟩
    · rw [if_neg hTick]
      have hBare : ∀ q inner, s = q :: inner → ¬(q = '\'' ∨ q = '`') := by
        rintro q inner rfl (rfl | rfl)
        · exact hQuote (startsWith_quote.2 ⟨inner, rfl⟩)
        · exact hTick (startsWith_quote.2 ⟨inner, rfl⟩)
      have hBehind : behindName s = s.dropWhile fun c => !(c == '@' || isWhitespace c) := by
        unfold behindName
        split
        · exact absurd (.inl rfl) (hBare _ _ rfl)
        · exact absurd (.inr rfl) (hBare _ _ rfl)
        · rfl
      refine (@ok_name_password _ _ (behindName s) fun p hp => ?_).trans ?_
      · rw [← Except.ok.inj hp, hBehind]
      constructor
      · rintro ⟨-, hPassword⟩
        exact ⟨fun q inner hText hq => absurd hq (hBare q inner hText), hPassword⟩
      · exact fun h => ⟨⟨_, rfl⟩, h.password⟩

-- ---------------------------------------------------------------------------
-- The statements
-- ---------------------------------------------------------------------------

theorem trim_trimStart (s : Str) : trim (trimStart s) = trim s := by
  unfold trim trimStart trimStartMatches
  rw [List.dropWhile_idempotent]

theorem createUser_ok_iff (sql : Str) :
    (∃ r, createUserArgs sql = .ok r) ↔ AccountVerb.createUser.Fits sql := by
  unfold createUserArgs AccountVerb.Fits behindVerb
  dsimp only
  generalize trim (trimStartMatches (fun c => !isWhitespace c) sql) = rest
  by_cases hWord : startsWith (toUppercase rest) "USER" = true
  · rw [if_pos hWord, if_pos hWord, ok_cut_iff]
    simp only [pure_bind, parse_ok_iff, trim_trimStart]
  · rw [if_neg hWord, if_neg hWord]
    exact parse_ok_iff rest

theorem dropUser_ok_iff (sql : Str) :
    (∃ r, dropUserArg sql = .ok r) ↔ AccountVerb.dropUser.Fits sql := by
  unfold dropUserArg AccountVerb.Fits
  rw [ok_cut_iff]
  exact ⟨fun ⟨x, r, hText, hLen, _⟩ => ⟨x, r, hText, hLen⟩,
    fun ⟨x, r, hText, hLen⟩ => ⟨x, r, hText, hLen, _, rfl⟩⟩

/-- The level of a REVOKE is cut out behind ON. -/
theorem level_ok_iff (username privsOn : Str) :
    (∃ r, (match find (toUppercase privsOn) " ON " with
      | none => return (username, none)
      | some onPos => do
        let onPart := trim (← orPanic (sliceFrom privsOn (onPos + 4)))
        let db := trimMatches '\'' (trimMatches '`' (trim ((split '.' onPart).headD "*")))
        return (username, if db = "*" then none else some db) : Rust (Str × Option Str)) = .ok r) ↔
      CutsBehind " ON " 4 privsOn := by
  unfold CutsBehind
  cases find (toUppercase privsOn) " ON " with
  | none => exact iff_of_true ⟨_, rfl⟩ nofun
  | some onPos =>
    dsimp only
    rw [ok_cut_iff]
    constructor
    · rintro ⟨x, r, hText, hLen, -⟩ p hPos
      obtain rfl := Option.some.inj hPos
      exact ⟨x, r, hText, hLen⟩
    · intro h
      obtain ⟨x, r, hText, hLen⟩ := h onPos rfl
      exact ⟨x, r, hText, hLen, _, rfl⟩

theorem revokeArgs_ok_iff (sql : Str) (p : Nat) :
    (∃ r, revokeArgs sql p = .ok r) ↔
      ∃ verb privs rest, sql = verb ++ (privs ++ rest) ∧ byteLen verb = 7 ∧
        byteLen verb + byteLen privs = p ∧ IsBoundary rest 6 ∧ CutsBehind " ON " 4 (trim privs) := by
  unfold revokeArgs
  rw [ok_cut_iff]
  simp only [ok_orPanic_iff]
  constructor
  · rintro ⟨x, account, hCut, hLen, privs, hPrivs, hOn⟩
    obtain ⟨verb, rest, hText, hVerb, hFrom⟩ := slice_eq_some.1 hPrivs
    refine ⟨verb, privs, rest, hText, hVerb, hFrom, ?_, (level_ok_iff _ _).1 hOn⟩
    have hBound : IsBoundary sql (p + 6) := ⟨x, account, hCut, hLen⟩
    rw [hText, ← List.append_assoc, ← hFrom, ← byteLen_append] at hBound
    exact (isBoundary_append_iff ..).1 hBound
  · rintro ⟨verb, privs, rest, hText, hVerb, hFrom, hRest, hOn⟩
    have hBound : IsBoundary sql (p + 6) := by
      rw [hText, ← List.append_assoc, ← hFrom, ← byteLen_append]
      exact (isBoundary_append_iff ..).2 hRest
    obtain ⟨x, account, hCut, hLen⟩ := hBound
    exact ⟨x, account, hCut, hLen, privs, slice_eq_some.2 ⟨verb, rest, hText, hVerb, hFrom⟩,
      (level_ok_iff _ _).2 hOn⟩

theorem showGrants_ok_iff (sql : Str) :
    (∃ r, showGrantsArg sql = .ok r) ↔ AccountVerb.showGrants.Fits sql := by
  unfold showGrantsArg AccountVerb.Fits CutsBehind
  cases find (toUppercase sql) " FOR " with
  | none => exact iff_of_true ⟨_, rfl⟩ nofun
  | some pos =>
    dsimp only
    rw [ok_cut_iff]
    constructor
    · rintro ⟨x, r, hText, hLen, -⟩ p hPos
      obtain rfl := Option.some.inj hPos
      exact ⟨x, r, hText, hLen⟩
    · intro h
      obtain ⟨x, r, hText, hLen⟩ := h pos rfl
      exact ⟨x, r, hText, hLen, _, rfl⟩

/-- An account statement slices its text out of range, or inside a character,
exactly when it does not fit the cuts. -/
theorem accountSlices_iff (v : AccountVerb) (sql : Str) :
    v.reads sql ≠ .error .slice ↔ v.Fits sql := by
  cases v with
  | createUser => exact slicing_ne_slice.trans (createUser_ok_iff sql)
  | dropUser => exact slicing_ne_slice.trans (dropUser_ok_iff sql)
  | grant =>
    refine iff_of_true ?_ trivial
    unfold AccountVerb.reads
    dsimp only
    split_ifs <;> nofun
  | revoke =>
    unfold AccountVerb.reads AccountVerb.Fits RevokeFits
    dsimp only
    cases find (toUppercase sql) " FROM " with
    | none => exact iff_of_true nofun nofun
    | some fromPos =>
      dsimp only
      rw [slicing_ne_slice, revokeArgs_ok_iff]
      constructor
      · intro h p hPos
        rw [← Option.some.inj hPos]
        exact h
      · exact fun h => h fromPos rfl
  | showGrants => exact slicing_ne_slice.trans (showGrants_ok_iff sql)

-- ---------------------------------------------------------------------------
-- ASCII texts
-- ---------------------------------------------------------------------------

theorem toUpper_ascii {c : Char} (h : c.toNat < 128) : c.toUpper.toNat < 128 := by
  have hTable : ∀ n : Fin 128, (Char.ofNat n).toUpper.toNat < 128 := by decide +kernel
  have hSelf := hTable ⟨c.toNat, h⟩
  rw [Char.ofNat_toNat] at hSelf
  exact hSelf

/-- A text of ASCII characters can be cut behind every word it shows. -/
theorem cutsBehind_ascii (hUpper : UpperAscii) {s : Str} (hAscii : ∀ c ∈ s, c.toNat < 128)
    {word : Str} : CutsBehind word (byteLen word) s := by
  intro p hFind
  have hLe := le_of_find hFind
  have hMap : ∀ c ∈ s.map Char.toUpper, c.toNat < 128 := by
    intro c hc
    obtain ⟨d, hd, rfl⟩ := List.mem_map.1 hc
    exact toUpper_ascii (hAscii d hd)
  rw [hUpper s hAscii, byteLen_of_ascii hMap, List.length_map] at hLe
  exact isBoundary_of_ascii hAscii hLe

end AccountSlices

section Unfit

local instance unfitPlatform : Platform := tablePlatform []

/-- `REVOKE FROM u` has no privileges: the cut from byte 7 to byte 6 panics. -/
theorem not_accountSlices : ¬∀ (v : AccountVerb) (sql : Str), v.reads sql ≠ .error .slice := by
  intro h
  exact h .revoke "REVOKE FROM u" (by decide +kernel)

end Unfit

end RunAlexDb
