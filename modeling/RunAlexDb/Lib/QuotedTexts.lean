import RunAlexDb.Lib.Text

/-!
# QuotedTexts — literals between quotes, with an escape character

In a literal the escape character quotes the next character, two quotes stand for one,
and any other quote ends the literal. A text whose quotes and escape characters are all
escaped is read back as it was, up to the closing quote, in front of anything but another
quote. A text is scanned as code with literals in it.

Main results: `readQuoted_escape`, `Scans.unique`.
-/

namespace QuotedTexts

open Text

variable (quote esc : Char)

/-- The literal behind an opening quote: what it denotes, and the text behind its end. -/
def readQuoted : Str → Option (Str × Str)
  | [] => none
  | [c] => if c = quote ∧ c ≠ esc then some ([], []) else none
  | c :: d :: s =>
    if c = esc then (readQuoted s).map fun p => (d :: p.1, p.2)
    else if c = quote then
      if d = quote then (readQuoted s).map fun p => (quote :: p.1, p.2) else some ([], d :: s)
    else (readQuoted (d :: s)).map fun p => (c :: p.1, p.2)

/-- Quotes and escape characters escaped. -/
def escapeChar (c : Char) : Str := if c = esc ∨ c = quote then [esc, c] else [c]

def escape (s : Str) : Str := s.flatMap (escapeChar quote esc)

/-- A text is code with the literals `ls` in it. -/
inductive Scans : Str → List Str → Prop
  | code {s : Str} : quote ∉ s → Scans s []
  | literal {s body l rest : Str} {ls : List Str} : quote ∉ s →
      readQuoted quote esc body = some (l, rest) → Scans rest ls →
        Scans (s ++ quote :: body) (l :: ls)

variable {quote esc}

-- ---------------------------------------------------------------------------
-- Escaped texts
-- ---------------------------------------------------------------------------

theorem escape_cons (c : Char) (s : Str) :
    escape quote esc (c :: s) = escapeChar quote esc c ++ escape quote esc s :=
  List.flatMap_cons

theorem escape_of_plain {s : Str} (h : ∀ c ∈ s, c ≠ esc ∧ c ≠ quote) : escape quote esc s = s := by
  induction s with
  | nil => rfl
  | cons c s ih =>
    obtain ⟨hEsc, hQuote⟩ := h c (List.mem_cons_self ..)
    have hTail := ih fun d hd => h d (List.mem_cons_of_mem _ hd)
    rw [escape_cons, hTail, escapeChar, if_neg (not_or.2 ⟨hEsc, hQuote⟩)]
    rfl

theorem readQuoted_escaped (c : Char) (s : Str) :
    readQuoted quote esc (esc :: c :: s) = (readQuoted quote esc s).map fun p => (c :: p.1, p.2) := by
  rw [readQuoted, if_pos rfl]

theorem readQuoted_plain {c : Char} (hEsc : c ≠ esc) (hQuote : c ≠ quote) (s : Str) :
    readQuoted quote esc (c :: s) = (readQuoted quote esc s).map fun p => (c :: p.1, p.2) := by
  cases s with
  | nil =>
    rw [readQuoted, readQuoted, if_neg fun h => hQuote h.1]
    rfl
  | cons d s => rw [readQuoted, if_neg hEsc, if_neg hQuote]

/-- A quote ends the literal in front of anything but another one. -/
theorem readQuoted_end (hDiffer : quote ≠ esc) {rest : Str} (h : rest.head? ≠ some quote) :
    readQuoted quote esc (quote :: rest) = some ([], rest) := by
  cases rest with
  | nil => rw [readQuoted, if_pos ⟨rfl, hDiffer⟩]
  | cons d s =>
    have hNext : d ≠ quote := fun hd => h (congrArg some hd)
    rw [readQuoted, if_neg hDiffer, if_pos rfl, if_neg hNext]

/-- **Escaped texts.** They are read back, up to the closing quote. -/
theorem readQuoted_escape (hDiffer : quote ≠ esc) (s : Str) {rest : Str}
    (h : rest.head? ≠ some quote) :
    readQuoted quote esc (escape quote esc s ++ quote :: rest) = some (s, rest) := by
  induction s with
  | nil => exact readQuoted_end hDiffer h
  | cons c s ih =>
    rw [escape_cons, List.append_assoc, escapeChar]
    split
    · show readQuoted quote esc (esc :: c :: (escape quote esc s ++ quote :: rest)) = _
      rw [readQuoted_escaped, ih]
      rfl
    · rename_i hPlain
      obtain ⟨hEsc, hQuote⟩ := not_or.1 hPlain
      show readQuoted quote esc (c :: (escape quote esc s ++ quote :: rest)) = _
      rw [readQuoted_plain hEsc hQuote, ih]
      rfl

-- ---------------------------------------------------------------------------
-- Scanned texts
-- ---------------------------------------------------------------------------

/-- Code in front of a text. -/
theorem Scans.prepend {x s : Str} {ls : List Str} (hx : quote ∉ x) (h : Scans quote esc s ls) :
    Scans quote esc (x ++ s) ls := by
  cases h with
  | code hs =>
    refine .code fun hMem => ?_
    rcases List.mem_append.1 hMem with hMem | hMem
    · exact hx hMem
    · exact hs hMem
  | @literal s body l rest ls hs hRead hRest =>
    rw [← List.append_assoc]
    refine .literal (fun hMem => ?_) hRead hRest
    rcases List.mem_append.1 hMem with hMem | hMem
    · exact hx hMem
    · exact hs hMem

/-- An escaped text between quotes in front of a text. -/
theorem Scans.quoted (hDiffer : quote ≠ esc) {s rest : Str} {ls : List Str}
    (h : rest.head? ≠ some quote) (hRest : Scans quote esc rest ls) :
    Scans quote esc (quote :: (escape quote esc s ++ quote :: rest)) (s :: ls) :=
  .literal (s := []) List.not_mem_nil (readQuoted_escape hDiffer s h) hRest

/-- A text is scanned in one way. -/
theorem Scans.unique {s : Str} {ls ls' : List Str} (h : Scans quote esc s ls)
    (h' : Scans quote esc s ls') : ls = ls' := by
  induction h generalizing ls' with
  | code hs =>
    cases h' with
    | code => rfl
    | literal => exact absurd (List.mem_append_right _ (List.mem_cons_self ..)) hs
  | @literal s body l rest ls hs hRead hRest ih =>
    generalize hText : s ++ quote :: body = text at h'
    cases h' with
    | code hNone => exact absurd (hText ▸ List.mem_append_right _ (List.mem_cons_self ..)) hNone
    | @literal s' body' l' rest' ls' hs' hRead' hRest' =>
      have hCut := congrArg (splitOnce quote) hText
      rw [splitOnce_append hs, splitOnce_append hs'] at hCut
      obtain ⟨-, rfl⟩ := Prod.mk.inj (Option.some.inj hCut)
      rw [hRead] at hRead'
      obtain ⟨rfl, rfl⟩ := Prod.mk.inj (Option.some.inj hRead')
      rw [ih hRest']

end QuotedTexts
