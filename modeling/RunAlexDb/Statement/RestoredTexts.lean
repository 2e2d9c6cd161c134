import RunAlexDb.Lib.Literals
import RunAlexDb.Model.Dump

/-!
# RestoredTexts — the statements that a restore takes out of a dump

`restore_sql` goes through the lines of a dump: it passes over blank ones and those
that start with `--`, and a line that ends with `;` ends a statement. What it hands
over are texts, made of the lines trimmed and put together with blanks. For a dump of
statements that each end with `;` these texts are the statements, literals unchanged,
exactly when no literal goes over the end of a line, no line of a statement starts
with `--` and none but its last ends with `;`.

Main results: `restoreSql_eq` and `readsAs_iff`.
-/

set_option linter.unusedSectionVars false

namespace RunAlexDb

open Text Platform Literals

-- ---------------------------------------------------------------------------
-- Line by line
-- ---------------------------------------------------------------------------

/-- A line that starts as a comment does. -/
def isComment (l : Str) : Bool := startsWith (trim l) "--"

/-- A line that ends as a statement does. -/
def isEnd (l : Str) : Bool := endsWith (trim l) ";"

/-- The texts handed over so far and the lines of the next one, with one more line. -/
def feed (st : List Str × Str) (l : Str) : List Str × Str :=
  if isComment l || (trim l).isEmpty then st
  else if isEnd l then (st.1 ++ [trim (st.2 ++ trim l ++ " ")], [])
  else (st.1, st.2 ++ trim l ++ " ")

/-- The texts that `restore_sql` hands over. -/
def restoredTexts (dump : Str) : List Str := ((lines dump).foldl feed ([], [])).1

theorem feed_skipped {l : Str} (h : (isComment l || (trim l).isEmpty) = true) (st : List Str × Str) :
    feed st l = st := if_pos h

theorem feed_end {l : Str} (h : ¬ (isComment l || (trim l).isEmpty) = true) (hEnd : isEnd l = true)
    (st : List Str × Str) : feed st l = (st.1 ++ [trim (st.2 ++ trim l ++ " ")], []) := by
  unfold feed
  rw [if_neg h, if_pos hEnd]

theorem feed_inside {l : Str} (h : ¬ (isComment l || (trim l).isEmpty) = true) (hEnd : ¬ isEnd l = true)
    (st : List Str × Str) : feed st l = (st.1, st.2 ++ trim l ++ " ") := by
  unfold feed
  rw [if_neg h, if_neg hEnd]

theorem feed_append (done : List Str) (batch l : Str) :
    feed (done, batch) l = (done ++ (feed ([], batch) l).1, (feed ([], batch) l).2) := by
  unfold feed
  split
  · rw [List.append_nil]
  · split
    · rfl
    · rw [List.append_nil]

theorem foldl_feed_append (ls : List Str) (done : List Str) (batch : Str) :
    ls.foldl feed (done, batch) =
      (done ++ (ls.foldl feed ([], batch)).1, (ls.foldl feed ([], batch)).2) := by
  induction ls generalizing done batch with
  | nil => rw [List.foldl_nil, List.foldl_nil, List.append_nil]
  | cons l ls ih =>
    rw [List.foldl_cons, List.foldl_cons, feed_append, ih, ih (feed ([], batch) l).1, List.append_assoc]

section Restore

variable [Platform]

/-- The texts one after the other, with the database that USE selects. -/
def restoreAll (now : Nat) : Option Str → List Str → EngineM Unit
  | _, [] => pure ()
  | currentDb, stmt :: rest => do
    let currentDb ← restoreStatement now currentDb stmt
    restoreAll now currentDb rest

theorem restoreLines_eq (now : Nat) (currentDb : Option Str) (batch : Str) (ls : List Str) :
    restoreLines now currentDb batch ls = restoreAll now currentDb (ls.foldl feed ([], batch)).1 := by
  induction ls generalizing currentDb batch with
  | nil => rfl
  | cons l ls ih =>
    rw [restoreLines, List.foldl_cons]
    by_cases hSkip : (isComment l || (trim l).isEmpty) = true
    · rw [feed_skipped hSkip]
      exact (if_pos hSkip).trans (ih ..)
    · by_cases hEnd : isEnd l = true
      · rw [feed_end hSkip hEnd, foldl_feed_append]
        refine (if_neg hSkip).trans ((if_pos hEnd).trans ?_)
        exact congrArg _ (funext fun db => ih db [])
      · rw [feed_inside hSkip hEnd]
        exact (if_neg hSkip).trans ((if_neg hEnd).trans (ih ..))

/-- What `restore_sql` does is done by the texts. -/
theorem restoreSql_eq (now : Nat) (dump : Str) :
    restoreSql now dump = restoreAll now none (restoredTexts dump) := restoreLines_eq ..

end Restore

-- ---------------------------------------------------------------------------
-- Lines by line feeds
-- ---------------------------------------------------------------------------

theorem trim_append_blank {c : Char} (h : isWhitespace c = true) (l : Str) : trim (l ++ [c]) = trim l := by
  have hEnd : ∀ s : Str, trimEnd (s ++ [c]) = trimEnd s := by
    intro s
    unfold trimEnd trimEndMatches
    rw [List.reverse_append, List.reverse_singleton, List.singleton_append, List.dropWhile_cons, if_pos h]
  unfold trim trimStart trimStartMatches
  rw [List.dropWhile_append]
  split
  · rename_i hEmpty
    rw [List.isEmpty_iff.1 hEmpty, List.dropWhile_cons, if_pos h]
    rfl
  · exact hEnd _

theorem feed_of_trim {l l' : Str} (h : trim l = trim l') (st : List Str × Str) : feed st l = feed st l' := by
  unfold feed isComment isEnd
  rw [h]

theorem feed_blank {l : Str} (h : trim l = []) (st : List Str × Str) : feed st l = st :=
  feed_skipped (by rw [h, List.isEmpty_nil, Bool.or_true]) st

/-- A carriage return at the end of a line and an empty last line make no difference. -/
theorem foldl_feed_lines (st : List Str × Str) (s : Str) :
    (lines s).foldl feed st = (split '\n' s).foldl feed st := by
  have hReturn : ∀ (ls : List Str) (st : List Str × Str),
      (ls.map fun l => if l.getLast? = some '\r' then l.dropLast else l).foldl feed st =
        ls.foldl feed st := by
    intro ls
    induction ls with
    | nil => exact fun _ => rfl
    | cons l ls ih =>
      intro st
      rw [List.map_cons, List.foldl_cons, List.foldl_cons, ih]
      congr 1
      split
      · rename_i hLast
        have hBlank := trim_append_blank (c := '\r') (by decide) l.dropLast
        rw [List.dropLast_append_getLast? _ hLast] at hBlank
        exact feed_of_trim hBlank.symm st
      · rfl
  unfold lines split
  dsimp only
  rw [hReturn]
  split
  · rename_i hLast
    conv_rhs => rw [← List.dropLast_append_getLast? _ hLast]
    rw [List.foldl_append]
    exact (feed_blank (l := []) rfl _).symm
  · rfl

/-- A text, line by line. -/
def feedText (st : List Str × Str) (s : Str) : List Str × Str := (split '\n' s).foldl feed st

theorem feedText_append (st : List Str × Str) (s t : Str) :
    feedText st (s ++ '\n' :: t) = feedText (feedText st s) t := by
  unfold feedText split
  rw [List.splitOnP_append_cons s t rfl, List.foldl_append]

theorem restoredTexts_eq (dump : Str) : restoredTexts dump = (feedText ([], []) dump).1 := by
  unfold restoredTexts feedText
  rw [foldl_feed_lines]

-- ---------------------------------------------------------------------------
-- One statement
-- ---------------------------------------------------------------------------

/-- The text has the tokens of the statement, up to blanks outside its literals. -/
def ReadsAs (w : List Tok) (t : Str) : Prop := ∃ ts, text ts = t ∧ solid ts = solid w

/-- No line is passed over as a comment, and none but the last ends as a statement does. -/
structure OneStatement (s : Str) : Prop where
  noComment : ∀ l ∈ split '\n' s, isComment l = false
  noEnd : ∀ l ∈ (split '\n' s).dropLast, isEnd l = false

/-- The last line ends as a statement does. -/
def EndsStatement (s : Str) : Prop := ∃ init last, split '\n' s = init ++ [last] ∧ isEnd last = true

/-- The lines trimmed, a blank behind each. -/
def joinedLines (ls : List Str) : Str :=
  ls.flatMap fun l => if (trim l).isEmpty then [] else trim l ++ [' ']

theorem foldl_feed_inside {ls : List Str} (hComment : ∀ l ∈ ls, isComment l = false)
    (hEnd : ∀ l ∈ ls, isEnd l = false) (st : List Str × Str) :
    ls.foldl feed st = (st.1, st.2 ++ joinedLines ls) := by
  induction ls generalizing st with
  | nil =>
    show st = (st.1, st.2 ++ [])
    rw [List.append_nil]
  | cons l ls ih =>
    have hHere := hComment l (List.mem_cons_self ..)
    have hRest := ih (fun m hm => hComment m (List.mem_cons_of_mem l hm))
      fun m hm => hEnd m (List.mem_cons_of_mem l hm)
    have hCons : joinedLines (l :: ls) =
        (if (trim l).isEmpty then [] else trim l ++ [' ']) ++ joinedLines ls := List.flatMap_cons
    rw [List.foldl_cons, hRest, hCons]
    by_cases hBlank : (trim l).isEmpty = true
    · rw [feed_blank (List.isEmpty_iff.1 hBlank), if_pos hBlank, List.nil_append]
    · have hKept : ¬ (isComment l || (trim l).isEmpty) = true := by
        rw [hHere, Bool.false_or]
        exact hBlank
      rw [feed_inside hKept (by rw [hEnd l (List.mem_cons_self ..)]; exact Bool.false_ne_true),
        if_neg hBlank, List.append_assoc, List.append_assoc]
      rfl

theorem trim_ne_nil_of_isEnd {l : Str} (h : isEnd l = true) : ¬ (trim l).isEmpty = true := by
  intro hBlank
  unfold isEnd at h
  rw [List.isEmpty_iff.1 hBlank] at h
  cases h

/-- The lines of one statement make one text. -/
theorem feedText_one {s : Str} (hOne : OneStatement s) (hEnds : EndsStatement s) (done : List Str) :
    feedText (done, []) s = (done ++ [trim (joinedLines (split '\n' s))], []) := by
  obtain ⟨init, last, hLines, hLast⟩ := hEnds
  have hComment := hOne.noComment
  have hEnd := hOne.noEnd
  rw [hLines] at hComment hEnd
  rw [List.dropLast_concat] at hEnd
  have hBlank := trim_ne_nil_of_isEnd hLast
  have hKept : ¬ (isComment last || (trim last).isEmpty) = true := by
    rw [hComment last (List.mem_append_right _ (List.mem_singleton.2 rfl)), Bool.false_or]
    exact hBlank
  have hJoined : joinedLines (init ++ [last]) = joinedLines init ++ (trim last ++ [' ']) := by
    unfold joinedLines
    rw [List.flatMap_append, List.flatMap_singleton, if_neg hBlank]
  unfold feedText
  rw [hLines, List.foldl_append, foldl_feed_inside (fun l hl => hComment l (List.mem_append_left _ hl)) hEnd,
    List.foldl_cons, List.foldl_nil, feed_end hKept hLast, hJoined, List.nil_append, List.append_assoc]
  rfl

-- ---------------------------------------------------------------------------
-- Its tokens
-- ---------------------------------------------------------------------------

theorem text_eq_nil {ts : List Tok} (h : ∀ t ∈ ts, t.Sound) : text ts = [] ↔ ts = [] := by
  constructor
  · intro hText
    cases ts with
    | nil => rfl
    | cons t ts =>
      rw [text_cons] at hText
      have hNone := (List.append_eq_nil_iff.1 hText).1
      cases t with
      | code c => cases hNone
      | literal l => exact absurd hNone (h (.literal l) (List.mem_cons_self ..)).1
  · rintro rfl
    rfl

theorem sound_trimToks {ts : List Tok} (h : ∀ t ∈ ts, t.Sound) : ∀ t ∈ trimToks ts, t.Sound := by
  intro t ht
  have hStart := List.mem_reverse.1 ((List.dropWhile_sublist _).subset (List.mem_reverse.1 ht))
  exact sound_trimStart h t hStart

/-- The tokens of the lines trimmed, a blank behind each. -/
def joinedToks (ls : List (List Tok)) : List Tok :=
  ls.flatMap fun l => if (trimToks l).isEmpty then [] else trimToks l ++ [.code ' ']

theorem text_joinedToks {ls : List (List Tok)} (h : ∀ l ∈ ls, ∀ t ∈ l, t.Sound) :
    text (joinedToks ls) = joinedLines (ls.map text) := by
  induction ls with
  | nil => rfl
  | cons l ls ih =>
    have hHere := h l (List.mem_cons_self ..)
    have hRest := ih fun m hm => h m (List.mem_cons_of_mem l hm)
    have hTrim := text_trim hHere
    have hEmpty : (trimToks l).isEmpty = (trim (text l)).isEmpty := by
      rw [← hTrim, Bool.eq_iff_iff, List.isEmpty_iff, List.isEmpty_iff, text_eq_nil (sound_trimToks hHere)]
    unfold joinedToks joinedLines at hRest ⊢
    rw [List.flatMap_cons, text_append, hRest, List.map_cons, List.flatMap_cons, hEmpty]
    congr 1
    split
    · rfl
    · rw [text_append, hTrim]
      rfl

theorem solid_joinedToks (ls : List (List Tok)) : solid (joinedToks ls) = ls.flatMap solid := by
  induction ls with
  | nil => rfl
  | cons l ls ih =>
    unfold joinedToks at ih ⊢
    rw [List.flatMap_cons, solid_append, ih, List.flatMap_cons]
    congr 1
    split
    · rename_i hEmpty
      have hNil := List.isEmpty_iff.1 hEmpty
      rw [← solid_trimToks l, hNil]
    · rw [solid_append, solid_trimToks]
      exact List.append_nil _

/-- One statement is read as itself. -/
theorem readsAs_joined {w : List Tok} (h : ∀ t ∈ w, t.Sound) :
    ReadsAs w (trim (joinedLines (split '\n' (text w)))) := by
  have hLines : ∀ l ∈ linesToks w, ∀ t ∈ l, t.Sound := fun l hl t ht => h t (mem_of_mem_lines hl ht)
  have hJoined : ∀ t ∈ joinedToks (linesToks w), t.Sound := by
    intro t ht
    obtain ⟨l, hl, ht⟩ := List.mem_flatMap.1 ht
    split at ht
    · cases ht
    · rcases List.mem_append.1 ht with ht | ht
      · exact sound_trimToks (hLines l hl) t ht
      · rw [List.mem_singleton.1 ht]
        trivial
  refine ⟨trimToks (joinedToks (linesToks w)), ?_, ?_⟩
  · rw [text_trim hJoined, text_joinedToks hLines, map_text_lines h]
  · rw [solid_trimToks, solid_joinedToks, solid_lines]

-- ---------------------------------------------------------------------------
-- What the lines leave behind
-- ---------------------------------------------------------------------------

/-- The characters handed over or kept for the next text, blanks aside. -/
def handed (st : List Str × Str) : Nat := (nonBlank (st.1.flatten ++ st.2)).length

theorem handed_kept (done : List Str) (batch l : Str) :
    handed (done, batch ++ trim l ++ " ") = handed (done, batch) + (nonBlank l).length := by
  have hBlank : nonBlank (" " : Str) = [] := by decide
  unfold handed
  simp only [nonBlank_append, nonBlank_trim, List.length_append, hBlank, List.length_nil]
  omega

theorem handed_ended (done : List Str) (batch : Str) :
    handed (done ++ [trim batch], []) = handed (done, batch) := by
  unfold handed
  rw [List.flatten_append, List.flatten_singleton, List.append_nil, nonBlank_append, nonBlank_append,
    nonBlank_trim]

/-- A comment loses what is on its line. -/
theorem handed_feed (st : List Str × Str) (l : Str) :
    handed (feed st l) + (if isComment l then 1 else 0) ≤ handed st + (nonBlank l).length := by
  obtain ⟨done, batch⟩ := st
  by_cases hComment : isComment l = true
  · have hSome : 0 < (nonBlank l).length := by
      obtain ⟨rest, hTrim⟩ := List.isPrefixOf_iff_prefix.1 hComment
      rw [← nonBlank_trim l, ← hTrim, nonBlank_append, List.length_append]
      exact Nat.add_pos_left (by decide) _
    rw [feed_skipped (by rw [hComment, Bool.true_or]), if_pos hComment]
    omega
  · rw [if_neg hComment, Nat.add_zero]
    by_cases hBlank : (trim l).isEmpty = true
    · rw [feed_blank (List.isEmpty_iff.1 hBlank)]
      exact Nat.le_add_right ..
    · have hKept : ¬ (isComment l || (trim l).isEmpty) = true := by
        rw [Bool.or_eq_true]
        exact not_or_intro hComment hBlank
      by_cases hEnd : isEnd l = true
      · rw [feed_end hKept hEnd, handed_ended, handed_kept]
      · rw [feed_inside hKept hEnd, handed_kept]

theorem handed_foldl (ls : List Str) (st : List Str × Str) :
    handed (ls.foldl feed st) + ls.countP isComment ≤ handed st + (ls.flatMap nonBlank).length := by
  induction ls generalizing st with
  | nil => exact le_refl _
  | cons l ls ih =>
    have hHere := handed_feed st l
    have hRest := ih (feed st l)
    rw [List.foldl_cons, List.countP_cons, List.flatMap_cons, List.length_append]
    omega

/-- Without comments a text is handed over for each line that ends one. -/
theorem length_foldl_feed {ls : List Str} (h : ∀ l ∈ ls, isComment l = false) (st : List Str × Str) :
    (ls.foldl feed st).1.length = st.1.length + ls.countP isEnd := by
  induction ls generalizing st with
  | nil => rfl
  | cons l ls ih =>
    have hHere := h l (List.mem_cons_self ..)
    rw [List.foldl_cons, ih (fun m hm => h m (List.mem_cons_of_mem l hm)), List.countP_cons]
    by_cases hEnd : isEnd l = true
    · have hKept : ¬ (isComment l || (trim l).isEmpty) = true := by
        rw [hHere, Bool.false_or]
        exact trim_ne_nil_of_isEnd hEnd
      rw [feed_end hKept hEnd, if_pos hEnd, List.length_append, List.length_singleton]
      omega
    · have hSame : (feed st l).1 = st.1 := by
        unfold feed
        rw [if_neg hEnd]
        split <;> rfl
      rw [hSame, if_neg hEnd, Nat.add_zero]

theorem trim_subset {s : Str} {c : Char} (h : c ∈ trim s) : c ∈ s := by
  have hStart : c ∈ trimStart s :=
    List.mem_reverse.1 ((List.dropWhile_sublist _).subset (List.mem_reverse.1 h))
  exact (List.dropWhile_sublist _).subset hStart

/-- Nothing that is handed over has a line break. -/
theorem noBreak_foldl {ls : List Str} (h : ∀ l ∈ ls, '\n' ∉ l) {st : List Str × Str}
    (hDone : ∀ t ∈ st.1, '\n' ∉ t) (hBatch : '\n' ∉ st.2) : ∀ t ∈ (ls.foldl feed st).1, '\n' ∉ t := by
  induction ls generalizing st with
  | nil => exact hDone
  | cons l ls ih =>
    have hLine : '\n' ∉ st.2 ++ trim l ++ " " := by
      intro hMem
      rcases List.mem_append.1 hMem with hMem | hMem
      · rcases List.mem_append.1 hMem with hMem | hMem
        · exact hBatch hMem
        · exact h l (List.mem_cons_self ..) (trim_subset hMem)
      · exact absurd hMem (by decide)
    have hRest : ∀ m ∈ ls, '\n' ∉ m := fun m hm => h m (List.mem_cons_of_mem l hm)
    rw [List.foldl_cons]
    unfold feed
    split
    · exact ih hRest hDone hBatch
    · split
      · refine ih hRest (fun t ht => ?_) List.not_mem_nil
        rcases List.mem_append.1 ht with ht | ht
        · exact hDone t ht
        · rw [List.mem_singleton.1 ht]
          exact fun hMem => hLine (trim_subset hMem)
      · exact ih hRest hDone hLine

-- ---------------------------------------------------------------------------
-- All statements
-- ---------------------------------------------------------------------------

/-- The lines of the statements. -/
def linesOf (ws : List (List Tok)) : List Str := ws.flatMap fun w => split '\n' (text w)

theorem nonBlank_linesOf (ws : List (List Tok)) :
    (linesOf ws).flatMap nonBlank = ws.flatMap fun w => nonBlank (text w) := by
  unfold linesOf
  rw [List.flatMap_assoc]
  exact congrArg (List.flatMap · ws) (funext fun w => nonBlank_lines (text w))

/-- Statements that each stay one are handed over one by one. -/
theorem foldl_linesOf {ws : List (List Tok)} (hEnds : ∀ w ∈ ws, EndsStatement (text w))
    (hOne : ∀ w ∈ ws, OneStatement (text w)) (done : List Str) :
    (linesOf ws).foldl feed (done, []) =
      (done ++ ws.map fun w => trim (joinedLines (split '\n' (text w))), []) := by
  induction ws generalizing done with
  | nil =>
    show (done, []) = (done ++ [], [])
    rw [List.append_nil]
  | cons w ws ih =>
    have hHere := feedText_one (hOne w (List.mem_cons_self ..)) (hEnds w (List.mem_cons_self ..)) done
    have hRest := ih (fun v hv => hEnds v (List.mem_cons_of_mem w hv))
      fun v hv => hOne v (List.mem_cons_of_mem w hv)
    unfold linesOf at hRest ⊢
    unfold feedText at hHere
    rw [List.flatMap_cons, List.foldl_append, hHere, hRest, List.map_cons, List.append_assoc]
    rfl

theorem exists_readsAs {ws : List (List Tok)} {ts : List Str} (h : List.Forall₂ ReadsAs ws ts) {w : List Tok}
    (hw : w ∈ ws) : ∃ t ∈ ts, ReadsAs w t := by
  induction h with
  | nil => cases hw
  | cons hHere _ ih =>
    rcases List.mem_cons.1 hw with rfl | hw
    · exact ⟨_, List.mem_cons_self .., hHere⟩
    · obtain ⟨t, ht, hReads⟩ := ih hw
      exact ⟨t, List.mem_cons_of_mem _ ht, hReads⟩

theorem nonBlank_readsAs {w : List Tok} {t : Str} (h : ReadsAs w t) : nonBlank t = nonBlank (text w) := by
  obtain ⟨ts, rfl, hSolid⟩ := h
  rw [nonBlank_text, hSolid, ← nonBlank_text]

theorem nonBlank_forall₂ {ws : List (List Tok)} {ts : List Str} (h : List.Forall₂ ReadsAs ws ts) :
    nonBlank ts.flatten = ws.flatMap fun w => nonBlank (text w) := by
  induction h with
  | nil => rfl
  | cons hHere _ ih => rw [List.flatten_cons, nonBlank_append, nonBlank_readsAs hHere, ih, List.flatMap_cons]

/-- A literal that is read as itself has no line break. -/
theorem not_mem_of_readsAs {w : List Tok} {t : Str} (h : ReadsAs w t) (hBreak : '\n' ∉ t) {l : Str}
    (hl : Tok.literal l ∈ w) : '\n' ∉ l := by
  obtain ⟨ts, rfl, hSolid⟩ := h
  have hKept : Tok.literal l ∈ solid ts := by
    rw [hSolid]
    exact List.mem_filter.2 ⟨hl, rfl⟩
  exact fun hMem => hBreak (List.mem_flatMap.2 ⟨_, (List.mem_filter.1 hKept).1, hMem⟩)

/-- As many ends of statements as statements: each has its one. -/
theorem ends_once {ws : List (List Tok)} (hEnds : ∀ w ∈ ws, EndsStatement (text w))
    (hCount : (linesOf ws).countP isEnd ≤ ws.length) :
    ∀ w ∈ ws, ∀ l ∈ (split '\n' (text w)).dropLast, isEnd l = false := by
  have hOnce : ∀ s, EndsStatement s →
      (split '\n' s).countP isEnd = (split '\n' s).dropLast.countP isEnd + 1 := by
    rintro s ⟨init, last, hLines, hLast⟩
    rw [hLines, List.dropLast_concat, List.countP_append, List.countP_singleton, if_pos hLast]
  have hLower : ∀ vs : List (List Tok), (∀ v ∈ vs, EndsStatement (text v)) →
      vs.length ≤ (linesOf vs).countP isEnd := by
    intro vs
    induction vs with
    | nil => exact fun _ => Nat.zero_le _
    | cons v vs ih =>
      intro h
      have hHere := hOnce _ (h v (List.mem_cons_self ..))
      have hRest := ih fun u hu => h u (List.mem_cons_of_mem v hu)
      unfold linesOf at hRest ⊢
      rw [List.flatMap_cons, List.countP_append, List.length_cons]
      omega
  induction ws with
  | nil => exact fun w hw => nomatch hw
  | cons v ws ih =>
    have hHere := hOnce _ (hEnds v (List.mem_cons_self ..))
    have hEndsRest : ∀ u ∈ ws, EndsStatement (text u) := fun u hu => hEnds u (List.mem_cons_of_mem v hu)
    have hRest := hLower ws hEndsRest
    have hSum : (linesOf (v :: ws)).countP isEnd =
        (split '\n' (text v)).countP isEnd + (linesOf ws).countP isEnd := by
      unfold linesOf
      rw [List.flatMap_cons, List.countP_append]
    rw [List.length_cons] at hCount
    intro w hw
    rcases List.mem_cons.1 hw with rfl | hw
    · have hNone : (split '\n' (text w)).dropLast.countP isEnd = 0 := by omega
      exact fun l hl => Bool.eq_false_iff.2 (List.countP_eq_zero.1 hNone l hl)
    · exact ih hEndsRest (by omega) w hw

/-- Statements that each end with `;` are handed over as they are exactly when no
literal has a line break and each stays one statement. -/
theorem readsAs_iff {ws : List (List Tok)} (hEnds : ∀ w ∈ ws, EndsStatement (text w))
    (hLiterals : ∀ w ∈ ws, ∀ l, Tok.literal l ∈ w → l ≠ [] ∧ Trimmed l) :
    List.Forall₂ ReadsAs ws ((linesOf ws).foldl feed ([], [])).1 ↔
      ∀ w ∈ ws, (∀ l, Tok.literal l ∈ w → '\n' ∉ l) ∧ OneStatement (text w) := by
  constructor
  · intro h
    have hBreaks : ∀ t ∈ ((linesOf ws).foldl feed ([], [])).1, '\n' ∉ t := by
      refine noBreak_foldl (fun l hl => ?_) (fun t ht => nomatch ht) List.not_mem_nil
      obtain ⟨w, -, hl⟩ := List.mem_flatMap.1 hl
      exact not_mem_split hl
    have hComments : ∀ l ∈ linesOf ws, isComment l = false := by
      have hFold := handed_foldl (linesOf ws) ([], [])
      have hHanded : (nonBlank ((linesOf ws).foldl feed ([], [])).1.flatten).length ≤
          handed ((linesOf ws).foldl feed ([], [])) := by
        unfold handed
        rw [nonBlank_append, List.length_append]
        exact Nat.le_add_right ..
      have hStart : handed ([], []) = 0 := rfl
      rw [nonBlank_forall₂ h, ← nonBlank_linesOf] at hHanded
      have hNone : (linesOf ws).countP isComment = 0 := by omega
      exact fun l hl => Bool.eq_false_iff.2 (List.countP_eq_zero.1 hNone l hl)
    have hCount := length_foldl_feed hComments ([], [])
    rw [← h.length_eq, List.length_nil, Nat.zero_add] at hCount
    intro w hw
    obtain ⟨t, ht, hReads⟩ := exists_readsAs h hw
    exact ⟨fun l hl => not_mem_of_readsAs hReads (hBreaks t ht) hl,
      fun l hl => hComments l (List.mem_flatMap.2 ⟨w, hw, hl⟩), ends_once hEnds hCount.ge w hw⟩
  · intro h
    rw [foldl_linesOf hEnds fun w hw => (h w hw).2, List.nil_append, List.forall₂_map_right_iff,
      List.forall₂_same]
    intro w hw
    refine readsAs_joined fun t ht => ?_
    match t, ht with
    | .code _, _ => trivial
    | .literal l, ht => exact ⟨(hLiterals w hw l ht).1, (hLiterals w hw l ht).2, (h w hw).1 l ht⟩

end RunAlexDb
