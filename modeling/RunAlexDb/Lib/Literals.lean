import RunAlexDb.Lib.Words

/-!
# Literals — texts in which some parts are to be left alone

A text is a sequence of code characters and literals. Blanks between them come and
go, which leaves the solid tokens: the code characters that are no blanks, and the
literals as they are. Trimming a text and cutting it into lines are trimming and
cutting its tokens, as long as no literal begins or ends with a blank or goes over
the end of a line.

Main results: `text_trim`, `map_text_lines` and `nonBlank_text`.
-/

namespace Literals

open Text

inductive Tok
  | code (c : Char)
  | literal (l : Str)
deriving DecidableEq, Repr

def Tok.text : Tok → Str
  | .code c => [c]
  | .literal l => l

def Tok.isBlank : Tok → Bool
  | .code c => isWhitespace c
  | .literal _ => false

/-- A literal with a first and a last character that are no blanks, on one line. -/
def Tok.Sound : Tok → Prop
  | .code _ => True
  | .literal l => l ≠ [] ∧ Trimmed l ∧ '\n' ∉ l

def text (ts : List Tok) : Str := ts.flatMap Tok.text

/-- The tokens that are no blanks. -/
def solid (ts : List Tok) : List Tok := ts.filter fun t => !t.isBlank

/-- A text of code. -/
def codes (s : Str) : List Tok := s.map .code

@[simp] theorem text_nil : text [] = [] := rfl

@[simp] theorem text_cons (t : Tok) (ts : List Tok) : text (t :: ts) = t.text ++ text ts :=
  List.flatMap_cons

@[simp] theorem text_append (ts us : List Tok) : text (ts ++ us) = text ts ++ text us :=
  List.flatMap_append

@[simp] theorem text_codes (s : Str) : text (codes s) = s := by
  induction s with
  | nil => rfl
  | cons c s ih => exact congrArg (c :: ·) ih

@[simp] theorem solid_append (ts us : List Tok) : solid (ts ++ us) = solid ts ++ solid us :=
  List.filter_append ..

-- ---------------------------------------------------------------------------
-- Trimming
-- ---------------------------------------------------------------------------

def trimStartToks (ts : List Tok) : List Tok := ts.dropWhile Tok.isBlank

def trimEndToks (ts : List Tok) : List Tok := (ts.reverse.dropWhile Tok.isBlank).reverse

def trimToks (ts : List Tok) : List Tok := trimEndToks (trimStartToks ts)

theorem solid_dropWhile (ts : List Tok) : solid (ts.dropWhile Tok.isBlank) = solid ts := by
  induction ts with
  | nil => rfl
  | cons t ts ih =>
    unfold solid at ih ⊢
    rw [List.dropWhile_cons, List.filter_cons]
    split
    · rename_i hBlank
      rw [ih, hBlank, Bool.not_true, if_neg Bool.false_ne_true]
    · rw [List.filter_cons]

theorem solid_reverse (ts : List Tok) : solid ts.reverse = (solid ts).reverse := List.filter_reverse ..

@[simp] theorem solid_trimToks (ts : List Tok) : solid (trimToks ts) = solid ts := by
  unfold trimToks trimEndToks trimStartToks
  rw [solid_reverse, solid_dropWhile, solid_reverse, List.reverse_reverse, solid_dropWhile]

theorem trimStart_append {l : Str} (hSome : l ≠ [])
    (hHead : ∀ c, l.head? = some c → isWhitespace c = false) (s : Str) : trimStart (l ++ s) = l ++ s := by
  obtain ⟨c, l, rfl⟩ := List.exists_cons_of_ne_nil hSome
  exact List.dropWhile_cons_of_neg (by rw [hHead c rfl]; exact Bool.false_ne_true)

theorem trimEnd_append {l : Str} (hSome : l ≠ [])
    (hLast : ∀ c, l.getLast? = some c → isWhitespace c = false) (s : Str) :
    trimEnd (s ++ l) = s ++ l := by
  have hReverse : ∀ c, l.reverse.head? = some c → isWhitespace c = false := by
    intro c hc
    rw [List.head?_reverse] at hc
    exact hLast c hc
  have hStart := trimStart_append (mt List.reverse_eq_nil_iff.1 hSome) hReverse s.reverse
  show (trimStart (s ++ l).reverse).reverse = _
  rw [List.reverse_append, hStart, List.reverse_append, List.reverse_reverse, List.reverse_reverse]

theorem text_trimStart {ts : List Tok} (h : ∀ t ∈ ts, t.Sound) :
    text (trimStartToks ts) = trimStart (text ts) := by
  induction ts with
  | nil => rfl
  | cons t ts ih =>
    have hRest := ih fun u hu => h u (List.mem_cons_of_mem t hu)
    unfold trimStartToks at hRest ⊢
    rw [List.dropWhile_cons, text_cons]
    cases t with
    | code c =>
      show text (if isWhitespace c then _ else _) = List.dropWhile isWhitespace (c :: text ts)
      rw [List.dropWhile_cons]
      split
      · exact hRest
      · rfl
    | literal l =>
      obtain ⟨hSome, hTrimmed, -⟩ := h (.literal l) (List.mem_cons_self ..)
      exact (trimStart_append hSome hTrimmed.head (text ts)).symm

theorem text_trimEnd {ts : List Tok} (h : ∀ t ∈ ts, t.Sound) :
    text (trimEndToks ts) = trimEnd (text ts) := by
  induction ts using List.reverseRecOn with
  | nil => rfl
  | append_singleton ts t ih =>
    have hRest := ih fun u hu => h u (List.mem_append_left _ hu)
    unfold trimEndToks at hRest ⊢
    rw [List.reverse_append, List.reverse_singleton, List.singleton_append, List.dropWhile_cons]
    cases t with
    | code c =>
      have hText : text (ts ++ [.code c]) = text ts ++ [c] := text_append ..
      rw [hText]
      show text (if isWhitespace c then _ else _ : List Tok).reverse =
        (List.dropWhile isWhitespace (text ts ++ [c]).reverse).reverse
      rw [List.reverse_append, List.reverse_singleton, List.singleton_append, List.dropWhile_cons]
      split
      · exact hRest
      · rw [List.reverse_cons, List.reverse_reverse, hText, List.reverse_cons, List.reverse_reverse]
    | literal l =>
      obtain ⟨hSome, hTrimmed, -⟩ := h (.literal l) (List.mem_append_right _ (List.mem_singleton.2 rfl))
      have hText : text (ts ++ [.literal l]) = text ts ++ l := by
        rw [text_append]
        exact congrArg (text ts ++ ·) (List.append_nil l)
      rw [if_neg (show ¬ (Tok.literal l).isBlank = true from Bool.false_ne_true), List.reverse_cons,
        List.reverse_reverse, hText]
      exact (trimEnd_append hSome hTrimmed.last (text ts)).symm

theorem sound_trimStart {ts : List Tok} (h : ∀ t ∈ ts, t.Sound) : ∀ t ∈ trimStartToks ts, t.Sound :=
  fun t ht => h t ((List.dropWhile_sublist _).subset ht)

/-- Trimming a text is trimming its tokens. -/
theorem text_trim {ts : List Tok} (h : ∀ t ∈ ts, t.Sound) : text (trimToks ts) = trim (text ts) := by
  unfold trimToks trim
  rw [text_trimEnd (sound_trimStart h), text_trimStart h]

-- ---------------------------------------------------------------------------
-- Lines
-- ---------------------------------------------------------------------------

def Tok.isBreak : Tok → Bool
  | .code c => c == '\n'
  | .literal _ => false

def linesToks (ts : List Tok) : List (List Tok) := ts.splitOnP Tok.isBreak

theorem modifyHead_append {a : Str} {ls : List Str} (s : Str) :
    (ls.modifyHead (a ++ ·)).modifyHead (s ++ ·) = ls.modifyHead (s ++ a ++ ·) := by
  cases ls with
  | nil => rfl
  | cons l ls => simp only [List.modifyHead_cons, List.append_assoc]

theorem split_append {l : Str} (h : '\n' ∉ l) (s : Str) :
    split '\n' (l ++ s) = (split '\n' s).modifyHead (l ++ ·) := by
  induction l with
  | nil =>
    rw [List.nil_append]
    cases split '\n' s <;> rfl
  | cons c l ih =>
    have hRest := ih fun hc => h (List.mem_cons_of_mem c hc)
    have hNe : (c == '\n') = false := beq_false_of_ne fun hc => h (hc ▸ List.mem_cons_self ..)
    unfold split at hRest ⊢
    rw [List.cons_append, List.splitOnP_cons_eq_if_modifyHead, hNe, if_neg Bool.false_ne_true, hRest]
    exact modifyHead_append [c]

/-- Cutting a text into lines is cutting its tokens. -/
theorem map_text_lines {ts : List Tok} (h : ∀ t ∈ ts, t.Sound) :
    (linesToks ts).map text = split '\n' (text ts) := by
  induction ts with
  | nil => rfl
  | cons t ts ih =>
    have hRest := ih fun u hu => h u (List.mem_cons_of_mem t hu)
    have hHead : ∀ ls : List (List Tok), (ls.modifyHead (t :: ·)).map text =
        (ls.map text).modifyHead (t.text ++ ·) := by
      intro ls
      cases ls <;> rfl
    unfold linesToks at hRest ⊢
    rw [List.splitOnP_cons_eq_if_modifyHead, text_cons]
    cases t with
    | code c =>
      show (if (c == '\n') = true then _ else _ : List (List Tok)).map text = split '\n' (c :: text ts)
      unfold split
      rw [List.splitOnP_cons_eq_if_modifyHead]
      split
      · rw [List.map_cons, hRest]
        rfl
      · rw [hHead, hRest]
        rfl
    | literal l =>
      obtain ⟨-, -, hLine⟩ := h (.literal l) (List.mem_cons_self ..)
      show (List.modifyHead _ _).map text = _
      rw [hHead, hRest]
      exact (split_append hLine (text ts)).symm

theorem solid_lines (ts : List Tok) : (linesToks ts).flatMap solid = solid ts := by
  induction ts with
  | nil => rfl
  | cons t ts ih =>
    unfold linesToks at ih ⊢
    rw [List.splitOnP_cons_eq_if_modifyHead]
    split
    · rename_i hBreak
      have hBlank : t.isBlank = true := by
        cases t with
        | code c =>
          rw [eq_of_beq hBreak]
          decide
        | literal l => cases hBreak
      have hSkip : solid (t :: ts) = solid ts := by
        unfold solid
        rw [List.filter_cons, hBlank, Bool.not_true, if_neg Bool.false_ne_true]
      rw [List.flatMap_cons, ih, hSkip]
      rfl
    · obtain ⟨l, ls, hLines⟩ := List.exists_cons_of_ne_nil (List.splitOnP_ne_nil Tok.isBreak ts)
      have hCons : ∀ us : List Tok, solid (t :: us) = solid [t] ++ solid us := fun us =>
        solid_append [t] us
      rw [hLines, List.modifyHead_cons, List.flatMap_cons, hCons, List.append_assoc, hCons ts, ← ih, hLines,
        List.flatMap_cons]

theorem mem_of_mem_lines {ts l : List Tok} (hl : l ∈ linesToks ts) {t : Tok} (ht : t ∈ l) : t ∈ ts := by
  induction ts generalizing l with
  | nil =>
    rw [List.mem_singleton.1 hl] at ht
    cases ht
  | cons u ts ih =>
    unfold linesToks at ih hl
    rw [List.splitOnP_cons_eq_if_modifyHead] at hl
    split at hl
    · rcases List.mem_cons.1 hl with rfl | hl
      · cases ht
      · exact List.mem_cons_of_mem u (ih hl ht)
    · obtain ⟨first, ls, hLines⟩ := List.exists_cons_of_ne_nil (List.splitOnP_ne_nil Tok.isBreak ts)
      rw [hLines, List.modifyHead_cons] at hl
      rcases List.mem_cons.1 hl with rfl | hl
      · rcases List.mem_cons.1 ht with rfl | ht
        · exact List.mem_cons_self ..
        · exact List.mem_cons_of_mem u (ih (by rw [hLines]; exact List.mem_cons_self ..) ht)
      · exact List.mem_cons_of_mem u (ih (by rw [hLines]; exact List.mem_cons_of_mem _ hl) ht)

theorem not_mem_split {s l : Str} (hl : l ∈ split '\n' s) : '\n' ∉ l := by
  induction s generalizing l with
  | nil =>
    rw [List.mem_singleton.1 hl]
    exact List.not_mem_nil
  | cons c s ih =>
    unfold split at ih hl
    rw [List.splitOnP_cons_eq_if_modifyHead] at hl
    split at hl
    · rcases List.mem_cons.1 hl with rfl | hl
      · exact List.not_mem_nil
      · exact ih hl
    · rename_i hBreak
      obtain ⟨first, ls, hLines⟩ := List.exists_cons_of_ne_nil (List.splitOnP_ne_nil (· == '\n') s)
      rw [hLines, List.modifyHead_cons] at hl
      rw [hLines] at ih
      rcases List.mem_cons.1 hl with rfl | hl
      · intro hMem
        rcases List.mem_cons.1 hMem with hc | hMem
        · exact hBreak (beq_iff_eq.2 hc.symm)
        · exact ih (List.mem_cons_self ..) hMem
      · exact ih (List.mem_cons_of_mem _ hl)

-- ---------------------------------------------------------------------------
-- What is not blank
-- ---------------------------------------------------------------------------

/-- The characters that are no blanks. -/
def nonBlank (s : Str) : Str := s.filter fun c => !isWhitespace c

@[simp] theorem nonBlank_append (s t : Str) : nonBlank (s ++ t) = nonBlank s ++ nonBlank t :=
  List.filter_append ..

/-- They are those of the solid tokens. -/
theorem nonBlank_text (ts : List Tok) : nonBlank (text ts) = nonBlank (text (solid ts)) := by
  induction ts with
  | nil => rfl
  | cons t ts ih =>
    unfold solid at ih ⊢
    rw [text_cons, nonBlank_append, List.filter_cons]
    cases hBlank : t.isBlank with
    | false => rw [Bool.not_false, if_pos rfl, text_cons, nonBlank_append, ih]
    | true =>
      rw [Bool.not_true, if_neg Bool.false_ne_true, ← ih]
      cases t with
      | code c =>
        have hNone : nonBlank [c] = [] := by
          unfold nonBlank
          rw [List.filter_cons, show isWhitespace c = true from hBlank]
          rfl
        show nonBlank [c] ++ _ = _
        rw [hNone, List.nil_append]
      | literal l => cases hBlank

theorem nonBlank_trim (s : Str) : nonBlank (trim s) = nonBlank s := by
  have hSound : ∀ t ∈ codes s, t.Sound := by
    intro t ht
    obtain ⟨c, -, rfl⟩ := List.mem_map.1 ht
    trivial
  have hTrim := text_trim hSound
  rw [text_codes] at hTrim
  rw [← hTrim, nonBlank_text, solid_trimToks, ← nonBlank_text, text_codes]

theorem nonBlank_lines (s : Str) : (split '\n' s).flatMap nonBlank = nonBlank s := by
  induction s with
  | nil => rfl
  | cons c s ih =>
    unfold split at ih ⊢
    rw [List.splitOnP_cons_eq_if_modifyHead]
    split
    · rename_i hBreak
      have hSkip : nonBlank (c :: s) = nonBlank s := by
        rw [eq_of_beq hBreak]
        rfl
      rw [List.flatMap_cons, ih, hSkip]
      rfl
    · obtain ⟨l, ls, hLines⟩ := List.exists_cons_of_ne_nil (List.splitOnP_ne_nil (· == '\n') s)
      have hCons : ∀ t : Str, nonBlank (c :: t) = nonBlank [c] ++ nonBlank t := fun t => nonBlank_append [c] t
      rw [hLines, List.modifyHead_cons, List.flatMap_cons, hCons, List.append_assoc, hCons s, ← ih, hLines,
        List.flatMap_cons]

end Literals
