import Mathlib.Data.List.TakeWhile
import RunAlexDb.Lib.Digits
import RunAlexDb.Model.Concrete
import RunAlexDb.Statement.RestoredTexts

/-!
# DumpTexts — the statements that a dump writes

`dump_sql` writes statements with line breaks between them, and within a statement
with line breaks between the columns and between the rows. Its names stand between
backticks as they are, and a text value stands between quotes with its line breaks as
they are. So `restore_sql` takes the statements out again exactly when no text value
has a line break and no name has one that is followed by `--` or preceded by `;`.

Main results: `dumpSql_eq` and `restoresAsWritten_iff`.
-/

set_option linter.unusedSectionVars false

namespace RunAlexDb

open Text Platform Literals

-- ---------------------------------------------------------------------------
-- Lines in the middle of a text
-- ---------------------------------------------------------------------------

/-- A character that neither a comment nor the end of a statement goes across. -/
def Anchor (c : Char) : Prop := isWhitespace c = false ∧ c ≠ ';' ∧ c ≠ '-'

instance : DecidablePred Anchor := fun _ => inferInstanceAs (Decidable (_ ∧ _))

theorem trimStart_anchor {c : Char} (h : isWhitespace c = false) (s t : Str) :
    trimStart (s ++ c :: t) = trimStart s ++ c :: t := by
  induction s with
  | nil => exact List.dropWhile_cons_of_neg (by rw [h]; exact Bool.false_ne_true)
  | cons d s ih =>
    unfold trimStart trimStartMatches at ih ⊢
    rw [List.cons_append, List.dropWhile_cons, List.dropWhile_cons]
    split
    · exact ih
    · rfl

theorem trimEnd_anchor {c : Char} (h : isWhitespace c = false) (s t : Str) :
    trimEnd (s ++ c :: t) = s ++ c :: trimEnd t := by
  have hStart := trimStart_anchor h t.reverse s.reverse
  have hReverse : (s ++ c :: t).reverse = t.reverse ++ c :: s.reverse := by
    rw [List.reverse_append, List.reverse_cons, List.append_assoc, List.singleton_append]
  show (trimStart (s ++ c :: t).reverse).reverse = s ++ c :: (trimStart t.reverse).reverse
  rw [hReverse, hStart, List.reverse_append, List.reverse_cons, List.reverse_reverse, List.append_assoc,
    List.singleton_append]

theorem trim_anchor {c : Char} (h : isWhitespace c = false) (s t : Str) :
    trim (s ++ c :: t) = trimStart s ++ c :: trimEnd t := by
  unfold trim
  rw [trimStart_anchor h, trimEnd_anchor h]

/-- The blanks that trimming takes off. -/
theorem trim_cut (l : Str) : ∃ b b', l = b ++ trim l ++ b' ∧
    (∀ c ∈ b, isWhitespace c = true) ∧ ∀ c ∈ b', isWhitespace c = true := by
  refine ⟨l.takeWhile isWhitespace, ((trimStart l).reverse.takeWhile isWhitespace).reverse, ?_,
    fun c hc => List.mem_takeWhile_imp hc, fun c hc => List.mem_takeWhile_imp (List.mem_reverse.1 hc)⟩
  have hEnd : trim l ++ ((trimStart l).reverse.takeWhile isWhitespace).reverse = trimStart l := by
    show ((trimStart l).reverse.dropWhile isWhitespace).reverse ++ _ = _
    rw [← List.reverse_append, List.takeWhile_append_dropWhile, List.reverse_reverse]
  rw [List.append_assoc, hEnd]
  exact List.takeWhile_append_dropWhile.symm

theorem isComment_iff (l : Str) :
    isComment l = true ↔ ∃ b r, (∀ c ∈ b, isWhitespace c = true) ∧ l = b ++ '-' :: '-' :: r := by
  constructor
  · intro h
    obtain ⟨r, hTrim⟩ := List.isPrefixOf_iff_prefix.1 h
    obtain ⟨b, b', hCut, hBlank, -⟩ := trim_cut l
    refine ⟨b, r ++ b', hBlank, ?_⟩
    rw [hCut, ← hTrim, List.append_assoc]
    rfl
  · rintro ⟨b, r, hBlank, rfl⟩
    have hStart : trimStart b = [] := List.dropWhile_eq_nil_iff.2 hBlank
    have hRest := trimEnd_anchor (c := '-') (by decide) [] r
    refine List.isPrefixOf_iff_prefix.2 ⟨trimEnd r, ?_⟩
    rw [trim_anchor (by decide), hStart]
    exact congrArg ('-' :: ·) hRest.symm

theorem isEnd_iff (l : Str) :
    isEnd l = true ↔ ∃ r b, (∀ c ∈ b, isWhitespace c = true) ∧ l = r ++ ';' :: b := by
  constructor
  · intro h
    obtain ⟨r, hTrim⟩ := List.isSuffixOf_iff_suffix.1 h
    obtain ⟨b, b', hCut, -, hBlank⟩ := trim_cut l
    refine ⟨b ++ r, b', hBlank, ?_⟩
    rw [hCut, ← hTrim]
    simp only [List.append_assoc]
    rfl
  · rintro ⟨r, b, hBlank, rfl⟩
    have hEnd : trimEnd b = [] := by
      have hReverse : ∀ c ∈ b.reverse, isWhitespace c = true := fun c hc => hBlank c (List.mem_reverse.1 hc)
      show (b.reverse.dropWhile isWhitespace).reverse = []
      rw [List.dropWhile_eq_nil_iff.2 hReverse]
      rfl
    refine List.isSuffixOf_iff_suffix.2 ⟨trimStart r, ?_⟩
    rw [trim_anchor (by decide), hEnd]
    rfl

theorem isComment_anchor {c : Char} (h : Anchor c) (x y : Str) : isComment (x ++ c :: y) = isComment x := by
  rw [Bool.eq_iff_iff, isComment_iff, isComment_iff]
  constructor
  · rintro ⟨b, r, hBlank, hEq⟩
    refine ⟨b, ?_⟩
    rcases List.append_eq_append_iff.1 hEq with ⟨a, rfl, hRest⟩ | ⟨a, rfl, hRest⟩
    · rcases a with _ | ⟨d, a⟩
      · exact absurd (List.cons.inj hRest).1 h.2.2
      · have hd := hBlank d (List.mem_append_right x (List.mem_cons_self ..))
        rw [← (List.cons.inj hRest).1, h.1] at hd
        cases hd
    · rcases a with _ | ⟨d, _ | ⟨d', a⟩⟩
      · exact absurd (List.cons.inj hRest).1.symm h.2.2
      · exact absurd (List.cons.inj (List.cons.inj hRest).2).1.symm h.2.2
      · obtain ⟨rfl, hTail⟩ := List.cons.inj hRest
        obtain ⟨rfl, -⟩ := List.cons.inj hTail
        exact ⟨a, hBlank, rfl⟩
  · rintro ⟨b, r, hBlank, rfl⟩
    exact ⟨b, r ++ c :: y, hBlank, by simp⟩

theorem isEnd_anchor {c : Char} (h : Anchor c) (x y : Str) : isEnd (x ++ c :: y) = isEnd y := by
  rw [Bool.eq_iff_iff, isEnd_iff, isEnd_iff]
  constructor
  · rintro ⟨r, b, hBlank, hEq⟩
    rcases List.append_eq_append_iff.1 hEq with ⟨a, rfl, hRest⟩ | ⟨a, rfl, hRest⟩
    · rcases a with _ | ⟨d, a⟩
      · exact absurd (List.cons.inj hRest).1 h.2.1
      · exact ⟨a, b, hBlank, (List.cons.inj hRest).2⟩
    · rcases a with _ | ⟨d, a⟩
      · exact absurd (List.cons.inj hRest).1.symm h.2.1
      · have hc := hBlank c (by rw [(List.cons.inj hRest).2]; simp)
        rw [h.1] at hc
        cases hc
  · rintro ⟨r, b, hBlank, rfl⟩
    exact ⟨x ++ c :: r, b, hBlank, by simp⟩

/-- No line break is followed, blanks aside, by `--`, and none is preceded by `;`. -/
structure SafeLines (s : Str) : Prop where
  noComment : ∀ l ∈ (split '\n' s).tail, isComment l = false
  noEnd : ∀ l ∈ (split '\n' s).dropLast, isEnd l = false

instance : DecidablePred SafeLines := fun s =>
  decidable_of_iff ((∀ l ∈ (split '\n' s).tail, isComment l = false) ∧
    ∀ l ∈ (split '\n' s).dropLast, isEnd l = false) ⟨fun h => ⟨h.1, h.2⟩, fun h => ⟨h.1, h.2⟩⟩

theorem split_of_noBreak {s : Str} (h : '\n' ∉ s) : split '\n' s = [s] := by
  have hSplit := split_append h []
  rw [List.append_nil] at hSplit
  rw [hSplit]
  show [s ++ []] = [s]
  rw [List.append_nil]

theorem safeLines_of_noBreak {s : Str} (h : '\n' ∉ s) : SafeLines s := by
  constructor
  · rw [split_of_noBreak h]
    exact fun l hl => nomatch hl
  · rw [split_of_noBreak h]
    exact fun l hl => nomatch hl

theorem split_cons_of_ne {c : Char} (h : c ≠ '\n') (s : Str) :
    split '\n' (c :: s) = (split '\n' s).modifyHead (c :: ·) :=
  split_append (l := [c]) (fun hc => h (List.mem_singleton.1 hc).symm) s

theorem split_cons_break (s : Str) : split '\n' ('\n' :: s) = [] :: split '\n' s :=
  List.splitOnP_append_cons [] s rfl

/-- The line of the anchor goes from the last line before it to the first one after it. -/
theorem split_anchor {c : Char} (h : c ≠ '\n') (s t : Str) : ∃ a x y b, split '\n' s = a ++ [x] ∧
    split '\n' t = y :: b ∧ split '\n' (s ++ c :: t) = a ++ (x ++ c :: y) :: b := by
  induction s with
  | nil =>
    obtain ⟨y, b, hLines⟩ := List.exists_cons_of_ne_nil (List.splitOnP_ne_nil (· == '\n') t)
    refine ⟨[], [], y, b, rfl, hLines, ?_⟩
    rw [List.nil_append, split_cons_of_ne h]
    unfold split
    rw [hLines]
    rfl
  | cons d s ih =>
    obtain ⟨a, x, y, b, hHere, hAfter, hAll⟩ := ih
    by_cases hd : d = '\n'
    · refine ⟨[] :: a, x, y, b, ?_, hAfter, ?_⟩
      · rw [hd, split_cons_break, hHere]
        rfl
      · rw [hd, List.cons_append, split_cons_break, hAll]
        rfl
    · rcases a with _ | ⟨z, a⟩
      · refine ⟨[], d :: x, y, b, ?_, hAfter, ?_⟩
        · rw [split_cons_of_ne hd, hHere]
          rfl
        · rw [List.cons_append, split_cons_of_ne hd, hAll]
          rfl
      · refine ⟨(d :: z) :: a, x, y, b, ?_, hAfter, ?_⟩
        · rw [split_cons_of_ne hd, hHere]
          rfl
        · rw [List.cons_append, split_cons_of_ne hd, hAll]
          rfl

theorem Anchor.ne_break {c : Char} (h : Anchor c) : c ≠ '\n' := by
  rintro rfl
  exact absurd h.1 (by decide)

/-- The parts around an anchor are each for themselves. -/
theorem safeLines_anchor {c : Char} (h : Anchor c) (s t : Str) :
    SafeLines (s ++ c :: t) ↔ SafeLines s ∧ SafeLines t := by
  obtain ⟨a, x, y, b, hBefore, hAfter, hAll⟩ := split_anchor h.ne_break s t
  have hComment := isComment_anchor h x y
  have hEnd := isEnd_anchor h x y
  have hTail : (∀ l ∈ (split '\n' (s ++ c :: t)).tail, isComment l = false) ↔
      (∀ l ∈ (split '\n' s).tail, isComment l = false) ∧
        ∀ l ∈ (split '\n' t).tail, isComment l = false := by
    rw [hAll, hBefore, hAfter, List.tail_cons]
    rcases a with _ | ⟨z, a⟩
    · simp
    · simp only [List.cons_append, List.tail_cons, List.forall_mem_append, List.forall_mem_cons, hComment,
        List.not_mem_nil, false_implies, implies_true, and_true, and_assoc]
  have hInit : (∀ l ∈ (split '\n' (s ++ c :: t)).dropLast, isEnd l = false) ↔
      (∀ l ∈ (split '\n' s).dropLast, isEnd l = false) ∧
        ∀ l ∈ (split '\n' t).dropLast, isEnd l = false := by
    rw [hAll, hBefore, hAfter, List.dropLast_concat]
    rcases b with _ | ⟨z, b⟩
    · simp
    · rw [List.dropLast_append_of_ne_nil (List.cons_ne_nil _ _)]
      simp only [List.dropLast_cons_cons, List.forall_mem_append, List.forall_mem_cons, hEnd]
  constructor
  · rintro ⟨hNoComment, hNoEnd⟩
    exact ⟨⟨(hTail.1 hNoComment).1, (hInit.1 hNoEnd).1⟩, (hTail.1 hNoComment).2, (hInit.1 hNoEnd).2⟩
  · rintro ⟨⟨hNoComment, hNoEnd⟩, hNoComment', hNoEnd'⟩
    exact ⟨hTail.2 ⟨hNoComment, hNoComment'⟩, hInit.2 ⟨hNoEnd, hNoEnd'⟩⟩

/-- A name between backticks is for itself. -/
theorem safeLines_backticked (s name t : Str) :
    SafeLines (s ++ (backticked name ++ t)) ↔ SafeLines s ∧ SafeLines name ∧ SafeLines t := by
  have hText : s ++ (backticked name ++ t) = s ++ '`' :: (name ++ '`' :: t) := by
    unfold backticked
    simp only [List.cons_append, List.append_assoc, List.nil_append]
  rw [hText, safeLines_anchor (by decide), safeLines_anchor (by decide)]

/-- A list of items, each after a `,` and a blank, of which each is for itself. -/
theorem safeLines_items {α : Type} {xs : List α} {f : α → Str} {good : α → Prop} {p t : Str}
    (hItem : ∀ x ∈ xs, ∀ u, SafeLines (p ++ (f x ++ u)) ↔ good x ∧ SafeLines u)
    (hNone : SafeLines (p ++ t)) (hRest : SafeLines t) :
    SafeLines (p ++ (join (',' :: p) (xs.map f) ++ t)) ↔ ∀ x ∈ xs, good x := by
  induction xs with
  | nil => exact iff_of_true hNone fun x hx => nomatch hx
  | cons x xs ih =>
    have hTail := ih fun x' hx' => hItem x' (List.mem_cons_of_mem x hx')
    have hHere := hItem x (List.mem_cons_self ..)
    rw [List.forall_mem_cons]
    rcases xs with _ | ⟨x', xs⟩
    · show SafeLines (p ++ (f x ++ t)) ↔ _
      rw [hHere]
      exact and_congr_right fun _ => iff_of_true hRest fun x hx => nomatch hx
    · have hText : join (',' :: p) ((x :: x' :: xs).map f) ++ t =
          f x ++ ([] ++ ',' :: (p ++ (join (',' :: p) ((x' :: xs).map f) ++ t))) := by
        show f x ++ (',' :: p) ++ join (',' :: p) ((x' :: xs).map f) ++ t = _
        simp only [List.cons_append, List.append_assoc, List.nil_append]
      rw [hText, hHere, safeLines_anchor (by decide), hTail]
      exact and_congr_right fun _ => and_iff_right (safeLines_of_noBreak List.not_mem_nil)

/-- A statement that starts with no comment stays one when its lines do. -/
theorem oneStatement_iff {c : Char} (h : Anchor c) (s : Str) :
    OneStatement (c :: s) ↔ SafeLines s := by
  obtain ⟨a, x, y, b, hBefore, hAfter, hAll⟩ := split_anchor h.ne_break [] s
  have hFirst : isComment (x ++ c :: y) = false := by
    have hNil : x = [] := by
      rcases a with _ | ⟨z, a⟩
      · exact (List.cons.inj hBefore).1.symm
      · cases a <;> cases hBefore
    rw [isComment_anchor h, hNil]
    decide
  have hSafe := safeLines_anchor h [] s
  have hStart : SafeLines [] := safeLines_of_noBreak List.not_mem_nil
  rw [← and_iff_right (a := SafeLines []) (b := SafeLines s) hStart, ← hSafe]
  have hLines : split '\n' (c :: s) = (x ++ c :: y) :: b := by
    rcases a with _ | ⟨z, a⟩
    · exact hAll
    · cases a <;> cases hBefore
  constructor
  · rintro ⟨hComment, hEnd⟩
    exact ⟨fun l hl => hComment l (List.mem_of_mem_tail hl), hEnd⟩
  · rintro ⟨hComment, hEnd⟩
    refine ⟨fun l hl => ?_, hEnd⟩
    change ∀ l ∈ (split '\n' (c :: s)).tail, _ at hComment
    rw [hLines] at hl hComment
    rcases List.mem_cons.1 hl with rfl | hl
    · exact hFirst
    · exact hComment l hl

/-- A text with a `;` behind it ends as a statement does. -/
theorem endsStatement_semicolon (s : Str) : EndsStatement (s ++ [';']) := by
  obtain ⟨a, x, y, b, -, hAfter, hAll⟩ := split_anchor (c := ';') (by decide) s []
  obtain ⟨rfl, rfl⟩ := List.cons.inj hAfter
  exact ⟨a, x ++ [';'], hAll, (isEnd_iff _).2 ⟨x, [], fun c hc => (nomatch hc), rfl⟩⟩

section Dumps

variable [Platform]

-- ---------------------------------------------------------------------------
-- The statements of a dump
-- ---------------------------------------------------------------------------

/-- A value: a text and a blob are literals. -/
def valueToks : Value → List Tok
  | .text s => [.literal (dumpValue (.text s))]
  | .bytes b => [.literal (dumpValue (.bytes b))]
  | v => codes (dumpValue v)

def joinToks (sep : Str) : List (List Tok) → List Tok
  | [] => []
  | [w] => w
  | w :: rest => w ++ codes sep ++ joinToks sep rest

def rowToks (row : Row) : List Tok := codes "  (" ++ joinToks ", " (row.map valueToks) ++ codes ")"

def databaseToks (name : Str) : List Tok :=
  codes ("CREATE DATABASE IF NOT EXISTS " ++ backticked name ++ ";")

def useToks (name : Str) : List Tok := codes ("USE " ++ backticked name ++ ";")

def createToks (name : Str) (t : Table) : List Tok :=
  codes ("CREATE TABLE IF NOT EXISTS " ++ backticked name ++ " (\n" ++
    join ",\n" (t.columns.map dumpColumn) ++ "\n);")

def insertToks (name : Str) (t : Table) : List Tok :=
  codes ("INSERT INTO " ++ backticked name ++ " (" ++
    join ", " (t.columns.map fun c => backticked c.name) ++ ") VALUES\n") ++
    joinToks ",\n" (t.rows.map rowToks) ++ codes ";"

/-- A statement with the line breaks behind it. -/
abbrev WrittenStatement := List Tok × Str

def WrittenStatement.text (w : WrittenStatement) : Str := Literals.text w.1 ++ w.2

def tableWritten (name : Str) (t : Table) : List WrittenStatement :=
  (createToks name t, "\n\n") :: if t.rows.isEmpty then [] else [(insertToks name t, "\n\n")]

def databaseWritten (name : Str) (d : Database) : List WrittenStatement :=
  (databaseToks name, "\n") :: (useToks name, "\n\n") ::
    d.tables.entries.flatMap fun t => tableWritten t.1 t.2

/-- The statements of a dump, in order. -/
def Engine.written (e : Engine) : List WrittenStatement :=
  (e.databases.entries.filter fun d => !systemDbs.contains d.1).flatMap fun d => databaseWritten d.1 d.2

/-- The lines before the statements. -/
def dumpHeader (ts : Nat) : Str :=
  "-- RunAlexDB SQL dump\n" ++ "-- Generated: unix_ts=" ++ natToString ts ++ "\n\n"

theorem text_joinToks (sep : Str) (ws : List (List Tok)) :
    text (joinToks sep ws) = join sep (ws.map text) := by
  induction ws with
  | nil => rfl
  | cons w ws ih =>
    rcases ws with _ | ⟨w', ws⟩
    · rfl
    · show text (w ++ codes sep ++ joinToks sep (w' :: ws)) = _
      rw [text_append, text_append, text_codes, ih]
      rfl

@[simp] theorem text_valueToks (v : Value) : text (valueToks v) = dumpValue v := by
  cases v with
  | text s => exact List.append_nil _
  | bytes b => exact List.append_nil _
  | null => exact text_codes _
  | int i => exact text_codes _
  | float f => exact text_codes _

theorem text_rowToks (row : Row) : text (rowToks row) = dumpRow row := by
  unfold rowToks dumpRow
  rw [text_append, text_append, text_codes, text_codes, text_joinToks, List.map_map]
  exact congrArg (fun vs => _ ++ join _ vs ++ _) (List.map_congr_left fun v _ => text_valueToks v)

theorem text_insertToks (name : Str) (t : Table) : text (insertToks name t) =
    "INSERT INTO " ++ backticked name ++ " (" ++ join ", " (t.columns.map fun c => backticked c.name) ++
      ") VALUES\n" ++ join ",\n" (t.rows.map dumpRow) ++ ";" := by
  unfold insertToks
  rw [text_append, text_append, text_codes, text_codes, text_joinToks, List.map_map]
  exact congrArg (fun rows => _ ++ join _ rows ++ _) (List.map_congr_left fun row _ => text_rowToks row)

theorem dumpTable_eq (name : Str) (t : Table) :
    dumpTable name t = (tableWritten name t).flatMap WrittenStatement.text := by
  have hCreate : dumpCreate name t = WrittenStatement.text (createToks name t, "\n\n") := by
    unfold WrittenStatement.text dumpCreate createToks
    rw [text_codes]
    simp only [List.append_assoc]
    rfl
  have hInsert : dumpInsert name t = WrittenStatement.text (insertToks name t, "\n\n") := by
    unfold WrittenStatement.text dumpInsert
    rw [text_insertToks]
    simp only [List.append_assoc]
    rfl
  unfold dumpTable tableWritten
  rw [List.flatMap_cons, hCreate]
  congr 1
  split
  · rfl
  · rw [hInsert]
    exact (List.append_nil _).symm

theorem dumpDatabase_eq (name : Str) (d : Database) :
    dumpDatabase name d = (databaseWritten name d).flatMap WrittenStatement.text := by
  have hTables : (d.tables.entries.map fun t => dumpTable t.1 t.2).flatten =
      (d.tables.entries.flatMap fun t => tableWritten t.1 t.2).flatMap WrittenStatement.text := by
    rw [List.flatMap_assoc]
    exact congrArg (List.flatMap · d.tables.entries) (funext fun t => dumpTable_eq t.1 t.2)
  unfold dumpDatabase databaseWritten
  rw [List.flatMap_cons, List.flatMap_cons, hTables]
  unfold WrittenStatement.text databaseToks useToks
  rw [text_codes, text_codes]
  simp only [List.append_assoc]
  rfl

/-- A dump is its header and its statements. -/
theorem dumpSql_eq (e : Engine) (ts : Nat) :
    e.dumpSql ts = dumpHeader ts ++ e.written.flatMap WrittenStatement.text := by
  unfold Engine.dumpSql dumpHeader Engine.written
  rw [List.flatMap_assoc]
  congr 1
  exact congrArg (List.flatMap · _) (funext fun d => dumpDatabase_eq d.1 d.2)

-- ---------------------------------------------------------------------------
-- What a restore takes out
-- ---------------------------------------------------------------------------

theorem noBreak_natToString (n : Nat) : '\n' ∉ natToString n := by
  intro hMem
  exact absurd (isDigit_natToString hMem) (by decide)

theorem feedText_header (ts : Nat) (st : List Str × Str) (s : Str) :
    feedText st (dumpHeader ts ++ s) = feedText st s := by
  have hLine : ∀ l : Str, isComment l = true → '\n' ∉ l →
      ∀ t, feedText st (l ++ '\n' :: t) = feedText st t := by
    intro l hComment hBreak t
    rw [feedText_append]
    unfold feedText
    rw [split_of_noBreak hBreak, List.foldl_cons, List.foldl_nil,
      feed_skipped (by rw [hComment, Bool.true_or])]
  have hText : dumpHeader ts ++ s =
      "-- RunAlexDB SQL dump" ++ '\n' ::
        ("-- Generated: unix_ts=" ++ natToString ts ++ '\n' :: ([] ++ '\n' :: s)) := by
    unfold dumpHeader
    simp only [List.append_assoc, List.nil_append]
    rfl
  rw [hText, hLine _ (by decide) (by decide), hLine, feedText_append]
  · rfl
  · exact (isComment_iff _).2 ⟨[], _, fun c hc => (nomatch hc), rfl⟩
  · intro hMem
    rcases List.mem_append.1 hMem with hMem | hMem
    · exact absurd hMem (by decide)
    · exact noBreak_natToString ts hMem

theorem feedText_written {ws : List WrittenStatement} (h : ∀ w ∈ ws, w.2 = "\n" ∨ w.2 = "\n\n")
    (st : List Str × Str) :
    feedText st (ws.flatMap WrittenStatement.text) = (linesOf (ws.map Prod.fst)).foldl feed st := by
  induction ws generalizing st with
  | nil => exact feed_blank (l := []) rfl st
  | cons w ws ih =>
    have hRest := ih (fun v hv => h v (List.mem_cons_of_mem w hv)) (feedText st (text w.1))
    have hLines : linesOf ((w :: ws).map Prod.fst) = split '\n' (text w.1) ++ linesOf (ws.map Prod.fst) :=
      List.flatMap_cons
    rw [hLines, List.foldl_append]
    refine Eq.trans ?_ hRest
    unfold WrittenStatement.text
    rw [List.flatMap_cons]
    rcases h w (List.mem_cons_self ..) with hGap | hGap
    · rw [hGap, List.append_assoc]
      exact feedText_append ..
    · have hText : text w.1 ++ w.2 ++ ws.flatMap WrittenStatement.text =
          text w.1 ++ '\n' :: ([] ++ '\n' :: ws.flatMap WrittenStatement.text) := by
        rw [hGap, List.append_assoc]
        rfl
      refine (congrArg _ hText).trans ?_
      rw [feedText_append, feedText_append]
      rfl

/-- The texts that a restore takes out of a dump. -/
theorem restoredTexts_dumpSql (e : Engine) (ts : Nat) :
    restoredTexts (e.dumpSql ts) = ((linesOf (e.written.map Prod.fst)).foldl feed ([], [])).1 := by
  have hGaps : ∀ w ∈ e.written, w.2 = "\n" ∨ w.2 = "\n\n" := by
    intro w hw
    obtain ⟨d, -, hw⟩ := List.mem_flatMap.1 hw
    rcases List.mem_cons.1 hw with rfl | hw
    · exact .inl rfl
    · rcases List.mem_cons.1 hw with rfl | hw
      · exact .inr rfl
      · obtain ⟨t, -, hw⟩ := List.mem_flatMap.1 hw
        rcases List.mem_cons.1 hw with rfl | hw
        · exact .inr rfl
        · split at hw
          · cases hw
          · rw [List.mem_singleton.1 hw]
            exact .inr rfl
  rw [restoredTexts_eq, dumpSql_eq, feedText_header, feedText_written hGaps]

-- ---------------------------------------------------------------------------
-- Its literals
-- ---------------------------------------------------------------------------

theorem mem_codes {s : Str} {l : Str} : Tok.literal l ∉ codes s := by
  intro h
  obtain ⟨c, -, hc⟩ := List.mem_map.1 h
  cases hc

theorem mem_joinToks {sep : Str} {ws : List (List Tok)} {l : Str} :
    Tok.literal l ∈ joinToks sep ws ↔ ∃ w ∈ ws, Tok.literal l ∈ w := by
  induction ws with
  | nil => simp [joinToks]
  | cons w ws ih =>
    rcases ws with _ | ⟨w', ws⟩
    · simp [joinToks]
    · have hCons : Tok.literal l ∈ joinToks sep (w :: w' :: ws) ↔
          Tok.literal l ∈ w ∨ Tok.literal l ∈ joinToks sep (w' :: ws) := by
        show Tok.literal l ∈ w ++ codes sep ++ joinToks sep (w' :: ws) ↔ _
        rw [List.mem_append, List.mem_append, or_iff_left mem_codes]
      rw [hCons, ih]
      simp only [List.mem_cons, exists_eq_or_imp]

/-- The literals of a value. -/
inductive IsLiteral : Value → Str → Prop
  | text (s : Str) : IsLiteral (.text s) (dumpValue (.text s))
  | bytes (b : List UInt8) : IsLiteral (.bytes b) (dumpValue (.bytes b))

theorem mem_valueToks {v : Value} {l : Str} : Tok.literal l ∈ valueToks v ↔ IsLiteral v l := by
  constructor
  · intro h
    cases v with
    | text s =>
      rw [Tok.literal.inj (List.mem_singleton.1 h)]
      exact .text s
    | bytes b =>
      rw [Tok.literal.inj (List.mem_singleton.1 h)]
      exact .bytes b
    | null => exact absurd h mem_codes
    | int i => exact absurd h mem_codes
    | float f => exact absurd h mem_codes
  · rintro (s | b)
    · exact List.mem_singleton.2 rfl
    · exact List.mem_singleton.2 rfl

theorem mem_insertToks {name : Str} {t : Table} {l : Str} :
    Tok.literal l ∈ insertToks name t ↔ ∃ row ∈ t.rows, ∃ v ∈ row, IsLiteral v l := by
  have hRow : ∀ row : Row, Tok.literal l ∈ rowToks row ↔ ∃ v ∈ row, IsLiteral v l := by
    intro row
    unfold rowToks
    rw [List.mem_append, List.mem_append, or_iff_left mem_codes, or_iff_right mem_codes, mem_joinToks]
    simp only [List.mem_map, exists_exists_and_eq_and, mem_valueToks]
  unfold insertToks
  rw [List.mem_append, List.mem_append, or_iff_left mem_codes, or_iff_right mem_codes, mem_joinToks]
  simp only [List.mem_map, exists_exists_and_eq_and, hRow]

theorem literal_closed {v : Value} {l : Str} (h : IsLiteral v l) : l ≠ [] ∧ Trimmed l := by
  have hQuoted : ∀ (c : Char) (s : Str), isWhitespace c = false → c :: s ++ ['\''] ≠ [] ∧
      Trimmed (c :: s ++ ['\'']) := by
    intro c s hc
    refine ⟨List.cons_ne_nil _ _, fun d hd => ?_, fun d hd => ?_⟩
    · rw [← Option.some.inj hd]
      exact hc
    · rw [List.getLast?_concat] at hd
      rw [← Option.some.inj hd]
      decide
  rcases h with s | b
  · exact hQuoted '\'' _ (by decide)
  · exact hQuoted 'X' ('\'' :: hexEncode b) (by decide)

theorem mem_escape {s : Str} :
    '\n' ∈ replaceChar '\'' "\\'" (replaceChar '\\' "\\\\" s) ↔ '\n' ∈ s := by
  have hReplace : ∀ (c : Char) (new t : Str), '\n' ≠ c → '\n' ∉ new →
      ('\n' ∈ replaceChar c new t ↔ '\n' ∈ t) := by
    intro c new t hc hNew
    unfold replaceChar
    rw [List.mem_flatMap]
    constructor
    · rintro ⟨d, hd, hMem⟩
      split at hMem
      · exact absurd hMem hNew
      · rwa [List.mem_singleton.1 hMem]
    · intro hMem
      exact ⟨'\n', hMem, by rw [if_neg hc]; exact List.mem_singleton.2 rfl⟩
  rw [hReplace _ _ _ (by decide) (by decide), hReplace _ _ _ (by decide) (by decide)]

theorem noBreak_hexEncode (b : List UInt8) : '\n' ∉ hexEncode b := by
  intro hMem
  exact absurd (mem_hexEncode hMem) (by decide)

/-- The values of a literal on one line are the texts without line breaks and the blobs. -/
theorem noBreak_literals (row : Row) :
    (∀ v ∈ row, ∀ l, IsLiteral v l → '\n' ∉ l) ↔ ∀ s, Value.text s ∈ row → '\n' ∉ s := by
  have hText : ∀ s : Str, '\n' ∈ dumpValue (.text s) ↔ '\n' ∈ s := by
    intro s
    show '\n' ∈ '\'' :: _ ++ ['\''] ↔ _
    rw [List.mem_append, List.mem_cons, mem_escape]
    simp
  constructor
  · intro h s hs hMem
    exact h _ hs _ (.text s) ((hText s).2 hMem)
  · rintro h v hv l (s | b)
    · exact fun hMem => h s hv ((hText s).1 hMem)
    · intro hMem
      rcases List.mem_append.1 hMem with hMem | hMem
      · rcases List.mem_append.1 hMem with hMem | hMem
        · exact absurd hMem (by decide)
        · exact noBreak_hexEncode b hMem
      · exact absurd hMem (by decide)

-- ---------------------------------------------------------------------------
-- Each stays one statement
-- ---------------------------------------------------------------------------

theorem oneStatement_database (name : Str) : OneStatement (text (databaseToks name)) ↔ SafeLines name := by
  have hText : text (databaseToks name) =
      'C' :: ("REATE DATABASE IF NOT EXISTS " ++ (backticked name ++ ([';'] : Str))) := by
    unfold databaseToks
    rw [text_codes, List.append_assoc]
    rfl
  rw [hText, oneStatement_iff (by decide), safeLines_backticked]
  have hStart : SafeLines "REATE DATABASE IF NOT EXISTS " := safeLines_of_noBreak (by decide)
  have hLast : SafeLines [';'] := safeLines_of_noBreak (by decide)
  simp only [hStart, hLast, true_and, and_true]

theorem oneStatement_use (name : Str) : OneStatement (text (useToks name)) ↔ SafeLines name := by
  have hText : text (useToks name) = 'U' :: ("SE " ++ (backticked name ++ ([';'] : Str))) := by
    unfold useToks
    rw [text_codes, List.append_assoc]
    rfl
  rw [hText, oneStatement_iff (by decide), safeLines_backticked]
  have hStart : SafeLines "SE " := safeLines_of_noBreak (by decide)
  have hLast : SafeLines [';'] := safeLines_of_noBreak (by decide)
  simp only [hStart, hLast, true_and, and_true]

theorem noBreak_ddl (ty : ColumnType) : '\n' ∉ ty.ddl := by
  cases ty with
  | varChar n =>
    intro hMem
    rcases List.mem_append.1 hMem with hMem | hMem
    · rcases List.mem_append.1 hMem with hMem | hMem
      · exact absurd hMem (by decide)
      · exact noBreak_natToString _ hMem
    · exact absurd hMem (by decide)
  | int => decide
  | bigInt => decide
  | float => decide
  | text => decide
  | blob => decide
  | timestamp => decide

/-- What a column definition ends with. -/
def typeText (c : Column) : Str := c.colType.ddl ++ (if c.primaryKey then " PRIMARY KEY" else "")

/-- It is a letter or a bracket. -/
theorem typeText_cut (c : Column) :
    ∃ (s : Str) (d : Char), typeText c = s ++ [d] ∧ Anchor d ∧ '\n' ∉ s := by
  unfold typeText
  cases c.primaryKey with
  | true =>
    refine ⟨c.colType.ddl ++ " PRIMARY KE", 'Y', by rw [List.append_assoc]; rfl, by decide, ?_⟩
    intro hMem
    rcases List.mem_append.1 hMem with hMem | hMem
    · exact noBreak_ddl _ hMem
    · exact absurd hMem (by decide)
  | false =>
    cases c.colType with
    | varChar n =>
      refine ⟨"VARCHAR(" ++ natToString n.toNat, ')', List.append_nil _, by decide, fun hMem => ?_⟩
      rcases List.mem_append.1 hMem with hMem | hMem
      · exact absurd hMem (by decide)
      · exact noBreak_natToString _ hMem
    | int => exact ⟨("IN" : Str), 'T', rfl, by decide, by decide⟩
    | bigInt => exact ⟨("BIGIN" : Str), 'T', rfl, by decide, by decide⟩
    | float => exact ⟨("DOUBL" : Str), 'E', rfl, by decide, by decide⟩
    | text => exact ⟨("TEX" : Str), 'T', rfl, by decide, by decide⟩
    | blob => exact ⟨("BLO" : Str), 'B', rfl, by decide, by decide⟩
    | timestamp => exact ⟨("TIMESTAM" : Str), 'P', rfl, by decide, by decide⟩

theorem oneStatement_create (name : Str) (t : Table) :
    OneStatement (text (createToks name t)) ↔ SafeLines name ∧ ∀ c ∈ t.columns, SafeLines c.name := by
  have hColumn : ∀ c ∈ t.columns, ∀ u,
      SafeLines ("\n" ++ (dumpColumn c ++ u)) ↔ SafeLines c.name ∧ SafeLines u := by
    intro c _ u
    obtain ⟨s, d, hType, hAnchor, hBreak⟩ := typeText_cut c
    have hText : ("\n" : Str) ++ (dumpColumn c ++ u) =
        "\n  " ++ (backticked c.name ++ ((' ' :: s) ++ d :: u)) := by
      have hColumn : dumpColumn c = "  " ++ backticked c.name ++ " " ++ typeText c := by
        unfold dumpColumn typeText
        rw [List.append_assoc]
      rw [hColumn, hType]
      simp only [List.append_assoc]
      rfl
    have hBlank : SafeLines (' ' :: s) := by
      refine safeLines_of_noBreak fun hMem => ?_
      rcases List.mem_cons.1 hMem with hMem | hMem
      · exact absurd hMem (by decide)
      · exact hBreak hMem
    have hStart : SafeLines "\n  " := by decide
    rw [hText, safeLines_backticked, safeLines_anchor hAnchor]
    simp only [hStart, hBlank, true_and]
  have hText : text (createToks name t) = 'C' :: ("REATE TABLE IF NOT EXISTS " ++ (backticked name ++
      ([' '] ++ '(' :: ("\n" ++ (join ",\n" (t.columns.map dumpColumn) ++ ("\n);" : Str)))))) := by
    unfold createToks
    rw [text_codes]
    simp only [List.append_assoc]
    rfl
  have hItems := safeLines_items (p := "\n") (t := "\n);") hColumn (by decide) (by decide)
  have hStart : SafeLines "REATE TABLE IF NOT EXISTS " := safeLines_of_noBreak (by decide)
  have hBlank : SafeLines [' '] := safeLines_of_noBreak (by decide)
  rw [hText, oneStatement_iff (by decide), safeLines_backticked, safeLines_anchor (by decide)]
  simp only [hStart, hBlank, true_and]
  exact and_congr_right fun _ => hItems

theorem noBreak_join {sep : Str} (hSep : '\n' ∉ sep) {xs : List Str} (h : ∀ x ∈ xs, '\n' ∉ x) :
    '\n' ∉ join sep xs := by
  induction xs with
  | nil => exact List.not_mem_nil
  | cons x xs ih =>
    have hHere := h x (List.mem_cons_self ..)
    have hRest := ih fun y hy => h y (List.mem_cons_of_mem x hy)
    rcases xs with _ | ⟨x', xs⟩
    · exact hHere
    · intro hMem
      rcases List.mem_append.1 hMem with hMem | hMem
      · rcases List.mem_append.1 hMem with hMem | hMem
        · exact hHere hMem
        · exact hSep hMem
      · exact hRest hMem

theorem noBreak_dumpValue (hFloat : ∀ f, '\n' ∉ f64ToString f) {v : Value}
    (h : ∀ l, IsLiteral v l → '\n' ∉ l) : '\n' ∉ dumpValue v := by
  cases v with
  | null => exact (by decide : '\n' ∉ ("NULL" : Str))
  | int i =>
    intro hMem
    rcases mem_i64ToString hMem with hSign | hDigit
    · exact absurd hSign (by decide)
    · exact absurd hDigit (by decide)
  | float f => exact hFloat f
  | text s => exact h _ (.text s)
  | bytes b => exact h _ (.bytes b)

theorem oneStatement_insert (hFloat : ∀ f, '\n' ∉ f64ToString f) (name : Str) (t : Table)
    (hLines : ∀ row ∈ t.rows, ∀ v ∈ row, ∀ l, IsLiteral v l → '\n' ∉ l) :
    OneStatement (text (insertToks name t)) ↔ SafeLines name ∧ ∀ c ∈ t.columns, SafeLines c.name := by
  have hRow : ∀ row ∈ t.rows, ∀ u, SafeLines ("\n" ++ (dumpRow row ++ u)) ↔ True ∧ SafeLines u := by
    intro row hRow u
    have hText : ("\n" : Str) ++ (dumpRow row ++ u) =
        "\n  " ++ '(' :: (join ", " (row.map dumpValue) ++ ')' :: u) := by
      unfold dumpRow
      simp only [List.append_assoc]
      rfl
    have hValues : SafeLines (join ", " (row.map dumpValue)) := by
      refine safeLines_of_noBreak (noBreak_join (by decide) fun x hx => ?_)
      obtain ⟨v, hv, rfl⟩ := List.mem_map.1 hx
      exact noBreak_dumpValue hFloat (hLines row hRow v hv)
    have hStart : SafeLines "\n  " := by decide
    rw [hText, safeLines_anchor (by decide), safeLines_anchor (by decide)]
    simp only [hStart, hValues, true_and]
  have hColumn : ∀ c ∈ t.columns, ∀ u,
      SafeLines (" " ++ (backticked c.name ++ u)) ↔ SafeLines c.name ∧ SafeLines u := by
    intro c _ u
    have hBlank : SafeLines " " := safeLines_of_noBreak (by decide)
    rw [safeLines_backticked]
    simp only [hBlank, true_and]
  have hRows : SafeLines ("\n" ++ (join ",\n" (t.rows.map dumpRow) ++ ([';'] : Str))) :=
    (safeLines_items (p := "\n") (t := [';']) hRow (by decide) (by decide)).2 fun _ _ => trivial
  have hNames : SafeLines (join ", " (t.columns.map fun c => backticked c.name)) ↔
      ∀ c ∈ t.columns, SafeLines c.name := by
    have hItems := safeLines_items (p := " ") (t := []) hColumn (by decide) (by decide)
    rw [List.append_nil] at hItems
    refine Iff.trans ?_ hItems
    have hBlank : SafeLines " " := safeLines_of_noBreak (by decide)
    have hNil : SafeLines [] := safeLines_of_noBreak (by decide)
    cases hCols : t.columns with
    | nil => exact iff_of_true hNil hBlank
    | cons c cols =>
      obtain ⟨rest, hRest⟩ : ∃ rest, join (", " : Str) ((c :: cols).map fun c => backticked c.name) =
          '`' :: rest := by
        cases cols <;> exact ⟨_, rfl⟩
      have hWith := safeLines_anchor (c := '`') (by decide) (" " : Str) rest
      have hWithout := safeLines_anchor (c := '`') (by decide) [] rest
      rw [and_iff_right hBlank] at hWith
      rw [and_iff_right hNil] at hWithout
      change SafeLines _ ↔ SafeLines ((" " : Str) ++ join (", " : Str) _)
      rw [hRest, hWith]
      exact hWithout
  have hText : text (insertToks name t) = 'I' :: ("NSERT INTO " ++ (backticked name ++ ([' '] ++ '(' ::
      (join ", " (t.columns.map fun c => backticked c.name) ++ ')' :: (" VALUE" ++ 'S' ::
        ("\n" ++ (join ",\n" (t.rows.map dumpRow) ++ ([';'] : Str)))))))) := by
    rw [text_insertToks]
    simp only [List.append_assoc]
    rfl
  have hStart : SafeLines "NSERT INTO " := safeLines_of_noBreak (by decide)
  have hBlank : SafeLines [' '] := safeLines_of_noBreak (by decide)
  have hValue : SafeLines " VALUE" := safeLines_of_noBreak (by decide)
  rw [hText, oneStatement_iff (by decide), safeLines_backticked, safeLines_anchor (by decide),
    safeLines_anchor (by decide), safeLines_anchor (by decide)]
  simp only [hStart, hBlank, hValue, hRows, hNames, true_and, and_true]

-- ---------------------------------------------------------------------------
-- The whole dump
-- ---------------------------------------------------------------------------

/-- A statement that a restore takes out as it is. -/
def Kept (w : List Tok) : Prop := (∀ l, Tok.literal l ∈ w → '\n' ∉ l) ∧ OneStatement (text w)

theorem kept_of_codes {s : Str} : Kept (codes s) ↔ OneStatement (text (codes s)) :=
  and_iff_right fun _ hl => absurd hl mem_codes

/-- The rows of the table have no text with a line break. -/
def Table.TextsOnLines (t : Table) : Prop := ∀ row ∈ t.rows, ∀ s, Value.text s ∈ row → '\n' ∉ s

theorem kept_insert (hFloat : ∀ f, '\n' ∉ f64ToString f) (name : Str) (t : Table) :
    Kept (insertToks name t) ↔
      t.TextsOnLines ∧ SafeLines name ∧ ∀ c ∈ t.columns, SafeLines c.name := by
  have hLiterals : (∀ l, Tok.literal l ∈ insertToks name t → '\n' ∉ l) ↔ t.TextsOnLines := by
    simp only [mem_insertToks]
    constructor
    · intro h row hRow
      exact (noBreak_literals row).1 fun v hv l hl => h l ⟨row, hRow, v, hv, hl⟩
    · rintro h l ⟨row, hRow, v, hv, hl⟩
      exact (noBreak_literals row).2 (h row hRow) v hv l hl
  unfold Kept
  rw [hLiterals]
  refine and_congr_right fun hTexts => oneStatement_insert hFloat name t fun row hRow => ?_
  exact (noBreak_literals row).2 (hTexts row hRow)

/-- A table whose names and texts leave its statements as they are. -/
def OnLines (name : Str) (t : Table) : Prop :=
  SafeLines name ∧ (∀ c ∈ t.columns, SafeLines c.name) ∧ t.TextsOnLines

theorem kept_table (hFloat : ∀ f, '\n' ∉ f64ToString f) (name : Str) (t : Table) :
    (∀ w ∈ tableWritten name t, Kept w.1) ↔ OnLines name t := by
  have hCreate : Kept (createToks name t) ↔ SafeLines name ∧ ∀ c ∈ t.columns, SafeLines c.name :=
    kept_of_codes.trans (oneStatement_create name t)
  unfold tableWritten OnLines
  rw [List.forall_mem_cons, hCreate]
  split
  · rename_i hNone
    have hTexts : t.TextsOnLines := by
      intro row hRow
      rw [List.isEmpty_iff.1 hNone] at hRow
      cases hRow
    constructor
    · rintro ⟨⟨hName, hCols⟩, -⟩
      exact ⟨hName, hCols, hTexts⟩
    · rintro ⟨hName, hCols, -⟩
      exact ⟨⟨hName, hCols⟩, fun w hw => nomatch hw⟩
  · rw [List.forall_mem_singleton, kept_insert hFloat]
    constructor
    · rintro ⟨⟨hName, hCols⟩, hTexts, -⟩
      exact ⟨hName, hCols, hTexts⟩
    · rintro ⟨hName, hCols, hTexts⟩
      exact ⟨⟨hName, hCols⟩, hTexts, hName, hCols⟩

/-- Every dumped text stays on its line, and every dumped name leaves its statement one. -/
def Engine.DumpsOnLines (e : Engine) : Prop :=
  ∀ d ∈ e.databases.entries, systemDbs.contains d.1 = false →
    SafeLines d.1 ∧ ∀ t ∈ d.2.tables.entries, OnLines t.1 t.2

theorem kept_written (hFloat : ∀ f, '\n' ∉ f64ToString f) (e : Engine) :
    (∀ w ∈ e.written, Kept w.1) ↔ e.DumpsOnLines := by
  have hDatabase : ∀ (name : Str) (d : Database), (∀ w ∈ databaseWritten name d, Kept w.1) ↔
      SafeLines name ∧ ∀ t ∈ d.tables.entries, OnLines t.1 t.2 := by
    intro name d
    have hName : Kept (databaseToks name) ↔ SafeLines name := kept_of_codes.trans (oneStatement_database name)
    have hUse : Kept (useToks name) ↔ SafeLines name := kept_of_codes.trans (oneStatement_use name)
    unfold databaseWritten
    rw [List.forall_mem_cons, List.forall_mem_cons, hName, hUse, List.forall_mem_flatMap]
    simp only [kept_table hFloat, ← and_assoc, and_self]
  unfold Engine.written Engine.DumpsOnLines
  rw [List.forall_mem_flatMap]
  simp only [List.mem_filter, hDatabase, Bool.not_eq_true', and_imp]

/-- What the dump wrote is what a restore takes out of it, up to blanks outside literals. -/
def Engine.RestoresAsWritten (e : Engine) (ts : Nat) : Prop :=
  List.Forall₂ ReadsAs (e.written.map Prod.fst) (restoredTexts (e.dumpSql ts))

/-- Every statement of a dump ends with `;`. -/
theorem exists_written {e : Engine} {w : WrittenStatement} (hw : w ∈ e.written) :
    (∃ s, w.1 = codes (s ++ ";")) ∨ ∃ name t, w.1 = insertToks name t := by
  obtain ⟨d, -, hw⟩ := List.mem_flatMap.1 hw
  rcases List.mem_cons.1 hw with rfl | hw
  · exact .inl ⟨"CREATE DATABASE IF NOT EXISTS " ++ backticked d.1, rfl⟩
  · rcases List.mem_cons.1 hw with rfl | hw
    · exact .inl ⟨"USE " ++ backticked d.1, rfl⟩
    · obtain ⟨t, -, hw⟩ := List.mem_flatMap.1 hw
      rcases List.mem_cons.1 hw with rfl | hw
      · refine .inl ⟨"CREATE TABLE IF NOT EXISTS " ++ backticked t.1 ++ " (\n" ++
          join ",\n" (t.2.columns.map dumpColumn) ++ "\n)", ?_⟩
        unfold createToks
        rw [List.append_assoc _ ("\n)" : Str)]
        rfl
      · split at hw
        · cases hw
        · rw [List.mem_singleton.1 hw]
          exact .inr ⟨t.1, t.2, rfl⟩

theorem restores_kept (e : Engine) (ts : Nat) : e.RestoresAsWritten ts ↔ ∀ w ∈ e.written, Kept w.1 := by
  have hEnds : ∀ w ∈ e.written.map Prod.fst, EndsStatement (text w) := by
    intro w hw
    obtain ⟨w, hWritten, rfl⟩ := List.mem_map.1 hw
    rcases exists_written hWritten with ⟨s, hText⟩ | ⟨name, t, hText⟩
    · rw [hText, text_codes]
      exact endsStatement_semicolon s
    · rw [hText, text_insertToks]
      exact endsStatement_semicolon _
  have hLiterals : ∀ w ∈ e.written.map Prod.fst, ∀ l, Tok.literal l ∈ w → l ≠ [] ∧ Trimmed l := by
    intro w hw l hl
    obtain ⟨w, hWritten, rfl⟩ := List.mem_map.1 hw
    rcases exists_written hWritten with ⟨s, hText⟩ | ⟨name, t, hText⟩
    · rw [hText] at hl
      exact absurd hl mem_codes
    · rw [hText] at hl
      obtain ⟨row, -, v, -, hLiteral⟩ := mem_insertToks.1 hl
      exact literal_closed hLiteral
  unfold Engine.RestoresAsWritten
  rw [restoredTexts_dumpSql, readsAs_iff hEnds hLiterals, List.forall_mem_map]
  rfl

/-- A restore takes out of a dump what was written exactly when no dumped text has a
line break and no dumped name has one that is followed by `--` or preceded by `;`. -/
theorem restoresAsWritten_iff (hFloat : ∀ f, '\n' ∉ f64ToString f) (e : Engine) (ts : Nat) :
    e.RestoresAsWritten ts ↔ e.DumpsOnLines := (restores_kept e ts).trans (kept_written hFloat e)

end Dumps

section Notes

local instance notesPlatform : Platform := tablePlatform []

/-- A table with one row. -/
def noteTable (s : Str) : Table :=
  (Table.create "shop" "notes" [⟨"note", .varChar 255, true, false⟩] []).push [.text s]

def engineOfNote (s : Str) : Engine :=
  { Engine.fresh [] with
    databases := HashMap.ofList [("shop", ⟨"shop", HashMap.ofList [("notes", noteTable s)]⟩)] }

theorem restoresAsWritten_iff_note : (engineOfNote " -- a;").RestoresAsWritten 0 := by
  refine (restoresAsWritten_iff (fun _ => List.not_mem_nil) (engineOfNote " -- a;") 0).2 fun d hd _ => ?_
  rw [List.mem_singleton.1 hd]
  refine ⟨by decide, fun t ht => ?_⟩
  rw [List.mem_singleton.1 ht]
  refine ⟨by decide, by decide, fun row hRow s hs => ?_⟩
  rw [List.mem_singleton.1 hRow] at hs
  rw [Value.text.inj (List.mem_singleton.1 hs)]
  decide

theorem not_restoresAsWritten : ¬ ∀ (e : Engine) (ts : Nat), e.RestoresAsWritten ts := by
  intro hAll
  have hKept := (restores_kept _ 0).1 (hAll (engineOfNote "a\nb") 0)
  have hLiteral : Tok.literal (dumpValue (.text "a\nb")) ∈ insertToks "notes" (noteTable "a\nb") :=
    mem_insertToks.2 ⟨[.text "a\nb"], List.mem_singleton.2 rfl, _, List.mem_singleton.2 rfl, .text _⟩
  have hInsert : Kept (insertToks "notes" (noteTable "a\nb")) := by
    refine hKept (insertToks "notes" (noteTable "a\nb"), "\n\n") ?_
    refine List.mem_flatMap.2 ⟨_, List.mem_singleton.2 rfl, ?_⟩
    refine List.mem_cons_of_mem _ (List.mem_cons_of_mem _ ?_)
    refine List.mem_flatMap.2 ⟨_, List.mem_singleton.2 rfl, ?_⟩
    exact List.mem_cons_of_mem _ (List.mem_singleton.2 rfl)
  exact hInsert.1 _ hLiteral (by decide)

end Notes

end RunAlexDb
