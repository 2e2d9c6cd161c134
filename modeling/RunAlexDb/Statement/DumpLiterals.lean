import RunAlexDb.Lib.Digits
import RunAlexDb.Lib.QuotedTexts
import RunAlexDb.Model.Concrete
import RunAlexDb.Model.Dump

/-!
# DumpLiterals — the literals of a dump, read back

`dump_sql` doubles the backslashes of a text and then puts one in front of each quote.
Together that escapes both characters, so that a text value is read back from the dump
as it is, up to the closing quote, and the literals of a row are its texts and blobs.

Main results: `readLiteral_dumpRow`, `scans_dumpRow`.
-/

namespace RunAlexDb

open Text Platform QuotedTexts

-- ---------------------------------------------------------------------------
-- Joined texts
-- ---------------------------------------------------------------------------

theorem join_cons (sep x : Str) (xs : List Str) :
    join sep (x :: xs) = x ++ xs.flatMap fun y => sep ++ y := by
  induction xs generalizing x with
  | nil => exact (List.append_nil x).symm
  | cons y ys ih =>
    rw [join, ih, List.flatMap_cons, List.append_assoc, List.append_assoc]
    nofun

theorem join_append_cons (sep x : Str) (xs ys : List Str) :
    join sep (xs ++ x :: ys) =
      (xs.flatMap fun y => y ++ sep) ++ (x ++ ys.flatMap fun y => sep ++ y) := by
  induction xs with
  | nil => exact join_cons sep x ys
  | cons z zs ih =>
    rw [List.cons_append, join, ih, List.flatMap_cons, List.append_assoc, List.append_assoc,
      List.append_assoc]
    cases zs <;> nofun

-- ---------------------------------------------------------------------------
-- One value
-- ---------------------------------------------------------------------------

/-- A literal by the rules of MySQL: what it denotes, and the text behind it. -/
def readLiteral : Str → Option (Str × Str)
  | '\'' :: s => readQuoted '\'' '\\' s
  | _ => none

theorem replaceChar_append (c : Char) (new s t : Str) :
    replaceChar c new (s ++ t) = replaceChar c new s ++ replaceChar c new t :=
  List.flatMap_append

/-- The two replacements escape each character once. -/
theorem replaceChar_escape (s : Str) :
    replaceChar '\'' "\\'" (replaceChar '\\' "\\\\" s) = escape '\'' '\\' s := by
  induction s with
  | nil => rfl
  | cons c s ih =>
    have hHead : replaceChar '\'' "\\'" (if c = '\\' then ("\\\\" : Str) else [c]) =
        escapeChar '\'' '\\' c := by
      unfold escapeChar
      by_cases hEsc : c = '\\'
      · subst hEsc
        decide
      · by_cases hQuote : c = '\''
        · subst hQuote
          decide
        · rw [if_neg hEsc, if_neg (not_or.2 ⟨hEsc, hQuote⟩)]
          show (if c = '\'' then _ else [c]) ++ [] = _
          rw [if_neg hQuote, List.append_nil]
    have hCons : replaceChar '\\' "\\\\" (c :: s) =
        (if c = '\\' then ("\\\\" : Str) else [c]) ++ replaceChar '\\' "\\\\" s := List.flatMap_cons
    rw [hCons, replaceChar_append, ih, hHead, escape_cons]

section Rows

variable [Platform]

theorem dumpValue_text (s : Str) :
    dumpValue (.text s) = '\'' :: (escape '\'' '\\' s ++ ['\'']) := by
  rw [← replaceChar_escape]
  rfl

theorem readLiteral_text (s : Str) {rest : Str} (h : rest.head? ≠ some '\'') :
    readLiteral (dumpValue (.text s) ++ rest) = some (s, rest) := by
  rw [dumpValue_text, List.cons_append, List.append_assoc]
  exact readQuoted_escape (by decide) s h

-- ---------------------------------------------------------------------------
-- A row
-- ---------------------------------------------------------------------------

/-- The row up to a value, and behind it. -/
def rowLead (before : Row) : Str :=
  ("  (" : Str) ++ before.flatMap fun v => dumpValue v ++ (", " : Str)

def rowRest (after : Row) : Str := (after.flatMap fun v => (", " : Str) ++ dumpValue v) ++ (")" : Str)

/-- The row is what stands before a value, the value and what stands behind it. -/
theorem dumpRow_eq (before after : Row) (v : Value) :
    dumpRow (before ++ v :: after) = rowLead before ++ (dumpValue v ++ rowRest after) := by
  unfold dumpRow rowLead rowRest
  rw [List.map_append, List.map_cons, join_append_cons, List.flatMap_map, List.flatMap_map]
  simp only [List.append_assoc]

/-- A comma or a closing parenthesis follows a value. -/
theorem head_rowRest (after : Row) (tail : Str) :
    (rowRest after ++ tail).head? = some ',' ∨ (rowRest after ++ tail).head? = some ')' := by
  cases after with
  | nil => exact .inr rfl
  | cons v after => exact .inl rfl

theorem head_rowRest_ne (after : Row) (tail : Str) : (rowRest after ++ tail).head? ≠ some '\'' := by
  rcases head_rowRest after tail with hComma | hParen
  · rw [hComma]
    decide
  · rw [hParen]
    decide

/-- **Text literals.** In a dump a text value stands at its place in its row, with a comma or
a closing parenthesis behind its closing quote, and is read as it is up to there. -/
theorem readLiteral_dumpRow (before after : Row) (s tail : Str) :
    dumpRow (before ++ .text s :: after) ++ tail =
        rowLead before ++ (dumpValue (.text s) ++ (rowRest after ++ tail)) ∧
      ((rowRest after ++ tail).head? = some ',' ∨ (rowRest after ++ tail).head? = some ')') ∧
        readLiteral (dumpValue (.text s) ++ (rowRest after ++ tail)) =
          some (s, rowRest after ++ tail) := by
  refine ⟨?_, head_rowRest after tail, readLiteral_text s (head_rowRest_ne after tail)⟩
  rw [dumpRow_eq, List.append_assoc, List.append_assoc]

-- ---------------------------------------------------------------------------
-- The literals of a row
-- ---------------------------------------------------------------------------

/-- What a value writes as a literal. -/
def Value.literal? : Value → Option Str
  | .text s => some s
  | .bytes b => some (hexEncode b)
  | _ => none

theorem literals_cons (v : Value) (row : Row) :
    (v :: row).filterMap Value.literal? = v.literal?.toList ++ row.filterMap Value.literal? := by
  rw [List.filterMap_cons]
  cases v.literal? <;> rfl

/-- A value in front of a text that begins with no quote. -/
theorem scans_dumpValue (hFloat : ∀ f, '\'' ∉ f64ToString f) (v : Value) {tail : Str} {ls : List Str}
    (hHead : tail.head? ≠ some '\'') (h : Scans '\'' '\\' tail ls) :
    Scans '\'' '\\' (dumpValue v ++ tail) (v.literal?.toList ++ ls) := by
  cases v with
  | null => exact h.prepend (by decide : '\'' ∉ ("NULL" : Str))
  | int i =>
    refine h.prepend fun hMem => ?_
    rcases mem_i64ToString hMem with hSign | hDigit
    · exact absurd hSign (by decide)
    · exact absurd hDigit (by decide)
  | float f => exact h.prepend (hFloat f)
  | text s =>
    rw [dumpValue_text, List.cons_append, List.append_assoc]
    exact h.quoted (by decide) hHead
  | bytes b =>
    have hPlain : escape '\'' '\\' (hexEncode b) = hexEncode b := by
      refine escape_of_plain fun c hc => ⟨?_, ?_⟩
      · rintro rfl
        exact absurd (mem_hexEncode hc) (by decide)
      · rintro rfl
        exact absurd (mem_hexEncode hc) (by decide)
    have hQuoted := h.quoted (s := hexEncode b) (by decide : '\'' ≠ '\\') hHead
    have hX := hQuoted.prepend (by decide : '\'' ∉ ['X'])
    have hText : dumpValue (.bytes b) ++ tail =
        ['X'] ++ '\'' :: (escape '\'' '\\' (hexEncode b) ++ '\'' :: tail) := by
      rw [hPlain]
      show ("X'" : Str) ++ hexEncode b ++ ['\''] ++ tail = _
      simp only [List.append_assoc]
      rfl
    rw [hText]
    exact hX

theorem scans_rowRest (hFloat : ∀ f, '\'' ∉ f64ToString f) (after : Row) {tail : Str} {ls : List Str}
    (h : Scans '\'' '\\' tail ls) :
    Scans '\'' '\\' (rowRest after ++ tail) (after.filterMap Value.literal? ++ ls) := by
  induction after with
  | nil => exact h.prepend (by decide : '\'' ∉ (")" : Str))
  | cons v after ih =>
    have hScan := scans_dumpValue hFloat v (head_rowRest_ne after tail) ih
    have hValue := hScan.prepend (by decide : '\'' ∉ (", " : Str))
    have hText : rowRest (v :: after) ++ tail =
        (", " : Str) ++ (dumpValue v ++ (rowRest after ++ tail)) := by
      unfold rowRest
      rw [List.flatMap_cons]
      simp only [List.append_assoc]
    rw [hText, literals_cons, List.append_assoc]
    exact hValue

/-- **Rows.** The literals in a row are its texts and blobs, and nothing else in it is
between quotes. -/
theorem scans_dumpRow (hFloat : ∀ f, '\'' ∉ f64ToString f) (row : Row) :
    Scans '\'' '\\' (dumpRow row) (row.filterMap Value.literal?) := by
  cases row with
  | nil => exact .code (by decide : '\'' ∉ ("  ()" : Str))
  | cons v after =>
    have hRest := scans_rowRest hFloat after (.code (s := []) List.not_mem_nil)
    rw [List.append_nil, List.append_nil] at hRest
    have hHead := head_rowRest_ne after []
    rw [List.append_nil] at hHead
    have hValue := (scans_dumpValue hFloat v hHead hRest).prepend (by decide : '\'' ∉ ("  (" : Str))
    have hText : dumpRow (v :: after) = ("  (" : Str) ++ (dumpValue v ++ rowRest after) :=
      dumpRow_eq [] after v
    rw [hText, literals_cons]
    exact hValue

end Rows

end RunAlexDb
