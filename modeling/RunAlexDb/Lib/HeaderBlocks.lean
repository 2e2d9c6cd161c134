import RunAlexDb.Lib.Words

/-!
# HeaderBlocks — lines, an empty line, and the rest

A text that begins with lines, each ended by a carriage return and a line feed, then
has an empty line, and then whatever it carries. A reader that takes the lines to the
empty line, and what stands behind it, has what was written. A message is such a text
with a first line and fields of a name and a value.

Main results: `lines_block`, `after_block`, `readBlock_block` and `readMessage_message`.
-/

namespace HeaderBlocks

open Text

def crlf : Str := ['\r', '\n']

/-- Something, and no line end in it. -/
structure IsLine (l : Str) : Prop where
  some : l ≠ []
  noReturn : '\r' ∉ l
  noFeed : '\n' ∉ l

/-- Lines, each with its end. -/
def ended (ls : List Str) : Str := ls.flatMap (· ++ crlf)

def block (ls : List Str) (body : Str) : Str := ended ls ++ (crlf ++ body)

/-- The lines up to the empty one, and what stands behind it. -/
def readBlock (s : Str) : Option (List Str × Str) :=
  (after (crlf ++ crlf) s).map fun body => ((lines s).takeWhile (· ≠ []), body)

theorem isLine_of_all {l : Str}
    (h : (!l.isEmpty && l.all fun c => c != '\r' && c != '\n') = true) : IsLine l := by
  rw [Bool.and_eq_true, List.all_eq_true] at h
  refine ⟨?_, fun hIn => ?_, fun hIn => ?_⟩
  · rintro rfl
    exact Bool.false_ne_true h.1
  · have hc := h.2 _ hIn
    simp at hc
  · have hc := h.2 _ hIn
    simp at hc

theorem IsLine.append {a b : Str} (ha : IsLine a) (hReturn : '\r' ∉ b) (hFeed : '\n' ∉ b) :
    IsLine (a ++ b) where
  some := fun hNil => ha.some (List.append_eq_nil_iff.1 hNil).1
  noReturn hIn := (List.mem_append.1 hIn).elim ha.noReturn hReturn
  noFeed hIn := (List.mem_append.1 hIn).elim ha.noFeed hFeed

theorem IsLine.of_plainWord {w : Str} (h : PlainWord w) : IsLine w where
  some := h.some
  noReturn hIn := absurd (h.plain _ hIn) (by decide)
  noFeed hIn := absurd (h.plain _ hIn) (by decide)

theorem ended_cons (l : Str) (ls : List Str) : ended (l :: ls) = l ++ (crlf ++ ended ls) := by
  unfold ended
  rw [List.flatMap_cons, List.append_assoc]

theorem block_nil (body : Str) : block [] body = crlf ++ body := rfl

theorem block_cons (l : Str) (ls : List Str) (body : Str) :
    block (l :: ls) body = l ++ (crlf ++ block ls body) := by
  unfold block
  rw [ended_cons]
  simp only [List.append_assoc]

-- ---------------------------------------------------------------------------
-- Lines
-- ---------------------------------------------------------------------------

/-- The first line of a text. -/
theorem lines_line {l : Str} (hFeed : '\n' ∉ l) (rest : Str) :
    lines (l ++ (crlf ++ rest)) = l :: lines rest := by
  have hNone : ∀ c ∈ l ++ ['\r'], (c == '\n') = false := by
    intro c hIn
    rw [beq_eq_false_iff_ne]
    rintro rfl
    rcases List.mem_append.1 hIn with hIn | hIn
    · exact hFeed hIn
    · exact absurd (List.mem_singleton.1 hIn) (by decide)
  have hSplit : (l ++ (crlf ++ rest)).splitOnP (· == '\n') =
      (l ++ ['\r']) :: rest.splitOnP (· == '\n') := by
    have hCut : l ++ (crlf ++ rest) = (l ++ ['\r']) ++ '\n' :: rest := by simp [crlf]
    rw [hCut, List.splitOnP_append_cons _ _ (by rfl), List.splitOnP_eq_singleton hNone]
    rfl
  have hSome : rest.splitOnP (· == '\n') ≠ [] := List.splitOnP_ne_nil _ _
  have hLast : ((l ++ ['\r']) :: rest.splitOnP (· == '\n')).getLast? =
      (rest.splitOnP (· == '\n')).getLast? := by
    rcases hParts : rest.splitOnP (· == '\n') with _ | ⟨part, parts⟩
    · exact absurd hParts hSome
    · rw [List.getLast?_cons_cons]
  have hDrop : ((l ++ ['\r']) :: rest.splitOnP (· == '\n')).dropLast =
      (l ++ ['\r']) :: (rest.splitOnP (· == '\n')).dropLast := by
    rw [List.dropLast_cons_of_ne_nil hSome]
  unfold lines
  simp only [hSplit, hLast, hDrop]
  split
  · simp
  · simp

/-- The lines of a block, an empty one, and those of the rest. -/
theorem lines_block {ls : List Str} (h : ∀ l ∈ ls, IsLine l) (body : Str) :
    lines (block ls body) = ls ++ [] :: lines body := by
  induction ls with
  | nil => exact lines_line (l := []) List.not_mem_nil body
  | cons l ls ih =>
    rw [block_cons, lines_line (h l (List.mem_cons_self ..)).noFeed,
      ih fun x hx => h x (List.mem_cons_of_mem _ hx)]
    rfl

-- ---------------------------------------------------------------------------
-- The rest
-- ---------------------------------------------------------------------------

/-- Nothing is found in a text without the first character of the pattern. -/
theorem after_skip {d : Char} {l : Str} (h : d ∉ l) (pat s : Str) :
    after (d :: pat) (l ++ s) = after (d :: pat) s := by
  induction l with
  | nil => rfl
  | cons c l ih =>
    rw [List.mem_cons, not_or] at h
    obtain ⟨hHead, hTail⟩ := h
    have hNot : (d :: pat).isPrefixOf (c :: (l ++ s)) = false := by
      rw [List.isPrefixOf_cons_cons]
      simp [hHead]
    rw [List.cons_append, after, hNot]
    exact ih hTail

/-- What stands behind the empty line. -/
theorem after_block {l : Str} {ls : List Str} (h : ∀ x ∈ l :: ls, IsLine x) (body : Str) :
    after (crlf ++ crlf) (block (l :: ls) body) = some body := by
  have hPat : crlf ++ crlf = '\r' :: ['\n', '\r', '\n'] := rfl
  induction ls generalizing l with
  | nil =>
    rw [block_cons, hPat, after_skip (h l (List.mem_cons_self ..)).noReturn]
    rfl
  | cons next ls ih =>
    have hNext := h next (List.mem_cons_of_mem _ (List.mem_cons_self ..))
    have hRest := ih (l := next) fun x hx => h x (List.mem_cons_of_mem _ hx)
    rw [hPat] at hRest
    rw [block_cons, hPat, after_skip (h l (List.mem_cons_self ..)).noReturn]
    -- the next line begins with something else than a line end
    obtain ⟨c, tail, rfl⟩ := List.exists_cons_of_ne_nil hNext.some
    have hc : c ≠ '\r' := fun hEq => hNext.noReturn (by rw [hEq]; exact List.mem_cons_self ..)
    rw [block_cons] at hRest ⊢
    show after ['\r', '\n', '\r', '\n'] ('\r' :: '\n' :: c :: (tail ++ (crlf ++ block ls body))) = _
    rw [after, after]
    simpa [Ne.symm hc] using hRest

/-- **A block is read as it was written.** -/
theorem readBlock_block {l : Str} {ls : List Str} (h : ∀ x ∈ l :: ls, IsLine x) (body : Str) :
    readBlock (block (l :: ls) body) = some (l :: ls, body) := by
  have hTake : ((l :: ls) ++ [] :: lines body).takeWhile (fun x => decide (x ≠ [])) = l :: ls := by
    rw [List.takeWhile_append_of_pos fun x hx => decide_eq_true (h x hx).some]
    simp
  unfold readBlock
  rw [after_block h, lines_block h, Option.map_some, hTake]

-- ---------------------------------------------------------------------------
-- Messages
-- ---------------------------------------------------------------------------

/-- A name and a value, as a line. -/
def fieldLine (f : Str × Str) : Str := f.1 ++ (": " ++ f.2)

/-- A name without a colon, and a value without blanks around it. -/
structure IsField (f : Str × Str) : Prop where
  line : IsLine (fieldLine f)
  name : ':' ∉ f.1
  value : Trimmed f.2

theorem IsField.of_plain {n v : Str} (hName : PlainWord n) (hColon : ':' ∉ n) (hValue : Trimmed v)
    (hReturn : '\r' ∉ v) (hFeed : '\n' ∉ v) : IsField (n, v) where
  line := by
    have hLine := IsLine.of_plainWord hName
    have hSep := isLine_of_all (l := ": ") (by decide)
    refine hLine.append (fun hIn => ?_) (fun hIn => ?_)
    · exact (List.mem_append.1 hIn).elim hSep.noReturn hReturn
    · exact (List.mem_append.1 hIn).elim hSep.noFeed hFeed
  name := hColon
  value := hValue

/-- A closed field is checked by looking at it. -/
theorem IsField.of_all {n v : Str}
    (h : (!n.isEmpty && n.all isPlain && n.all (· != ':') && v.head?.all (fun c => !isWhitespace c) &&
      v.getLast?.all (fun c => !isWhitespace c) && v.all fun c => c != '\r' && c != '\n') = true) :
    IsField (n, v) := by
  simp only [Bool.and_eq_true, List.all_eq_true, bne_iff_ne] at h
  obtain ⟨⟨⟨⟨hName, hColon⟩, hHead⟩, hLast⟩, hValue⟩ := h
  refine .of_plain (.of_all ?_) (fun hIn => hColon _ hIn rfl) ⟨fun c hc => ?_, fun c hc => ?_⟩
    (fun hIn => (hValue _ hIn).1 rfl) (fun hIn => (hValue _ hIn).2 rfl)
  · rw [Bool.and_eq_true, List.all_eq_true]
    exact hName
  · rw [hc] at hHead
    simpa using hHead
  · rw [hc] at hLast
    simpa using hLast

def readField (l : Str) : Option (Str × Str) := (splitOnce ':' l).map fun p => (p.1, trim p.2)

def message (first : Str) (fields : List (Str × Str)) (body : Str) : Str :=
  block (first :: fields.map fieldLine) body

def readMessage (s : Str) : Option (Str × List (Str × Str) × Str) :=
  (readBlock s).bind fun p =>
    match p.1 with
    | [] => none
    | first :: ls => (ls.mapM readField).map fun fields => (first, fields, p.2)

theorem readField_fieldLine {f : Str × Str} (h : IsField f) : readField (fieldLine f) = some f := by
  have hTrim : trim (' ' :: f.2) = f.2 := by
    have hBlank : trim (' ' :: f.2) = trim f.2 := rfl
    rw [hBlank, trim_of_trimmed h.value]
  have hCut : fieldLine f = f.1 ++ ':' :: (' ' :: f.2) := rfl
  unfold readField
  rw [hCut, splitOnce_append h.name, Option.map_some, hTrim]

theorem readFields_fieldLines {fields : List (Str × Str)} (h : ∀ f ∈ fields, IsField f) :
    (fields.map fieldLine).mapM readField = some fields := by
  induction fields with
  | nil => rfl
  | cons f fields ih =>
    rw [List.map_cons, List.mapM_cons, readField_fieldLine (h f (List.mem_cons_self ..)),
      ih fun x hx => h x (List.mem_cons_of_mem _ hx)]
    rfl

/-- **A message is read as it was written.** -/
theorem readMessage_message {first : Str} {fields : List (Str × Str)} (hFirst : IsLine first)
    (hFields : ∀ f ∈ fields, IsField f) (body : Str) :
    readMessage (message first fields body) = some (first, fields, body) := by
  have hLines : ∀ l ∈ first :: fields.map fieldLine, IsLine l := by
    intro l hIn
    rcases List.mem_cons.1 hIn with rfl | hIn
    · exact hFirst
    · obtain ⟨f, hf, rfl⟩ := List.mem_map.1 hIn
      exact (hFields f hf).line
  unfold readMessage message
  rw [readBlock_block hLines, Option.bind_some]
  simp only [readFields_fieldLines hFields, Option.map_some]

end HeaderBlocks
