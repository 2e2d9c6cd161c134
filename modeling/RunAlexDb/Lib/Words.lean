import RunAlexDb.Lib.Text

/-!
# Words — texts of words with blanks between them

A sentence is a first word and further words with a blank before each. Searching
it for a word between blanks finds the first one, and the cuts before and behind
it give the words on both sides.

Main results: `find_word`, `find_upper_word`, `sliceFrom_append` and `slice_append`.
-/

namespace Text

-- ---------------------------------------------------------------------------
-- Cuts
-- ---------------------------------------------------------------------------

theorem byteLen_append (a b : Str) : byteLen (a ++ b) = byteLen a + byteLen b := by
  unfold byteLen
  rw [List.map_append, List.sum_append]

theorem byteLen_cons (c : Char) (s : Str) : byteLen (c :: s) = c.utf8Size + byteLen s := by
  unfold byteLen
  rw [List.map_cons, List.sum_cons]

theorem sliceFrom_append (a b : Str) : sliceFrom (a ++ b) (byteLen a) = some b := by
  induction a with
  | nil =>
    show sliceFrom b 0 = some b
    unfold sliceFrom
    rfl
  | cons c a ih =>
    have hSize := Char.utf8Size_pos c
    have hSome : byteLen (c :: a) = 0 → False := by
      rw [byteLen_cons]
      omega
    rw [List.cons_append, sliceFrom.eq_3 _ _ _ hSome, byteLen_cons, if_pos (Nat.le_add_right ..),
      Nat.add_sub_cancel_left]
    exact ih

theorem sliceTo_append (a b : Str) : sliceTo (a ++ b) (byteLen a) = some a := by
  induction a with
  | nil =>
    show sliceTo b 0 = some []
    unfold sliceTo
    rfl
  | cons c a ih =>
    have hSize := Char.utf8Size_pos c
    have hSome : byteLen (c :: a) = 0 → False := by
      rw [byteLen_cons]
      omega
    rw [List.cons_append, sliceTo.eq_3 _ _ _ hSome, byteLen_cons, if_pos (Nat.le_add_right ..),
      Nat.add_sub_cancel_left, ih]
    rfl

/-- The part between two cuts. -/
theorem slice_append (a b c : Str) :
    slice (a ++ (b ++ c)) (byteLen a) (byteLen a + byteLen b) = some b := by
  unfold slice
  rw [if_pos (Nat.le_add_right ..), sliceFrom_append, Option.bind_some, Nat.add_sub_cancel_left,
    sliceTo_append]

-- ---------------------------------------------------------------------------
-- Sentences
-- ---------------------------------------------------------------------------

/-- Words with a blank before each. -/
def spaced (ws : List Str) : Str := ws.flatMap fun w => ' ' :: w

theorem spaced_cons (w : Str) (ws : List Str) : spaced (w :: ws) = ' ' :: w ++ spaced ws :=
  List.flatMap_cons ..

theorem spaced_append (as bs : List Str) : spaced (as ++ bs) = spaced as ++ spaced bs :=
  List.flatMap_append ..

/-- A word at the beginning of two texts, up to the blank, is one word. -/
theorem eq_of_isPrefixOf {w a : Str} (hw : ' ' ∉ w) (ha : ' ' ∉ a) {t : Str}
    (h : (w ++ [' ']).isPrefixOf (a ++ ' ' :: t) = true) : w = a := by
  obtain ⟨t', hText⟩ := List.isPrefixOf_iff_prefix.1 h
  rw [List.append_assoc, List.singleton_append] at hText
  have hSplit := splitOnce_append hw t'
  rw [hText, splitOnce_append ha] at hSplit
  exact (Prod.mk.inj (Option.some.inj hSplit)).1.symm

/-- A search that begins with a blank passes over a word. -/
theorem findFrom_word {w : Str} (hw : ' ' ∉ w) (off : Nat) (s pat : Str) :
    findFrom off (w ++ s) (' ' :: pat) = findFrom (off + byteLen w) s (' ' :: pat) := by
  induction w generalizing off with
  | nil => rfl
  | cons c w ih =>
    rw [List.mem_cons, not_or] at hw
    have hNot : (' ' :: pat).isPrefixOf (c :: (w ++ s)) = false := by
      rw [List.isPrefixOf_cons_cons, beq_eq_false_iff_ne.2 hw.1, Bool.false_and]
    rw [List.cons_append, findFrom, hNot, if_neg Bool.false_ne_true, ih hw.2, byteLen_cons,
      Nat.add_assoc]

theorem findFrom_spaced {w : Str} (hw : ' ' ∉ w) (as : List Str) (hWords : ∀ a ∈ as, ' ' ∉ a)
    (hNot : w ∉ as) (off : Nat) (t : Str) :
    findFrom off (spaced as ++ ' ' :: w ++ ' ' :: t) (' ' :: w ++ [' ']) =
      some (off + byteLen (spaced as)) := by
  induction as generalizing off with
  | nil =>
    have hHere : (' ' :: w ++ [' ']).isPrefixOf (' ' :: (w ++ ' ' :: t)) = true := by
      rw [List.isPrefixOf_iff_prefix]
      exact ⟨t, by simp⟩
    show findFrom off (' ' :: (w ++ ' ' :: t)) (' ' :: w ++ [' ']) = _
    rw [findFrom, if_pos hHere]
    rfl
  | cons a as ih =>
    rw [List.mem_cons, not_or] at hNot
    obtain ⟨t', hTail⟩ : ∃ t', spaced as ++ ' ' :: w ++ ' ' :: t = ' ' :: t' := by
      rcases as with _ | ⟨b, bs⟩
      · exact ⟨w ++ ' ' :: t, rfl⟩
      · exact ⟨b ++ spaced bs ++ ' ' :: w ++ ' ' :: t, rfl⟩
    have hText : spaced (a :: as) ++ ' ' :: w ++ ' ' :: t =
        ' ' :: (a ++ (spaced as ++ ' ' :: w ++ ' ' :: t)) := by
      rw [spaced_cons]
      simp only [List.cons_append, List.append_assoc]
    have hMiss : (' ' :: w ++ [' ']).isPrefixOf (' ' :: (a ++ ' ' :: t')) = false := by
      refine Bool.eq_false_iff.2 fun hHere => hNot.1 ?_
      rw [List.cons_append, List.isPrefixOf_cons_cons, Bool.and_eq_true] at hHere
      exact eq_of_isPrefixOf hw (hWords a (List.mem_cons_self ..)) hHere.2
    have hRest := ih (fun b hb => hWords b (List.mem_cons_of_mem _ hb)) hNot.2
      (off + ' '.utf8Size + byteLen a)
    rw [hText, hTail, findFrom, hMiss, if_neg Bool.false_ne_true, ← hTail, List.cons_append,
      findFrom_word (hWords a (List.mem_cons_self ..))]
    rw [List.cons_append] at hRest
    rw [hRest, spaced_cons, List.cons_append, byteLen_cons, byteLen_append]
    congr 1
    omega

/-- **The first place of a word.** The search for a word between blanks finds it
behind the words in front of it. -/
theorem find_word {first w : Str} (hFirst : ' ' ∉ first) (hw : ' ' ∉ w) {as : List Str}
    (hWords : ∀ a ∈ as, ' ' ∉ a) (hNot : w ∉ as) (t : Str) :
    find (first ++ spaced as ++ ' ' :: w ++ ' ' :: t) (' ' :: w ++ [' ']) =
      some (byteLen (first ++ spaced as)) := by
  have hText : first ++ spaced as ++ ' ' :: w ++ ' ' :: t =
      first ++ (spaced as ++ ' ' :: w ++ ' ' :: t) := by
    simp only [List.append_assoc]
  unfold find
  rw [hText, List.cons_append, findFrom_word hFirst, Nat.zero_add, byteLen_append]
  exact findFrom_spaced hw as hWords hNot (byteLen first) t

-- ---------------------------------------------------------------------------
-- Trimming
-- ---------------------------------------------------------------------------

/-- Neither end is white space. -/
structure Trimmed (s : Str) : Prop where
  head : ∀ c, s.head? = some c → isWhitespace c = false
  last : ∀ c, s.getLast? = some c → isWhitespace c = false

theorem dropWhile_head {p : Char → Bool} {s : Str} (h : ∀ c, s.head? = some c → p c = false) :
    s.dropWhile p = s := by
  rcases s with _ | ⟨c, s⟩
  · rfl
  · exact List.dropWhile_cons_of_neg (by simpa using h c rfl)

theorem trim_of_trimmed {s : Str} (h : Trimmed s) : trim s = s := by
  unfold trim trimEnd trimStart trimStartMatches trimEndMatches
  rw [dropWhile_head h.head, dropWhile_head, List.reverse_reverse]
  rw [List.head?_reverse]
  exact h.last

/-- A blank ends a word. -/
theorem splitWhitespace_append {c : Char} (h : isWhitespace c = true) (s t : Str) :
    splitWhitespace (s ++ c :: t) = splitWhitespace s ++ splitWhitespace t := by
  unfold splitWhitespace
  rw [List.splitOnP_append_cons s t h, List.filter_append]

theorem splitWhitespace_blank {s : Str} (h : ∀ c ∈ s, isWhitespace c = true) :
    splitWhitespace s = [] := by
  induction s with
  | nil => rfl
  | cons c s ih =>
    have hTail := ih fun c hc => h c (List.mem_cons_of_mem _ hc)
    have hWords := splitWhitespace_append (h c (List.mem_cons_self ..)) [] s
    rw [hTail] at hWords
    exact hWords

theorem splitWhitespace_word {s : Str} (hSome : s ≠ []) (h : ∀ c ∈ s, isWhitespace c = false) :
    splitWhitespace s = [s] := by
  unfold splitWhitespace
  rw [List.splitOnP_eq_singleton h]
  simpa using hSome

/-- Blanks at the ends are no words. -/
theorem splitWhitespace_trim (s : Str) : splitWhitespace (trim s) = splitWhitespace s := by
  have hEnd : ∀ t : Str, splitWhitespace (trimEnd t) = splitWhitespace t := by
    intro t
    have hCut : t = trimEnd t ++ (t.reverse.takeWhile isWhitespace).reverse := by
      unfold trimEnd trimEndMatches
      rw [← List.reverse_append, List.takeWhile_append_dropWhile, List.reverse_reverse]
    have hBlank : ∀ c ∈ (t.reverse.takeWhile isWhitespace).reverse, isWhitespace c = true :=
      fun c hc => List.all_eq_true.1 List.all_takeWhile c (List.mem_reverse.1 hc)
    conv_rhs => rw [hCut]
    cases hTail : (t.reverse.takeWhile isWhitespace).reverse with
    | nil => rw [List.append_nil]
    | cons c r =>
      rw [hTail] at hBlank
      rw [splitWhitespace_append (hBlank c (List.mem_cons_self ..)),
        splitWhitespace_blank fun c hc => hBlank c (List.mem_cons_of_mem _ hc), List.append_nil]
  have hStart : splitWhitespace (trimStart s) = splitWhitespace s := by
    unfold trimStart trimStartMatches
    induction s with
    | nil => rfl
    | cons c s ih =>
      rw [List.dropWhile_cons]
      split_ifs with hc
      · rw [ih]
        exact (splitWhitespace_append hc [] s).symm
      · rfl
  exact (hEnd _).trans hStart

theorem trim_of_noSpace {s : Str} (h : ∀ c ∈ s, isWhitespace c = false) : trim s = s :=
  trim_of_trimmed ⟨fun c hc => h c (List.mem_of_mem_head? hc),
    fun c hc => h c (List.mem_of_getLast? hc)⟩

-- ---------------------------------------------------------------------------
-- ASCII
-- ---------------------------------------------------------------------------

/-- ASCII, and no white space: in upper case it is as long, and still none. -/
def isPlain (c : Char) : Bool := c.toNat < 128 && !isWhitespace c

theorem toUpper_of_isPlain {c : Char} (h : isPlain c = true) :
    c.utf8Size = 1 ∧ c.toUpper.utf8Size = 1 ∧ c.toUpper ≠ ' ' ∧ c ≠ ' ' := by
  have hTable : ∀ n : Fin 128, isPlain (Char.ofNat n) = true →
      (Char.ofNat n).utf8Size = 1 ∧ (Char.ofNat n).toUpper.utf8Size = 1 ∧
        (Char.ofNat n).toUpper ≠ ' ' ∧ Char.ofNat n ≠ ' ' := by
    decide
  have hAscii : c.toNat < 128 := by
    unfold isPlain at h
    rw [Bool.and_eq_true] at h
    exact of_decide_eq_true h.1
  have hSelf := hTable ⟨c.toNat, hAscii⟩
  rw [Char.ofNat_toNat] at hSelf
  exact hSelf h

/-- Plain characters only, and at least one. -/
structure PlainWord (w : Str) : Prop where
  some : w ≠ []
  plain : ∀ c ∈ w, isPlain c = true

theorem PlainWord.of_all {w : Str} (h : (!w.isEmpty && w.all isPlain) = true) : PlainWord w := by
  rw [Bool.and_eq_true, Bool.not_eq_true', List.isEmpty_eq_false_iff] at h
  exact ⟨h.1, List.all_eq_true.1 h.2⟩

theorem PlainWord.noBlank {w : Str} (h : PlainWord w) : ' ' ∉ w :=
  fun hIn => (toUpper_of_isPlain (h.plain ' ' hIn)).2.2.2 rfl

theorem PlainWord.append {v w : Str} (hv : PlainWord v) (hw : ∀ c ∈ w, isPlain c = true) :
    PlainWord (v ++ w) := by
  refine ⟨List.append_ne_nil_of_left_ne_nil hv.some _, fun c hc => ?_⟩
  rcases List.mem_append.1 hc with hc | hc
  · exact hv.plain c hc
  · exact hw c hc

theorem PlainWord.noBlank_upper {w : Str} (h : PlainWord w) : ' ' ∉ w.map Char.toUpper := by
  intro hIn
  obtain ⟨c, hc, hBlank⟩ := List.mem_map.1 hIn
  exact (toUpper_of_isPlain (h.plain c hc)).2.2.1 hBlank

theorem PlainWord.trimmed {w : Str} (h : PlainWord w) : Trimmed w := by
  have hNone : ∀ c ∈ w, isWhitespace c = false := by
    intro c hc
    have hPlain := h.plain c hc
    unfold isPlain at hPlain
    rw [Bool.and_eq_true, Bool.not_eq_true'] at hPlain
    exact hPlain.2
  exact ⟨fun c hHead => hNone c (List.mem_of_head? hHead),
    fun c hLast => hNone c (List.mem_of_getLast? hLast)⟩

theorem PlainWord.byteLen_upper {w : Str} (h : PlainWord w) :
    byteLen (w.map Char.toUpper) = byteLen w := by
  unfold byteLen
  rw [List.map_map]
  refine congrArg List.sum (List.map_congr_left fun c hc => ?_)
  obtain ⟨hSize, hUpper, -⟩ := toUpper_of_isPlain (h.plain c hc)
  exact hUpper.trans hSize.symm

/-- Upper case goes word by word. -/
theorem spaced_upper (ws : List Str) :
    (spaced ws).map Char.toUpper = spaced (ws.map (List.map Char.toUpper)) := by
  induction ws with
  | nil => rfl
  | cons w ws ih =>
    show _ = spaced (w.map Char.toUpper :: ws.map (List.map Char.toUpper))
    rw [spaced_cons, spaced_cons, List.map_append, ih]
    rfl

theorem byteLen_spaced_upper {ws : List Str} (h : ∀ w ∈ ws, PlainWord w) :
    byteLen (spaced (ws.map (List.map Char.toUpper))) = byteLen (spaced ws) := by
  induction ws with
  | nil => rfl
  | cons w ws ih =>
    have hWord := (h w (List.mem_cons_self ..)).byteLen_upper
    have hRest := ih fun v hv => h v (List.mem_cons_of_mem _ hv)
    rw [List.map_cons, spaced_cons, spaced_cons, byteLen_append, byteLen_append, hRest,
      byteLen_cons, byteLen_cons, hWord]

/-- The search for a word in upper case gives its place in the sentence itself. -/
theorem find_upper_word {first w : Str} {ws : List Str} (hFirst : PlainWord first)
    (hWords : ∀ a ∈ ws, PlainWord a) (hw : ' ' ∉ w) (hUpper : w.map Char.toUpper = w)
    (hNot : ∀ a ∈ ws, a.map Char.toUpper ≠ w) (t : Str) :
    find ((first ++ spaced ws ++ ' ' :: w ++ ' ' :: t).map Char.toUpper) (' ' :: w ++ [' ']) =
      some (byteLen (first ++ spaced ws)) := by
  have hText : (first ++ spaced ws ++ ' ' :: w ++ ' ' :: t).map Char.toUpper =
      first.map Char.toUpper ++ spaced (ws.map (List.map Char.toUpper)) ++ ' ' :: w ++
        ' ' :: t.map Char.toUpper := by
    have hBlank : Char.toUpper ' ' = ' ' := by decide
    rw [List.map_append, List.map_append, List.map_append, spaced_upper, List.map_cons,
      List.map_cons, hUpper, hBlank]
  have hLen : byteLen (first.map Char.toUpper ++ spaced (ws.map (List.map Char.toUpper))) =
      byteLen (first ++ spaced ws) := by
    rw [byteLen_append, byteLen_append, hFirst.byteLen_upper, byteLen_spaced_upper hWords]
  rw [hText, find_word hFirst.noBlank_upper hw, hLen]
  · intro a hMem
    obtain ⟨b, hb, rfl⟩ := List.mem_map.1 hMem
    exact (hWords b hb).noBlank_upper
  · intro hMem
    obtain ⟨b, hb, hSame⟩ := List.mem_map.1 hMem
    exact hNot b hb hSame

/-- Every character of a sentence is ASCII. -/
theorem ascii_of_plain {s : Str} (h : ∀ c ∈ s, isPlain c = true) : ∀ c ∈ s, c.toNat < 128 := by
  intro c hc
  have hPlain := h c hc
  unfold isPlain at hPlain
  rw [Bool.and_eq_true] at hPlain
  exact of_decide_eq_true hPlain.1

theorem ascii_spaced {ws : List Str} (h : ∀ w ∈ ws, PlainWord w) :
    ∀ c ∈ spaced ws, c.toNat < 128 := by
  intro c hc
  obtain ⟨w, hw, hIn⟩ := List.mem_flatMap.1 hc
  rcases List.mem_cons.1 hIn with rfl | hIn
  · decide
  · exact ascii_of_plain (h w hw).plain c hIn

/-- A sentence is trimmed. -/
theorem trimmed_sentence {first last : Str} (hFirst : PlainWord first) (hLast : PlainWord last)
    (ws : List Str) : Trimmed (first ++ spaced (ws ++ [last])) := by
  constructor
  · intro c hHead
    rw [List.head?_append_of_ne_nil _ hFirst.some] at hHead
    exact hFirst.trimmed.head c hHead
  · intro c hEnd
    have hTail : first ++ spaced (ws ++ [last]) = first ++ spaced ws ++ [' '] ++ last := by
      rw [spaced_append]
      simp [spaced]
    rw [hTail, List.getLast?_append_of_ne_nil _ hLast.some] at hEnd
    exact hLast.trimmed.last c hEnd

end Text
