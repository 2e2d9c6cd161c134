import Mathlib.Data.List.FinRange
import Mathlib.Data.List.GetD
import Mathlib.Data.List.Pairwise
import RunAlexDb.Lib.Windows

/-!
# Subtables — numbers given to the rows of every table taken from one

The rows of a table are grouped by `part` and ordered by `cmp`. Numbers are given to
them by another grouping, `key`, and another comparison, `before`. Whether the numbers
are right in every table whose rows are taken from the given ones, in their order, is a
matter of two or three rows at a time.

Main results: `forall_length_peersOf_iff`, `forall_numbered_iff` and `forall_tied_iff`.
-/

namespace Windows

variable {ρ π κ : Type}

-- ---------------------------------------------------------------------------
-- Two groupings
-- ---------------------------------------------------------------------------

section Agreement

variable {part : ρ → π} {key : ρ → κ} {rows : List ρ}

/-- The two groupings are one on these rows. -/
def Agree (part : ρ → π) (key : ρ → κ) (rows : List ρ) : Prop :=
  ∀ a ∈ rows, ∀ b ∈ rows, part a = part b ↔ key a = key b

theorem Agree.sublist {sub : List ρ} (h : Agree part key rows) (hSub : sub.Sublist rows) :
    Agree part key sub := fun a ha b hb => h a (hSub.subset ha) b (hSub.subset hb)

theorem agree_of_pairs (h : ∀ a b, [a, b].Sublist rows → (part a = part b ↔ key a = key b)) :
    Agree part key rows := by
  have hPairs : rows.Pairwise fun a b => part a = part b ↔ key a = key b :=
    List.pairwise_iff_forall_sublist.2 fun {a b} => h a b
  have hSymm : Std.Symm fun a b : ρ => part a = part b ↔ key a = key b :=
    ⟨fun a b hab => eq_comm.trans (hab.trans eq_comm)⟩
  exact hPairs.forall_of_forall fun a _ => iff_of_true rfl rfl

end Agreement

variable [Inhabited ρ] [DecidableEq π] [DecidableEq κ]

/-- A row of a table. -/
def rowAt (rows : List ρ) (i : Nat) : ρ := rows.getD i default

/-- The rows with the key of row `i`. -/
def peersOf (f : ρ → κ) (rows : List ρ) (i : Nat) : List Nat :=
  peers rows.length (fun k => f (rowAt rows k)) i

/-- Where row `i` stands among them. -/
def placeOf (f : ρ → κ) (before : ρ → ρ → Prop) [DecidableRel before] (rows : List ρ)
    (i : Nat) : Nat :=
  place rows.length (fun k => f (rowAt rows k)) (fun a b => before (rowAt rows a) (rowAt rows b)) i

section Rows

variable {rows : List ρ} {f : ρ → κ} {i k : Nat}

theorem rowAt_eq (hi : i < rows.length) : rowAt rows i = rows[i] := List.getD_eq_getElem _ _ hi

theorem rowAt_mem (hi : i < rows.length) : rowAt rows i ∈ rows := by
  rw [rowAt_eq hi]
  exact List.getElem_mem hi

theorem exists_rowAt_of_mem {a : ρ} (h : a ∈ rows) : ∃ i < rows.length, rowAt rows i = a := by
  obtain ⟨i, hi, rfl⟩ := List.getElem_of_mem h
  exact ⟨i, hi, rowAt_eq hi⟩

theorem rowAt_map {σ : Type} [Inhabited σ] {g : ρ → σ} (hi : i < rows.length) :
    rowAt (rows.map g) i = g (rowAt rows i) := by
  rw [rowAt_eq (List.length_map g ▸ hi), rowAt_eq hi]
  exact List.getElem_map ..

theorem mem_peersOf : k ∈ peersOf f rows i ↔ k < rows.length ∧ f (rowAt rows k) = f (rowAt rows i) :=
  mem_peers

theorem peersOf_first (a b : ρ) : peersOf f [a, b] 0 = if f a = f b then [0, 1] else [0] := by
  show [0, 1].filter (fun k => decide (f (rowAt [a, b] k) = f a)) = _
  split_ifs with hSame
  · simp [rowAt, hSame]
  · simp [rowAt, Ne.symm hSame]

theorem peersOf_second (a b : ρ) : peersOf f [a, b] 1 = if f a = f b then [0, 1] else [1] := by
  show [0, 1].filter (fun k => decide (f (rowAt [a, b] k) = f b)) = _
  split_ifs with hSame
  · simp [rowAt, hSame]
  · simp [rowAt, hSame]

end Rows

-- ---------------------------------------------------------------------------
-- Keys and relations that agree on the rows
-- ---------------------------------------------------------------------------

section Congruence

variable {n i : Nat} {f g : Nat → κ} {r s : Nat → Nat → Prop} [DecidableRel r] [DecidableRel s]

theorem peers_congr (hKey : ∀ k < n, f k = g k) (hi : i < n) : peers n f i = peers n g i := by
  refine List.filter_congr fun k hk => ?_
  rw [hKey k (List.mem_range.1 hk), hKey i hi]

theorem place_congr (hKey : ∀ k < n, f k = g k) (hRel : ∀ a < n, ∀ b < n, r a b ↔ s a b) (hi : i < n) :
    place n f r i = place n g s i := by
  have hSort : (peers n g i).insertionSort r = (peers n g i).insertionSort s := by
    have hMap := List.map_insertionSort r s id (peers n g i) fun a ha b hb =>
      hRel a (mem_peers.1 ha).1 b (mem_peers.1 hb).1
    rwa [List.map_id, List.map_id] at hMap
  unfold place group
  rw [peers_congr hKey hi, hSort]

end Congruence

-- ---------------------------------------------------------------------------
-- Sizes
-- ---------------------------------------------------------------------------

section Groupings

variable {part : ρ → π} {key : ρ → κ} {rows : List ρ}

theorem peersOf_congr (h : Agree part key rows) {i : Nat} (hi : i < rows.length) :
    peersOf part rows i = peersOf key rows i := by
  refine List.filter_congr fun k hk => ?_
  have hk := rowAt_mem (List.mem_range.1 hk)
  exact decide_eq_decide.2 (h _ hk _ (rowAt_mem hi))

/-- Groups by the key have the sizes of the groups in every table exactly when they are
the groups. -/
theorem forall_length_peersOf_iff :
    (∀ sub, sub.Sublist rows → ∀ i < sub.length,
      (peersOf key sub i).length = (peersOf part sub i).length) ↔ Agree part key rows := by
  constructor
  · intro h
    refine agree_of_pairs fun a b hSub => ?_
    have hLength := h [a, b] hSub 0 (by simp)
    rw [peersOf_first, peersOf_first] at hLength
    by_cases hKey : key a = key b <;> by_cases hPart : part a = part b <;> simp_all
  · intro h sub hSub i hi
    rw [peersOf_congr (h.sublist hSub) hi]

end Groupings

-- ---------------------------------------------------------------------------
-- Numbers
-- ---------------------------------------------------------------------------

section Numbers

variable {part : ρ → π} {key : ρ → κ} {cmp : ρ → ρ → Ordering} {before : ρ → ρ → Prop}
  [DecidableRel before] {rows : List ρ}

/-- In each group the numbers are 1, 2, and so on, along the order. -/
structure Numbered (part : ρ → π) (cmp : ρ → ρ → Ordering) (rows : List ρ) (num : Nat → Nat) :
    Prop where
  once : ∀ i < rows.length,
    ((peersOf part rows i).map num).Perm (List.range' 1 (peersOf part rows i).length)
  ordered : ∀ i < rows.length, ∀ k ∈ peersOf part rows i,
    cmp (rowAt rows i) (rowAt rows k) = .lt → num i < num k

theorem Numbered.congr {num num' : Nat → Nat} (h : Numbered part cmp rows num)
    (hSame : ∀ i < rows.length, num i = num' i) : Numbered part cmp rows num' := by
  constructor
  · intro i hi
    have hMap : (peersOf part rows i).map num = (peersOf part rows i).map num' :=
      List.map_congr_left fun k hk => hSame k (mem_peersOf.1 hk).1
    rw [← hMap]
    exact h.once i hi
  · intro i hi k hk hLt
    rw [← hSame i hi, ← hSame k (mem_peersOf.1 hk).1]
    exact h.ordered i hi k hk hLt

theorem numbered_pair {a b : ρ} {num : Nat → Nat} (h : Numbered part cmp [a, b] num) :
    (part a = part b →
        num 0 ≠ num 1 ∧ (cmp a b = .lt → num 0 < num 1) ∧ (cmp b a = .lt → num 1 < num 0)) ∧
      (part a ≠ part b → num 0 = num 1) := by
  have hFirst := h.once 0 (by simp)
  have hSecond := h.once 1 (by simp)
  rw [peersOf_first] at hFirst
  rw [peersOf_second] at hSecond
  constructor
  · intro hPart
    rw [if_pos hPart] at hFirst
    have hNodup : [num 0, num 1].Nodup := hFirst.nodup_iff.2 (by decide)
    refine ⟨by simpa using hNodup, fun hLt => ?_, fun hLt => ?_⟩
    · exact h.ordered 0 (by simp) 1 (mem_peersOf.2 ⟨by simp, hPart.symm⟩) hLt
    · exact h.ordered 1 (by simp) 0 (mem_peersOf.2 ⟨by simp, hPart⟩) hLt
  · intro hPart
    rw [if_neg hPart] at hFirst hSecond
    have hOne : num 0 = 1 := List.singleton_inj.1 (List.perm_singleton.1 hFirst)
    have hTwo : num 1 = 1 := List.singleton_inj.1 (List.perm_singleton.1 hSecond)
    rw [hOne, hTwo]

theorem placeOf_pair_same {a b : ρ} (hKey : key a = key b) :
    (before a b → placeOf key before [a, b] 0 = 1 ∧ placeOf key before [a, b] 1 = 2) ∧
      (¬before a b → placeOf key before [a, b] 0 = 2 ∧ placeOf key before [a, b] 1 = 1) := by
  have hPeers := peersOf_first (f := key) a b
  rw [if_pos hKey] at hPeers
  exact place_pair (r := fun k l => before (rowAt [a, b] k) (rowAt [a, b] l)) hPeers Nat.zero_ne_one hKey

theorem placeOf_pair_ne {a b : ρ} (hKey : key a ≠ key b) :
    placeOf key before [a, b] 0 = 1 ∧ placeOf key before [a, b] 1 = 1 := by
  have hFirst := peersOf_first (f := key) a b
  have hSecond := peersOf_second (f := key) a b
  rw [if_neg hKey] at hFirst hSecond
  exact ⟨place_single hFirst, place_single hSecond⟩

/-- What comes first in order is put first, and what comes last is put last. -/
def Follows (part : ρ → π) (cmp : ρ → ρ → Ordering) (before : ρ → ρ → Prop) (rows : List ρ) : Prop :=
  rows.Pairwise fun a b => part a = part b →
    (cmp a b = .lt → before a b) ∧ (cmp a b = .gt → ¬before a b)

theorem numbered_placeOf [Std.TransCmp cmp] (hAgree : Agree part key rows)
    (hFollows : Follows part cmp before rows) : Numbered part cmp rows (placeOf key before rows) := by
  have hGroup : ∀ i < rows.length, (group rows.length (fun k => key (rowAt rows k))
      (fun a b => before (rowAt rows a) (rowAt rows b)) i).Pairwise fun a b =>
        (cmp (rowAt rows a) (rowAt rows b)).isLE := by
    intro i hi
    refine pairwise_group (fun a b c => Std.TransCmp.isLE_trans) fun a b hLt hb ha hb' => ?_
    have haLt : a < rows.length := hLt.trans hb
    have hPart : part (rowAt rows a) = part (rowAt rows b) :=
      (hAgree _ (rowAt_mem haLt) _ (rowAt_mem hb)).2 (ha.trans hb'.symm)
    have hHere := List.pairwise_iff_getElem.1 hFollows a b haLt hb hLt
    rw [← rowAt_eq haLt, ← rowAt_eq hb] at hHere
    obtain ⟨hLess, hMore⟩ := hHere hPart
    constructor
    · intro hBefore
      exact Ordering.isLE_iff_ne_gt.2 fun hGt => hMore hGt hBefore
    · intro hNot
      exact Ordering.isLE_iff_ne_gt.2 fun hGt => hNot (hLess (Std.OrientedCmp.lt_of_gt hGt))
  constructor
  · intro i hi
    rw [peersOf_congr hAgree hi]
    exact map_place_perm
  · intro i hi k hk hLt
    rw [peersOf_congr hAgree hi] at hk
    obtain ⟨hkLt, hKey⟩ := mem_peersOf.1 hk
    have hGt := Std.OrientedCmp.gt_of_lt hLt
    refine place_lt (hGroup i hi) hi hkLt hKey.symm ?_ ?_
    · rintro rfl
      rw [hLt] at hGt
      cases hGt
    · rw [hGt]
      exact Bool.false_ne_true

/-- The places are right numbers in every table exactly when the two groupings agree and
the places follow the order. -/
theorem forall_numbered_iff [Std.TransCmp cmp] :
    (∀ sub, sub.Sublist rows → Numbered part cmp sub (placeOf key before sub)) ↔
      Agree part key rows ∧ Follows part cmp before rows := by
  constructor
  · intro h
    have hAgree : Agree part key rows := by
      refine agree_of_pairs fun a b hSub => ?_
      obtain ⟨hSame, hOther⟩ := numbered_pair (h [a, b] hSub)
      constructor
      · intro hPart
        by_contra hKey
        have hAlone : placeOf key before [a, b] 0 = 1 ∧ placeOf key before [a, b] 1 = 1 :=
          placeOf_pair_ne hKey
        obtain ⟨hOne, hTwo⟩ := hAlone
        exact (hSame hPart).1 (hOne.trans hTwo.symm)
      · intro hKey
        by_contra hPart
        have hEq := hOther hPart
        by_cases hBefore : before a b
        · obtain ⟨hOne, hTwo⟩ := (placeOf_pair_same hKey).1 hBefore
          omega
        · obtain ⟨hOne, hTwo⟩ := (placeOf_pair_same hKey).2 hBefore
          omega
    refine ⟨hAgree, List.pairwise_iff_forall_sublist.2 fun {a b} hSub hPart => ?_⟩
    have ha := hSub.subset (List.mem_cons_self ..)
    have hb := hSub.subset (List.mem_cons_of_mem a (List.mem_cons_self ..))
    have hKey := (hAgree a ha b hb).1 hPart
    obtain ⟨-, hLess, hMore⟩ := (numbered_pair (h [a, b] hSub)).1 hPart
    constructor
    · intro hLt
      by_contra hBefore
      obtain ⟨hOne, hTwo⟩ := (placeOf_pair_same hKey).2 hBefore
      have hNum := hLess hLt
      omega
    · intro hGt hBefore
      obtain ⟨hOne, hTwo⟩ := (placeOf_pair_same hKey).1 hBefore
      have hNum := hMore (Std.OrientedCmp.lt_of_gt hGt)
      omega
  · rintro ⟨hAgree, hFollows⟩ sub hSub
    exact numbered_placeOf (hAgree.sublist hSub) (hFollows.sublist hSub)

end Numbers

-- ---------------------------------------------------------------------------
-- Ties
-- ---------------------------------------------------------------------------

section Ties

variable {part : ρ → π} {key : ρ → κ} {cmp : ρ → ρ → Ordering} {before : ρ → ρ → Prop}
  [DecidableRel before] {rows : List ρ}

/-- Rows of one group that tie are given the same. -/
def Tied {β : Type} (part : ρ → π) (cmp : ρ → ρ → Ordering) (rows : List ρ) (given : Nat → β) : Prop :=
  ∀ i < rows.length, ∀ k ∈ peersOf part rows i,
    cmp (rowAt rows i) (rowAt rows k) = .eq → given i = given k

/-- The row is put before all others with its key. -/
def Leads (key : ρ → κ) (before : ρ → ρ → Prop) (rows : List ρ) (i : Nat) : Prop :=
  ∀ c < rows.length, key (rowAt rows c) = key (rowAt rows i) →
    (c < i → ¬before (rowAt rows c) (rowAt rows i)) ∧ (i < c → before (rowAt rows i) (rowAt rows c))

/-- Rows that tie have different keys, and each is put first. -/
def TiesApart (part : ρ → π) (key : ρ → κ) (cmp : ρ → ρ → Ordering) (before : ρ → ρ → Prop)
    (rows : List ρ) : Prop :=
  ∀ i < rows.length, ∀ k < rows.length, i ≠ k → part (rowAt rows i) = part (rowAt rows k) →
    cmp (rowAt rows i) (rowAt rows k) = .eq →
      key (rowAt rows i) ≠ key (rowAt rows k) ∧ Leads key before rows i

/-- The rows at some indices. -/
def pick (rows : List ρ) (is : List Nat) : List ρ := is.map (rowAt rows)

theorem rowAt_pick {is : List Nat} {p : Nat} (hp : p < is.length) :
    rowAt (pick rows is) p = rowAt rows is[p] := by
  have hLt : p < (pick rows is).length := by
    rw [pick, List.length_map]
    exact hp
  rw [rowAt_eq hLt]
  exact List.getElem_map ..

theorem pick_range (rows : List ρ) : pick rows (List.range rows.length) = rows := by
  refine List.ext_getElem (by simp [pick]) fun p hp hp' => ?_
  refine (List.getElem_map ..).trans ?_
  rw [List.getElem_range, rowAt_eq hp']

theorem exists_pick {sub : List ρ} (hSub : sub.Sublist rows) : ∃ is : List Nat, sub = pick rows is ∧
    is.Pairwise (· < ·) ∧ ∀ i ∈ is, i < rows.length := by
  obtain ⟨is, hEq, hLt⟩ := List.sublist_eq_map_getElem hSub
  refine ⟨is.map Fin.val, ?_, List.pairwise_map.2 hLt, fun i hi => ?_⟩
  · rw [hEq, pick, List.map_map]
    exact List.map_congr_left fun i _ => (rowAt_eq i.2).symm
  · obtain ⟨j, -, rfl⟩ := List.mem_map.1 hi
    exact j.2

theorem tied_placeOf [Std.OrientedCmp cmp] (hApart : TiesApart part key cmp before rows) {is : List Nat}
    (hSorted : is.Pairwise (· < ·)) (hLt : ∀ i ∈ is, i < rows.length) :
    Tied part cmp (pick rows is) (placeOf key before (pick rows is)) := by
  have hLength : (pick rows is).length = is.length := List.length_map ..
  -- a row that leads in the table leads in the rows taken from it
  have hOne : ∀ p (hp : p < is.length), Leads key before rows is[p] →
      placeOf key before (pick rows is) p = 1 := by
    intro p hp hLeads
    refine place_eq_one (hLength ▸ hp) fun t ht hKey => ?_
    have ht' : t < is.length := hLength ▸ ht
    rw [rowAt_pick ht', rowAt_pick hp] at hKey ⊢
    obtain ⟨hAfter, hBefore⟩ := hLeads is[t] (hLt _ (List.getElem_mem ht')) hKey
    constructor
    · exact fun hLess => hAfter (List.pairwise_iff_getElem.1 hSorted t p ht' hp hLess)
    · exact fun hMore => hBefore (List.pairwise_iff_getElem.1 hSorted p t hp ht' hMore)
  intro p hp q hq hTie
  obtain ⟨hq, hPart⟩ := mem_peersOf.1 hq
  rw [hLength] at hp hq
  by_cases hSame : p = q
  · rw [hSame]
  · rw [rowAt_pick hp, rowAt_pick hq] at hTie
    rw [rowAt_pick hp, rowAt_pick hq] at hPart
    have hNe : is[p] ≠ is[q] := fun hEq =>
      hSame ((List.Nodup.getElem_inj_iff (hSorted.imp Nat.ne_of_lt)).1 hEq)
    have hpLt := hLt _ (List.getElem_mem hp)
    have hqLt := hLt _ (List.getElem_mem hq)
    obtain ⟨-, hLeads⟩ := hApart _ hpLt _ hqLt hNe hPart.symm hTie
    obtain ⟨-, hLeads'⟩ := hApart _ hqLt _ hpLt hNe.symm hPart (Std.OrientedCmp.eq_symm hTie)
    rw [hOne p hp hLeads, hOne q hq hLeads']

/-- The indices with the key of `p`, where these are known. -/
theorem peers_eq_pair {n : Nat} {f : Nat → κ} {i p q : Nat} (hLess : p < q) (hq : q < n)
    (h : ∀ t < n, f t = f i ↔ t = p ∨ t = q) : peers n f i = [p, q] := by
  have hPair : [p, q].Pairwise (· < ·) := List.pairwise_pair.2 hLess
  have hNodup : (peers n f i).Nodup := pairwise_peers.imp Nat.ne_of_lt
  refine List.Perm.eq_of_pairwise' pairwise_peers hPair
    ((List.perm_ext_iff_of_nodup hNodup (hPair.imp Nat.ne_of_lt)).2 fun t => ?_)
  rw [mem_peers, List.mem_cons, List.mem_singleton]
  constructor
  · exact fun ht => (h t ht.1).1 ht.2
  · intro ht
    have htLt : t < n := by omega
    exact ⟨htLt, (h t htLt).2 ht⟩

theorem peers_eq_single {n : Nat} {f : Nat → κ} {i : Nat} (hi : i < n)
    (h : ∀ t < n, f t = f i → t = i) : peers n f i = [i] := by
  have hNodup : (peers n f i).Nodup := pairwise_peers.imp Nat.ne_of_lt
  have hAlone : [i].Nodup := List.nodup_singleton i
  refine List.perm_singleton.1 ((List.perm_ext_iff_of_nodup hNodup hAlone).2 fun t => ?_)
  rw [mem_peers, List.mem_singleton]
  constructor
  · exact fun ht => h t ht.1 ht.2
  · rintro rfl
    exact ⟨hi, rfl⟩

/-- The rows at the indices with a property. -/
def taken (rows : List ρ) (P : Nat → Prop) [DecidablePred P] : List ρ :=
  pick rows ((List.range rows.length).filter P)

section Taken

variable {P : Nat → Prop} [DecidablePred P]

theorem taken_sublist : (taken rows P).Sublist rows := by
  conv_rhs => rw [← pick_range rows]
  exact List.filter_sublist.map _

/-- Where the row at an index with the property is among the rows taken. -/
theorem exists_taken {i : Nat} (hi : i < rows.length) (h : P i) :
    ∃ p < (taken rows P).length, ((List.range rows.length).filter P)[p]? = some i := by
  have hMem : i ∈ (List.range rows.length).filter P :=
    List.mem_filter.2 ⟨List.mem_range.2 hi, decide_eq_true h⟩
  obtain ⟨p, hp, hEq⟩ := List.getElem_of_mem hMem
  refine ⟨p, ?_, List.getElem?_eq_some_iff.2 ⟨hp, hEq⟩⟩
  rw [taken, pick, List.length_map]
  exact hp

theorem rowAt_taken {p i : Nat} (h : ((List.range rows.length).filter P)[p]? = some i) :
    rowAt (taken rows P) p = rowAt rows i := by
  obtain ⟨hp, rfl⟩ := List.getElem?_eq_some_iff.1 h
  exact rowAt_pick hp

/-- Every row taken is at an index with the property. -/
theorem exists_index {t : Nat} (ht : t < (taken rows P).length) :
    ∃ j, ((List.range rows.length).filter P)[t]? = some j ∧ P j := by
  rw [taken, pick, List.length_map] at ht
  refine ⟨_, List.getElem?_eq_getElem ht, ?_⟩
  exact of_decide_eq_true (List.mem_filter.1 (List.getElem_mem ht)).2

theorem taken_lt_iff {n p q i j : Nat} (hp : ((List.range n).filter P)[p]? = some i)
    (hq : ((List.range n).filter P)[q]? = some j) : i < j ↔ p < q := by
  have hSorted : ((List.range n).filter P).Pairwise (· < ·) := List.pairwise_lt_range.filter _
  obtain ⟨hpLt, rfl⟩ := List.getElem?_eq_some_iff.1 hp
  obtain ⟨hqLt, rfl⟩ := List.getElem?_eq_some_iff.1 hq
  have hUp := List.pairwise_iff_getElem.1 hSorted
  rcases Nat.lt_trichotomy p q with hLt | rfl | hGt
  · exact iff_of_true (hUp p q hpLt hqLt hLt) hLt
  · exact iff_of_false (Nat.lt_irrefl _) (Nat.lt_irrefl _)
  · exact iff_of_false (Nat.lt_asymm (hUp q p hqLt hpLt hGt)) (Nat.lt_asymm hGt)

/-- An index is taken once. -/
theorem taken_inj {n p q i : Nat} (hp : ((List.range n).filter P)[p]? = some i)
    (hq : ((List.range n).filter P)[q]? = some i) : p = q := by
  have hLess := taken_lt_iff hp hq
  have hMore := taken_lt_iff hq hp
  omega

/-- A row whose key no other row taken has. -/
theorem placeOf_taken_alone {p i : Nat} (hp : p < (taken rows P).length)
    (hpAt : ((List.range rows.length).filter P)[p]? = some i)
    (h : ∀ j, P j → key (rowAt rows j) = key (rowAt rows i) → j = i) :
    placeOf key before (taken rows P) p = 1 := by
  refine place_single (peers_eq_single hp fun t ht hEq => ?_)
  obtain ⟨j, hj, hTaken⟩ := exists_index ht
  rw [rowAt_taken hj, rowAt_taken hpAt] at hEq
  obtain rfl := h j hTaken hEq
  exact taken_inj hj hpAt

/-- Two rows whose key no other row taken has. -/
theorem placeOf_taken_two {p q i c : Nat} (hLess : i < c) (hq : q < (taken rows P).length)
    (hpAt : ((List.range rows.length).filter P)[p]? = some i)
    (hqAt : ((List.range rows.length).filter P)[q]? = some c)
    (hKey : key (rowAt rows i) = key (rowAt rows c))
    (h : ∀ j, P j → key (rowAt rows j) = key (rowAt rows i) → j = i ∨ j = c) :
    (before (rowAt rows i) (rowAt rows c) →
        placeOf key before (taken rows P) p = 1 ∧ placeOf key before (taken rows P) q = 2) ∧
      (¬before (rowAt rows i) (rowAt rows c) →
        placeOf key before (taken rows P) p = 2 ∧ placeOf key before (taken rows P) q = 1) := by
  have hpq : p < q := (taken_lt_iff hpAt hqAt).1 hLess
  have hPeers : peers (taken rows P).length (fun t => key (rowAt (taken rows P) t)) p = [p, q] := by
    refine peers_eq_pair hpq hq fun t ht => ?_
    obtain ⟨j, hj, hTaken⟩ := exists_index ht
    rw [rowAt_taken hj, rowAt_taken hpAt]
    constructor
    · intro hEq
      rcases h j hTaken hEq with rfl | rfl
      · exact .inl (taken_inj hj hpAt)
      · exact .inr (taken_inj hj hqAt)
    · rintro (rfl | rfl)
      · rw [Option.some.inj (hj.symm.trans hpAt)]
      · rw [Option.some.inj (hj.symm.trans hqAt), hKey]
  have hPlaces := place_pair (r := fun a b => before (rowAt (taken rows P) a) (rowAt (taken rows P) b))
    hPeers (Nat.ne_of_lt hpq) (by rw [rowAt_taken hpAt, rowAt_taken hqAt, hKey])
  rwa [rowAt_taken hpAt, rowAt_taken hqAt] at hPlaces

end Taken

theorem place_inj {n : Nat} {f : Nat → κ} {r : Nat → Nat → Prop} [DecidableRel r] {i k : Nat}
    (hi : i < n) (hKey : f i = f k) (h : place n f r i = place n f r k) : i = k := by
  unfold place at h
  rw [← group_congr hKey] at h
  exact (List.idxOf_inj (self_mem_group hi)).1 (Nat.succ.inj h)

/-- Two rows that tie have different keys. -/
theorem key_ne_of_tied {i k : Nat} (hi : i < rows.length) (hk : k < rows.length) (hne : i ≠ k)
    (hPart : part (rowAt rows i) = part (rowAt rows k)) (hTie : cmp (rowAt rows i) (rowAt rows k) = .eq)
    (h : ∀ sub, sub.Sublist rows → Tied part cmp sub (placeOf key before sub)) :
    key (rowAt rows i) ≠ key (rowAt rows k) := by
  intro hKey
  obtain ⟨p, hp, hpAt⟩ := exists_taken (P := fun t => t = i ∨ t = k) hi (.inl rfl)
  obtain ⟨s, hs, hsAt⟩ := exists_taken (P := fun t => t = i ∨ t = k) hk (.inr rfl)
  have hpRow := rowAt_taken hpAt
  have hsRow := rowAt_taken hsAt
  have hTied := h _ taken_sublist p hp s (mem_peersOf.2 ⟨hs, by rw [hsRow, hpRow, hPart]⟩)
    (by rw [hsRow, hpRow, hTie])
  obtain rfl := place_inj hp (by rw [hsRow, hpRow, hKey]) hTied
  exact hne (Option.some.inj (hpAt.symm.trans hsAt))

/-- Of two rows that tie, each is put before all others with its key. -/
theorem leads_of_tied {i k : Nat} (hi : i < rows.length) (hk : k < rows.length)
    (hPart : part (rowAt rows i) = part (rowAt rows k)) (hTie : cmp (rowAt rows i) (rowAt rows k) = .eq)
    (hKey : key (rowAt rows i) ≠ key (rowAt rows k))
    (h : ∀ sub, sub.Sublist rows → Tied part cmp sub (placeOf key before sub)) :
    Leads key before rows i := by
  intro c hc hcKey
  by_cases hSame : c = i
  · rw [hSame]
    exact ⟨fun hLess => absurd hLess (Nat.lt_irrefl i), fun hMore => absurd hMore (Nat.lt_irrefl i)⟩
  -- the three rows alone
  obtain ⟨p, hp, hpAt⟩ := exists_taken (P := fun t => t = i ∨ t = k ∨ t = c) hi (.inl rfl)
  obtain ⟨s, hs, hsAt⟩ := exists_taken (P := fun t => t = i ∨ t = k ∨ t = c) hk (.inr (.inl rfl))
  obtain ⟨q, hq, hqAt⟩ := exists_taken (P := fun t => t = i ∨ t = k ∨ t = c) hc (.inr (.inr rfl))
  have hTied := h _ taken_sublist p hp s
    (mem_peersOf.2 ⟨hs, by rw [rowAt_taken hsAt, rowAt_taken hpAt, hPart]⟩)
    (by rw [rowAt_taken hsAt, rowAt_taken hpAt, hTie])
  have hAlone : placeOf key before (taken rows fun t => t = i ∨ t = k ∨ t = c) s = 1 := by
    refine placeOf_taken_alone hs hsAt fun j hj hEq => ?_
    rcases hj with rfl | rfl | rfl
    · exact absurd hEq hKey
    · rfl
    · exact absurd (hcKey.symm.trans hEq) hKey
  rw [hAlone] at hTied
  constructor
  · intro hLess hBefore
    have hTwo := (placeOf_taken_two hLess hp hqAt hpAt hcKey fun j hj hEq => by
      rcases hj with rfl | rfl | rfl
      · exact .inr rfl
      · exact absurd (hcKey.symm.trans hEq.symm) hKey
      · exact .inl rfl).1 hBefore
    exact absurd (hTied.symm.trans hTwo.2) (by decide)
  · intro hMore
    by_contra hBefore
    have hTwo := (placeOf_taken_two hMore hq hpAt hqAt hcKey.symm fun j hj hEq => by
      rcases hj with rfl | rfl | rfl
      · exact .inl rfl
      · exact absurd hEq.symm hKey
      · exact .inr rfl).2 hBefore
    exact absurd (hTied.symm.trans hTwo.1) (by decide)

/-- Rows that tie have one place in every table exactly when they are put apart, each
before all others with its key. -/
theorem forall_tied_iff [Std.OrientedCmp cmp] :
    (∀ sub, sub.Sublist rows → Tied part cmp sub (placeOf key before sub)) ↔
      TiesApart part key cmp before rows := by
  constructor
  · intro h i hi k hk hne hPart hTie
    have hKey := key_ne_of_tied hi hk hne hPart hTie h
    exact ⟨hKey, leads_of_tied hi hk hPart hTie hKey h⟩
  · intro hApart sub hSub
    obtain ⟨is, rfl, hSorted, hLt⟩ := exists_pick hSub
    exact tied_placeOf hApart hSorted hLt

end Ties

end Windows
