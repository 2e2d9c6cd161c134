import RunAlexDb.Lib.Utf8
import RunAlexDb.Model.Avx2Scan

/-!
# LaneScans — the vector scans find what the scalar filters find

A block of four lanes gives the indices of its four elements, one block after the
other, and the tail the rest. For texts the zeros behind them compare equal, so
that all 32 bytes agree just when the texts do.

Main result: `avx2_scans`.
-/

namespace RunAlexDb

open Text Lanes

-- ---------------------------------------------------------------------------
-- The scalar filter from a position on
-- ---------------------------------------------------------------------------

theorem scanTail_eq (p : Int64 → Bool) (data : List Int64) (i : Nat) :
    scanTail p data i = ((data.zipIdx i).filter fun x => p x.1).map Prod.snd := by
  induction data generalizing i with
  | nil => rfl
  | cons x rest ih =>
    unfold scanTail
    rw [List.zipIdx_cons, List.filter_cons, ih]
    split_ifs <;> rfl

theorem scanTail_append (p : Int64 → Bool) (a b : List Int64) (i : Nat) :
    scanTail p (a ++ b) i = scanTail p a i ++ scanTail p b (i + a.length) := by
  rw [scanTail_eq, scanTail_eq, scanTail_eq, List.zipIdx_append, List.filter_append, List.map_append]

-- ---------------------------------------------------------------------------
-- Blocks
-- ---------------------------------------------------------------------------

/-- What a comparison of registers stands for, lane by lane. -/
def Compares (cmp : M256 → M256) (p : Int64 → Bool) : Prop :=
  ∀ f : Nat → Int64, cmp (fromLanes fun j => (f j).toBitVec) = fromLanes fun j => fill 64 (p (f j))

/-- The four bit tests, and the test of the whole mask before them. -/
theorem pushLanes_quad (a b c d : Bool) (i : Nat) :
    pushLanes (quad a b c d) i =
      (if a then [i] else []) ++ (if b then [i + 1] else []) ++ (if c then [i + 2] else []) ++
        (if d then [i + 3] else []) := by
  obtain ⟨hNone, hA, hB, hC, hD⟩ := masked_quad a b c d
  unfold pushLanes
  simp only [hA, hB, hC, hD]
  by_cases hZero : quad a b c d = 0
  · have hFalse := hNone.1 hZero
    simp only [Bool.or_eq_false_iff] at hFalse
    obtain ⟨⟨⟨rfl, rfl⟩, rfl⟩, rfl⟩ := hFalse
    rw [if_neg (not_not.2 hZero)]
    rfl
  · rw [if_pos hZero]

/-- One block. -/
theorem pushLanes_load {cmp : M256 → M256} {p : Int64 → Bool} (hCmp : Compares cmp p)
    (data : List Int64) (i : Nat) :
    pushLanes (movemaskEpi8 (cmp (loadI64 data i))) i =
      scanTail p [data.getD i 0, data.getD (i + 1) 0, data.getD (i + 2) 0, data.getD (i + 3) 0] i := by
  have hMask : movemaskEpi8 (cmp (loadI64 data i)) =
      quad (p (data.getD i 0)) (p (data.getD (i + 1) 0)) (p (data.getD (i + 2) 0))
        (p (data.getD (i + 3) 0)) := by
    have hEight : 0 < 8 := by decide
    unfold loadI64
    rw [hCmp fun j => data.getD (i + j) 0]
    exact (movemaskEpi8_fill hEight fun j => p (data.getD (i + j) 0)).trans
      (ofBits_quad fun j => p (data.getD (i + j) 0))
  rw [hMask, pushLanes_quad]
  simp only [scanTail]
  split_ifs <;> rfl

theorem take_block (data : List Int64) {i n : Nat} (h : i + 4 * (n + 1) ≤ data.length) :
    (data.drop i).take (4 * (n + 1)) =
      [data.getD i 0, data.getD (i + 1) 0, data.getD (i + 2) 0, data.getD (i + 3) 0] ++
        (data.drop (i + 4)).take (4 * n) := by
  have hCons : ∀ j, j < data.length → data.drop j = data.getD j 0 :: data.drop (j + 1) := by
    intro j hj
    rw [List.drop_eq_getElem_cons hj, List.getD_eq_getElem?_getD, List.getElem?_eq_getElem hj,
      Option.getD_some]
  rw [hCons i (by omega), hCons (i + 1) (by omega), hCons (i + 2) (by omega), hCons (i + 3) (by omega)]
  rfl

/-- The blocks find what the scalar filter finds in them. -/
theorem scanBlocks_eq {cmp : M256 → M256} {p : Int64 → Bool} (hCmp : Compares cmp p)
    (data : List Int64) (n i : Nat) (h : i + 4 * n ≤ data.length) :
    scanBlocks cmp data n i = scanTail p ((data.drop i).take (4 * n)) i := by
  induction n generalizing i with
  | zero => rfl
  | succ n ih =>
    unfold scanBlocks
    rw [pushLanes_load hCmp, ih (i + 4) (by omega), take_block data h, scanTail_append]
    rfl

/-- **A vector scan** is the scalar filter. -/
theorem scanAvx2_eq {cmp : M256 → M256} {p : Int64 → Bool} (hCmp : Compares cmp p)
    (data : List Int64) : scanAvx2 cmp p data = scanWhere p data := by
  have hFits : 0 + 4 * (data.length / 4) ≤ data.length := by omega
  have hBlocks := scanBlocks_eq hCmp data (data.length / 4) 0 hFits
  have hLen : (data.take (4 * (data.length / 4))).length = 4 * (data.length / 4) :=
    List.length_take_of_le (by omega)
  unfold scanAvx2
  simp only
  rw [hBlocks, List.drop_zero, Nat.mul_comm (data.length / 4) 4]
  have hAppend := scanTail_append p (data.take (4 * (data.length / 4)))
    (data.drop (4 * (data.length / 4))) 0
  rw [List.take_append_drop, hLen, Nat.zero_add] at hAppend
  rw [← hAppend, scanTail_eq]
  rfl

-- ---------------------------------------------------------------------------
-- The comparisons
-- ---------------------------------------------------------------------------

theorem fromLanes_congr {w : Nat} {f g : Nat → BitVec w} (h : ∀ j, w * (j + 1) ≤ 256 → f j = g j)
    (hw : 0 < w) (hAll : 256 % w = 0) : fromLanes f = fromLanes g := by
  unfold fromLanes
  refine ofBits_congr fun i hi => ?_
  have hIn : w * (i / w + 1) ≤ 256 := by
    obtain ⟨n, hn⟩ := Nat.dvd_of_mod_eq_zero hAll
    have hLt : i / w < n := by
      rw [Nat.div_lt_iff_lt_mul hw, Nat.mul_comm, ← hn]
      exact hi
    rw [hn]
    exact Nat.mul_le_mul_left w hLt
  rw [h (i / w) hIn]

theorem compares_eq (target : Int64) :
    Compares (fun v => cmpeqEpi64 v (set1Epi64x target.toBitVec)) (· == target) := by
  intro f
  unfold cmpeqEpi64 set1Epi64x
  refine fromLanes_congr (fun j hj => ?_) (by decide) (by decide)
  rw [lane_fromLanes _ hj, lane_fromLanes _ hj]
  congr 1
  rw [Bool.eq_iff_iff, beq_iff_eq, beq_iff_eq, Int64.toBitVec_inj]

theorem compares_gt (target : Int64) :
    Compares (fun v => cmpgtEpi64 v (set1Epi64x target.toBitVec)) (target < ·) := by
  intro f
  unfold cmpgtEpi64 set1Epi64x
  refine fromLanes_congr (fun j hj => ?_) (by decide) (by decide)
  rw [lane_fromLanes _ hj, lane_fromLanes _ hj]
  congr 1
  rw [Bool.eq_iff_iff, decide_eq_true_iff, Int64.lt_iff_toBitVec_slt]

theorem compares_lt (target : Int64) :
    Compares (fun v => cmpgtEpi64 (set1Epi64x target.toBitVec) v) (· < target) := by
  intro f
  unfold cmpgtEpi64 set1Epi64x
  refine fromLanes_congr (fun j hj => ?_) (by decide) (by decide)
  rw [lane_fromLanes _ hj, lane_fromLanes _ hj]
  congr 1
  rw [Bool.eq_iff_iff, decide_eq_true_iff, Int64.lt_iff_toBitVec_slt]

-- ---------------------------------------------------------------------------
-- Texts
-- ---------------------------------------------------------------------------

/-- All 32 bytes agree just when the texts do. -/
theorem movemask_padded {a b : List UInt8} (hLen : a.length = b.length) (hFits : b.length ≤ 32) :
    movemaskEpi8 (cmpeqEpi8 (loadPadded a) (loadPadded b)) = 0xFFFFFFFF ↔ a = b := by
  have hCmp : cmpeqEpi8 (loadPadded a) (loadPadded b) =
      fromLanes fun j => fill 8 (a.getD j 0 == b.getD j 0) := by
    unfold cmpeqEpi8 loadPadded
    refine fromLanes_congr (fun j hj => ?_) (by decide) (by decide)
    rw [lane_fromLanes _ hj, lane_fromLanes _ hj]
    congr 1
    rw [Bool.eq_iff_iff, beq_iff_eq, beq_iff_eq, UInt8.toBitVec_inj]
  have hOnes : (0xFFFFFFFF : BitVec 32) = BitVec.allOnes 32 := by decide
  have hOne : 0 < 1 := by decide
  rw [hCmp, movemaskEpi8_fill hOne fun j => a.getD j 0 == b.getD j 0, hOnes]
  constructor
  · intro hAll
    refine List.ext_getElem hLen fun i hA hB => ?_
    have hBit := congrArg (fun m : BitVec 32 => m.getLsbD i) hAll
    have hIn : i < 32 := by omega
    simp only [getLsbD_ofBits, BitVec.getLsbD_allOnes, Nat.div_one, decide_eq_true hIn,
      Bool.true_and, beq_iff_eq] at hBit
    rwa [List.getD_eq_getElem?_getD, List.getD_eq_getElem?_getD, List.getElem?_eq_getElem hA,
      List.getElem?_eq_getElem hB, Option.getD_some, Option.getD_some] at hBit
  · rintro rfl
    refine BitVec.eq_of_getLsbD_eq fun i hi => ?_
    rw [getLsbD_ofBits, BitVec.getLsbD_allOnes, beq_self_eq_true, Bool.and_true]

/-- **The vector scans.** Each finds the indices the scalar filter finds. -/
theorem avx2_scans :
    (∀ (data : List Int64) (target : Int64), scanEqAvx2 data target = scanEqI64 data target ∧
      scanGtAvx2 data target = scanGtI64 data target ∧
        scanLtAvx2 data target = scanLtI64 data target) ∧
      ∀ (data : List Str) (target : Str), 1 ≤ (bytes target).length → (bytes target).length ≤ 32 →
        scanEqStrAvx2 data target = scanEqStr data target := by
  refine ⟨fun data target => ⟨scanAvx2_eq (compares_eq target) data,
    scanAvx2_eq (compares_gt target) data, scanAvx2_eq (compares_lt target) data⟩,
    fun data target _ hFits => ?_⟩
  have hBytes : ∀ s : Str, ((bytes s).length == (bytes target).length &&
      movemaskEpi8 (cmpeqEpi8 (loadPadded (bytes s)) (loadPadded (bytes target))) == 0xFFFFFFFF) =
        (s == target) := by
    intro s
    rw [Bool.eq_iff_iff, Bool.and_eq_true, beq_iff_eq, beq_iff_eq, beq_iff_eq]
    constructor
    · rintro ⟨hLen, hMask⟩
      have hSame := (movemask_padded hLen hFits).1 hMask
      rw [← fromUtf8Lossy_bytes s, hSame, fromUtf8Lossy_bytes]
    · rintro rfl
      exact ⟨rfl, (movemask_padded rfl hFits).2 rfl⟩
  unfold scanEqStrAvx2 scanEqStr scanWhere
  simp only [hBytes]

theorem avx2_scans_bob :
    scanEqStrAvx2 ["alice", "bob", "bobby", "bob"] "bob" =
      scanEqStr ["alice", "bob", "bobby", "bob"] "bob" :=
  avx2_scans.2 _ _ (by decide) (by decide)

end RunAlexDb
