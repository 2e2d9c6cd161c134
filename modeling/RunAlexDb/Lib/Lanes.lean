import Mathlib.Data.Nat.Basic

/-!
# Lanes — 256-bit registers and the instructions that read them in lanes

A register is 256 bits. The vector instructions read it as lanes of 8 or of 64
bits, lane 0 in the lowest bits; a comparison fills each lane with ones or with
zeros, and the byte mask takes the top bit of each byte.

Main results: `lane_fromLanes`, `movemaskEpi8_fill` and `masked_quad`.
-/

namespace Lanes

-- ---------------------------------------------------------------------------
-- Bits
-- ---------------------------------------------------------------------------

/-- The word whose bit `i` is `f i`. -/
def ofBits (f : Nat → Bool) : (n : Nat) → BitVec n
  | 0 => 0#0
  | n + 1 => BitVec.cons (f n) (ofBits f n)

theorem getLsbD_ofBits (f : Nat → Bool) (n i : Nat) :
    (ofBits f n).getLsbD i = (decide (i < n) && f i) := by
  induction n with
  | zero => simp [ofBits]
  | succ n ih =>
    unfold ofBits
    rw [BitVec.getLsbD_cons, ih]
    by_cases hTop : i = n
    · subst hTop
      simp
    · have hSame : decide (i < n) = decide (i < n + 1) := by
        rw [decide_eq_decide]
        omega
      rw [if_neg hTop, hSame]

theorem ofBits_congr {f g : Nat → Bool} {n : Nat} (h : ∀ i < n, f i = g i) :
    ofBits f n = ofBits g n := by
  refine BitVec.eq_of_getLsbD_eq fun i hi => ?_
  rw [getLsbD_ofBits, getLsbD_ofBits, h i hi]

-- ---------------------------------------------------------------------------
-- Registers
-- ---------------------------------------------------------------------------

/-- `__m256i`. -/
abbrev M256 := BitVec 256

/-- The register with the given lanes. -/
def fromLanes {w : Nat} (f : Nat → BitVec w) : M256 :=
  ofBits (fun i => (f (i / w)).getLsbD (i % w)) 256

/-- Lane `j` of `w` bits. -/
def lane (w : Nat) (r : M256) (j : Nat) : BitVec w := r.extractLsb' (w * j) w

theorem lane_fromLanes {w : Nat} (f : Nat → BitVec w) {j : Nat} (h : w * (j + 1) ≤ 256) :
    lane w (fromLanes f) j = f j := by
  refine BitVec.eq_of_getLsbD_eq fun i hi => ?_
  have hBit : w * j + i < 256 := by
    rw [Nat.mul_add] at h
    omega
  have hLane : (w * j + i) / w = j := by
    rw [Nat.mul_add_div (by omega), Nat.div_eq_of_lt hi, Nat.add_zero]
  have hRest : (w * j + i) % w = i := by
    rw [Nat.mul_add_mod, Nat.mod_eq_of_lt hi]
  unfold lane fromLanes
  rw [BitVec.getLsbD_extractLsb', getLsbD_ofBits, hLane, hRest, decide_eq_true hi,
    decide_eq_true hBit, Bool.true_and, Bool.true_and]

-- ---------------------------------------------------------------------------
-- Instructions
-- ---------------------------------------------------------------------------

/-- A lane of a comparison: all ones, or zero. -/
def fill (w : Nat) (p : Bool) : BitVec w := if p then BitVec.allOnes w else 0#w

theorem getLsbD_fill {w i : Nat} (p : Bool) (h : i < w) : (fill w p).getLsbD i = p := by
  unfold fill
  rcases p with _ | _
  · simp
  · simp [h]

/-- `_mm256_set1_epi64x`. -/
def set1Epi64x (x : BitVec 64) : M256 := fromLanes fun _ => x

/-- `_mm256_cmpeq_epi64`. -/
def cmpeqEpi64 (a b : M256) : M256 := fromLanes fun j => fill 64 (lane 64 a j == lane 64 b j)

/-- `_mm256_cmpgt_epi64`, signed. -/
def cmpgtEpi64 (a b : M256) : M256 := fromLanes fun j => fill 64 ((lane 64 b j).slt (lane 64 a j))

/-- `_mm256_cmpeq_epi8`. -/
def cmpeqEpi8 (a b : M256) : M256 := fromLanes fun j => fill 8 (lane 8 a j == lane 8 b j)

/-- `_mm256_movemask_epi8`: the top bit of each byte. -/
def movemaskEpi8 (a : M256) : BitVec 32 := ofBits (fun i => a.getLsbD (8 * i + 7)) 32

/-- The byte mask of lanes of `k` bytes: every byte of a lane has its bit. -/
theorem movemaskEpi8_fill {k : Nat} (hk : 0 < k) (p : Nat → Bool) :
    movemaskEpi8 (fromLanes fun j => fill (8 * k) (p j)) = ofBits (fun i => p (i / k)) 32 := by
  refine ofBits_congr fun i hi => ?_
  have hBit : 8 * i + 7 < 256 := by omega
  have hLane : (8 * i + 7) / (8 * k) = i / k := by
    rw [← Nat.div_div_eq_div_mul]
    congr 1
    omega
  have hIn : (8 * i + 7) % (8 * k) < 8 * k := Nat.mod_lt _ (by omega)
  unfold fromLanes
  rw [getLsbD_ofBits, decide_eq_true hBit, Bool.true_and, hLane]
  exact getLsbD_fill (p (i / k)) hIn

/-- A mask whose four bytes are ones or zeros. -/
def quad (a b c d : Bool) : BitVec 32 :=
  ofBits (fun i => match i / 8 with
    | 0 => a
    | 1 => b
    | 2 => c
    | _ => d) 32

theorem ofBits_quad (p : Nat → Bool) : ofBits (fun i => p (i / 8)) 32 = quad (p 0) (p 1) (p 2) (p 3) := by
  refine ofBits_congr fun i hi => ?_
  have hByte : i / 8 = 0 ∨ i / 8 = 1 ∨ i / 8 = 2 ∨ i / 8 = 3 := by omega
  rcases hByte with h | h | h | h <;> simp only [h]

/-- Each byte of a mask shows its lane. -/
theorem masked_quad (a b c d : Bool) :
    (quad a b c d = 0 ↔ (a || b || c || d) = false) ∧
      (quad a b c d &&& 0x000000FF ≠ 0 ↔ a = true) ∧ (quad a b c d &&& 0x0000FF00 ≠ 0 ↔ b = true) ∧
        (quad a b c d &&& 0x00FF0000 ≠ 0 ↔ c = true) ∧
          (quad a b c d &&& 0xFF000000 ≠ 0 ↔ d = true) := by
  revert a b c d
  decide +kernel

end Lanes
