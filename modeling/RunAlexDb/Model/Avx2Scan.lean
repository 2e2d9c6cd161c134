import RunAlexDb.Lib.Lanes
import RunAlexDb.Model.SimdScan

/-!
# Avx2Scan — the vector versions of the column scans

Four integers a register: a comparison, its byte mask, one bit test a lane, and
the rest one by one. Texts of at most 32 bytes are compared in one register,
zeros behind them.
-/

namespace RunAlexDb

open Text Lanes

-- ---------------------------------------------------------------------------
-- Integers
-- ---------------------------------------------------------------------------

/-- `_mm256_loadu_si256` of the integers from `i`. -/
def loadI64 (data : List Int64) (i : Nat) : M256 := fromLanes fun j => (data.getD (i + j) 0).toBitVec

/-- The indices a mask of four lanes pushes. -/
def pushLanes (mask : BitVec 32) (i : Nat) : List Nat :=
  if mask ≠ 0 then
    (if mask &&& 0x000000FF ≠ 0 then [i] else []) ++
      (if mask &&& 0x0000FF00 ≠ 0 then [i + 1] else []) ++
      (if mask &&& 0x00FF0000 ≠ 0 then [i + 2] else []) ++
      (if mask &&& 0xFF000000 ≠ 0 then [i + 3] else [])
  else []

/-- The blocks from `i`, `n` of them. -/
def scanBlocks (cmp : M256 → M256) (data : List Int64) : Nat → Nat → List Nat
  | 0, _ => []
  | n + 1, i => pushLanes (movemaskEpi8 (cmp (loadI64 data i))) i ++ scanBlocks cmp data n (i + 4)

/-- The elements from `i`, one by one. -/
def scanTail (p : Int64 → Bool) : List Int64 → Nat → List Nat
  | [], _ => []
  | x :: rest, i => if p x then i :: scanTail p rest (i + 1) else scanTail p rest (i + 1)

/-- A scan by the comparison `cmp` of registers, and by `p` behind the last block. -/
def scanAvx2 (cmp : M256 → M256) (p : Int64 → Bool) (data : List Int64) : List Nat :=
  let n4 := data.length / 4 * 4
  scanBlocks cmp data (data.length / 4) 0 ++ scanTail p (data.drop n4) n4

def scanEqAvx2 (data : List Int64) (target : Int64) : List Nat :=
  let splat := set1Epi64x target.toBitVec
  scanAvx2 (fun v => cmpeqEpi64 v splat) (· == target) data

def scanGtAvx2 (data : List Int64) (target : Int64) : List Nat :=
  let splat := set1Epi64x target.toBitVec
  scanAvx2 (fun v => cmpgtEpi64 v splat) (target < ·) data

/-- `target > v` for `v < target`. -/
def scanLtAvx2 (data : List Int64) (target : Int64) : List Nat :=
  let splat := set1Epi64x target.toBitVec
  scanAvx2 (fun v => cmpgtEpi64 splat v) (· < target) data

-- ---------------------------------------------------------------------------
-- Texts
-- ---------------------------------------------------------------------------

/-- `_mm256_loadu_si256` of a buffer of 32 bytes, the text at its beginning and
zeros behind it. -/
def loadPadded (b : List UInt8) : M256 := fromLanes fun j => (b.getD j 0).toBitVec

/-- The texts as long as the target whose register equals the target's. -/
def scanEqStrAvx2 (data : List Str) (target : Str) : List Nat :=
  let tb := bytes target
  let vpat := loadPadded tb
  (data.zipIdx.filter fun x =>
    (bytes x.1).length == tb.length &&
      movemaskEpi8 (cmpeqEpi8 (loadPadded (bytes x.1)) vpat) == 0xFFFFFFFF).map Prod.snd

end RunAlexDb
