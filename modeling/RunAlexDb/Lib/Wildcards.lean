import Mathlib.Data.List.Forall2

/-!
# Wildcards — texts cut along a pattern

A text fits a pattern when it can be cut into consecutive pieces, one for each
letter of the pattern, so that each letter takes its piece. A letter that takes
every piece may as well stand twice.

Main results: `cut_cons`, `cut_cons_any` and `cut_any_run`.
-/

namespace Wildcards

variable {α γ : Type}

/-- The text is cut into a piece for each letter of the pattern. -/
def Cut (takes : γ → List α → Prop) (p : List γ) (v : List α) : Prop :=
  ∃ pieces : List (List α), pieces.flatten = v ∧ List.Forall₂ takes p pieces

variable {takes : γ → List α → Prop} {c : γ} {p q : List γ} {v : List α}

theorem cut_nil : Cut takes [] v ↔ v = [] := by
  constructor
  · rintro ⟨pieces, rfl, hTakes⟩
    rw [List.forall₂_nil_left_iff.1 hTakes]
    rfl
  · rintro rfl
    exact ⟨[], rfl, .nil⟩

/-- The first piece and the rest. -/
theorem cut_cons : Cut takes (c :: p) v ↔
    ∃ piece rest, v = piece ++ rest ∧ takes c piece ∧ Cut takes p rest := by
  constructor
  · rintro ⟨pieces, rfl, hTakes⟩
    obtain ⟨piece, pieces, hPiece, hRest, rfl⟩ := List.forall₂_cons_left_iff.1 hTakes
    exact ⟨piece, pieces.flatten, List.flatten_cons, hPiece, pieces, rfl, hRest⟩
  · rintro ⟨piece, rest, rfl, hPiece, pieces, rfl, hRest⟩
    exact ⟨piece :: pieces, List.flatten_cons, .cons hPiece hRest⟩

theorem cut_append : Cut takes (p ++ q) v ↔ ∃ a b, v = a ++ b ∧ Cut takes p a ∧ Cut takes q b := by
  induction p generalizing v with
  | nil =>
    constructor
    · exact fun hCut => ⟨[], v, rfl, cut_nil.2 rfl, hCut⟩
    · rintro ⟨a, b, rfl, hNil, hCut⟩
      rw [cut_nil.1 hNil]
      exact hCut
  | cons c p ih =>
    rw [List.cons_append, cut_cons]
    constructor
    · rintro ⟨piece, rest, rfl, hPiece, hCut⟩
      obtain ⟨a, b, rfl, ha, hb⟩ := ih.1 hCut
      exact ⟨piece ++ a, b, (List.append_assoc ..).symm, cut_cons.2 ⟨piece, a, rfl, hPiece, ha⟩, hb⟩
    · rintro ⟨a, b, rfl, ha, hb⟩
      obtain ⟨piece, rest, rfl, hPiece, hCut⟩ := cut_cons.1 ha
      exact ⟨piece, rest ++ b, List.append_assoc .., hPiece, ih.2 ⟨rest, b, rfl, hCut, hb⟩⟩

/-- A letter that takes one thing at a time. -/
theorem cut_cons_one {one : α → Prop} (h : ∀ piece, takes c piece ↔ ∃ x, piece = [x] ∧ one x) :
    Cut takes (c :: p) v ↔ ∃ x rest, v = x :: rest ∧ one x ∧ Cut takes p rest := by
  rw [cut_cons]
  constructor
  · rintro ⟨piece, rest, rfl, hPiece, hCut⟩
    obtain ⟨x, rfl, hOne⟩ := (h piece).1 hPiece
    exact ⟨x, rest, rfl, hOne, hCut⟩
  · rintro ⟨x, rest, rfl, hOne, hCut⟩
    exact ⟨[x], rest, rfl, (h [x]).2 ⟨x, rfl, hOne⟩, hCut⟩

section Any

variable (h : ∀ piece, takes c piece)

include h

/-- A letter that takes everything leaves some end of the text. -/
theorem cut_cons_any : Cut takes (c :: p) v ↔ ∃ rest, rest <:+ v ∧ Cut takes p rest := by
  rw [cut_cons]
  constructor
  · rintro ⟨piece, rest, rfl, -, hCut⟩
    exact ⟨rest, List.suffix_append .., hCut⟩
  · rintro ⟨rest, ⟨piece, rfl⟩, hCut⟩
    exact ⟨piece, rest, rfl, h piece, hCut⟩

theorem cut_any_twice : Cut takes (c :: c :: p) v ↔ Cut takes (c :: p) v := by
  rw [cut_cons_any h]
  constructor
  · rintro ⟨rest, hRest, hCut⟩
    obtain ⟨rest', hRest', hCut⟩ := (cut_cons_any h).1 hCut
    exact (cut_cons_any h).2 ⟨rest', hRest'.trans hRest, hCut⟩
  · exact fun hCut => ⟨v, List.suffix_rfl, hCut⟩

/-- Standing many times, it takes what it takes standing once. -/
theorem cut_any_run (n : Nat) :
    Cut takes (List.replicate (n + 1) c ++ p) v ↔ Cut takes (c :: p) v := by
  induction n with
  | zero => rfl
  | succ n ih => exact (cut_any_twice h).trans ih

end Any

end Wildcards
