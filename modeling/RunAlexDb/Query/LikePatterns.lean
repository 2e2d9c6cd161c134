import RunAlexDb.Lib.Wildcards
import RunAlexDb.Model.Types

/-!
# LikePatterns — what LIKE matches

`like_match` tries every end of the text behind a `%`. It is true exactly when the
text can be cut along the pattern.

Main result: `likeMatch_cut`.
-/

namespace RunAlexDb

open Text Platform Wildcards

variable [Platform]

/-- What a character of a pattern takes: `%` any piece, `_` one character, any other
one character that is the same in lower case. -/
def LikeTakes (c : Char) (piece : Str) : Prop :=
  if c = '%' then True
  else if c = '_' then piece.length = 1
  else ∃ x, piece = [x] ∧ toLowercase [c] = toLowercase [x]

theorem likeTakes_percent (piece : Str) : LikeTakes '%' piece := trivial

theorem likeTakes_underscore (piece : Str) : LikeTakes '_' piece ↔ ∃ x, piece = [x] ∧ True := by
  show piece.length = 1 ↔ _
  rw [List.length_eq_one_iff]
  exact exists_congr fun x => (and_iff_left trivial).symm

theorem likeTakes_other {c : Char} (hPercent : c ≠ '%') (hUnderscore : c ≠ '_') (piece : Str) :
    LikeTakes c piece ↔ ∃ x, piece = [x] ∧ toLowercase [c] = toLowercase [x] := by
  unfold LikeTakes
  rw [if_neg hPercent, if_neg hUnderscore]

/-- The matcher on a character that takes only its like. -/
theorem likeMatch_other {c : Char} (hPercent : c ≠ '%') (hUnderscore : c ≠ '_') (v p : Str) :
    likeMatch v (c :: p) = match v with
      | [] => false
      | x :: v => toLowercase [c] == toLowercase [x] && likeMatch v p := by
  cases v with
  | nil => rw [likeMatch.eq_5 _ _ hPercent hUnderscore]
  | cons x v => rw [likeMatch.eq_6 _ _ _ _ hPercent hUnderscore]

theorem likeMatch_iff (v p : Str) : likeMatch v p = true ↔ Cut LikeTakes p v := by
  induction p generalizing v with
  | nil =>
    rw [likeMatch, List.isEmpty_iff]
    exact cut_nil.symm
  | cons c p ih =>
    have hNone : ∀ {P : Char → Prop} {Q : Str → Prop}, ¬∃ x rest, ([] : Str) = x :: rest ∧ P x ∧ Q rest := by
      rintro P Q ⟨x, rest, hSame, -⟩
      exact List.cons_ne_nil _ _ hSame.symm
    by_cases hPercent : c = '%'
    · subst hPercent
      rw [cut_cons_any likeTakes_percent, likeMatch, List.any_eq_true]
      exact exists_congr fun rest => and_congr (List.mem_tails ..) (ih rest)
    by_cases hUnderscore : c = '_'
    · subst hUnderscore
      rw [cut_cons_one likeTakes_underscore]
      cases v with
      | nil => exact iff_of_false Bool.false_ne_true hNone
      | cons x v =>
        constructor
        · exact fun hMatch => ⟨x, v, rfl, trivial, (ih v).1 hMatch⟩
        · rintro ⟨y, rest, hSame, -, hCut⟩
          obtain ⟨-, rfl⟩ := List.cons.inj hSame
          exact (ih v).2 hCut
    · rw [cut_cons_one (likeTakes_other hPercent hUnderscore), likeMatch_other hPercent hUnderscore]
      cases v with
      | nil => exact iff_of_false Bool.false_ne_true hNone
      | cons x v =>
        rw [Bool.and_eq_true, beq_iff_eq, ih]
        constructor
        · exact fun hMatch => ⟨x, v, rfl, hMatch⟩
        · rintro ⟨y, rest, hSame, hBoth⟩
          obtain ⟨rfl, rfl⟩ := List.cons.inj hSame
          exact hBoth

/-- **LIKE.** It is true exactly when the text can be cut along the pattern; a run of
`%` is as good as one. -/
theorem likeMatch_cut (v : Str) :
    (∀ p, likeMatch v p = true ↔ Cut LikeTakes p v) ∧
      ∀ (p q : Str) (n : Nat),
        likeMatch v (p ++ List.replicate (n + 1) '%' ++ q) = likeMatch v (p ++ '%' :: q) := by
  refine ⟨likeMatch_iff v, fun p q n => ?_⟩
  rw [Bool.eq_iff_iff, likeMatch_iff, likeMatch_iff, List.append_assoc, cut_append, cut_append]
  refine exists₂_congr fun a b => and_congr_right fun _ => and_congr_right fun _ => ?_
  exact cut_any_run likeTakes_percent n

end RunAlexDb
