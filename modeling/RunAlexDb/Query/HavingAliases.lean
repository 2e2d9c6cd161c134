import RunAlexDb.Lib.Chains
import RunAlexDb.Model.Aggregate
import RunAlexDb.Model.Concrete

/-!
# HavingAliases — aliases in HAVING and the depth of their expansion

An operand of HAVING that is an alias stands for its expression, and that is
looked up among the aliases again. The expansion comes to an end when it leaves
the aliases, after at most as many steps as there are aliases; an alias that
stands for itself, at once or around others, never leaves them.

Main results: `evalHaving_of_ends` and `having_iff`.
-/

set_option linter.unusedSectionVars false

namespace RunAlexDb

open Text Platform

/-- The same machine with another stack. -/
@[reducible] def withStack [P : Platform] (depth : Nat) : Platform := { P with stackDepth := depth }

section HavingAliases

variable [Platform] (rows : List Row) (cols : List Column) (aliases : HashMap Str Expr)

-- ---------------------------------------------------------------------------
-- What an operand stands for
-- ---------------------------------------------------------------------------

/-- The expression an alias is looked up as. -/
def aliasOf : Expr → Option Expr
  | .identifier id => aliases.get (toUppercase id.value)
  | _ => none

/-- The name an expression is looked up by. -/
def aliasKey : Expr → Str
  | .identifier id => toUppercase id.value
  | _ => []

/-- The expression behind all aliases; `none` for an alias that only comes back
to aliases. -/
def standsFor (e : Expr) : Option Expr := Chains.follow (aliasOf aliases) aliases.keys.length e

/-- The value of an operand that is no alias. -/
def operandValue (e : Expr) : Value :=
  ((evalHavingVal rows cols HashMap.empty 1 e).toOption).getD .null

theorem mem_keys_of_alias {e : Expr} (h : (aliasOf aliases e).isSome) : aliasKey e ∈ aliases.keys := by
  unfold aliasOf at h
  split at h
  · exact HashMap.containsKey_iff.1 h
  · cases h

theorem alias_of_key {d e : Expr} (hd : (aliasOf aliases d).isSome) (he : (aliasOf aliases e).isSome)
    (hKey : aliasKey d = aliasKey e) : aliasOf aliases d = aliasOf aliases e := by
  unfold aliasOf at hd he
  split at hd
  · split at he
    · exact congrArg aliases.get hKey
    · cases he
  · cases hd

variable {aliases}

theorem standsFor_eq_some {e c : Expr} :
    standsFor aliases e = some c ↔ ∃ n, Chains.EndsIn (aliasOf aliases) n e c :=
  (Chains.ends_iff_follow (fun _ => mem_keys_of_alias aliases) fun _ _ => alias_of_key aliases).symm

variable {rows cols}

theorem evalHavingVal_alias {e e' : Expr} (h : aliasOf aliases e = some e') (n : Nat) :
    evalHavingVal rows cols aliases (n + 1) e = evalHavingVal rows cols aliases n e' := by
  unfold aliasOf at h
  split at h
  · next id =>
    conv_lhs =>
      unfold evalHavingVal
      dsimp only
    rw [h]
  · cases h

theorem evalHavingVal_plain {e : Expr} (h : aliasOf aliases e = none) (n : Nat) :
    evalHavingVal rows cols aliases (n + 1) e = .ok (operandValue rows cols e) := by
  unfold aliasOf at h
  unfold operandValue evalHavingVal
  split at h
  · dsimp only
    rw [h, HashMap.get_empty]
    rfl
  · next hNot =>
    cases e with
    | identifier id => exact absurd rfl (hNot id)
    | function f =>
      dsimp only
      split <;> rfl
    | _ => rfl

/-- An operand has its value on every stack that is deeper than its chain of
aliases is long. -/
theorem evalHavingVal_succ (n : Nat) (e : Expr) :
    evalHavingVal rows cols aliases (n + 1) e =
      match Chains.follow (aliasOf aliases) n e with
      | some c => .ok (operandValue rows cols c)
      | none => .error .stackOverflow := by
  induction n generalizing e with
  | zero =>
    unfold Chains.follow
    cases hNext : aliasOf aliases e with
    | none => exact evalHavingVal_plain hNext 0
    | some e' => exact evalHavingVal_alias hNext 0
  | succ n ih =>
    unfold Chains.follow
    cases hNext : aliasOf aliases e with
    | none => exact evalHavingVal_plain hNext (n + 1)
    | some e' => exact (evalHavingVal_alias hNext (n + 1)).trans (ih e')

theorem ok_of_standsFor {e c : Expr} (h : standsFor aliases e = some c) {depth : Nat}
    (hDeep : aliases.keys.length < depth) :
    evalHavingVal rows cols aliases depth e = .ok (operandValue rows cols c) := by
  obtain ⟨n, rfl⟩ : ∃ n, depth = n + 1 := ⟨depth - 1, by omega⟩
  obtain ⟨k, hLe, hEnds⟩ := Chains.follow_eq_some.1 h
  rw [evalHavingVal_succ, Chains.follow_eq_some.2 ⟨k, by omega, hEnds⟩]

theorem standsFor_of_ok {e : Expr} {depth : Nat} {v : Value}
    (h : evalHavingVal rows cols aliases depth e = .ok v) :
    ∃ c, standsFor aliases e = some c ∧ v = operandValue rows cols c := by
  cases depth with
  | zero => cases h
  | succ n =>
    rw [evalHavingVal_succ] at h
    cases hEnd : Chains.follow (aliasOf aliases) n e with
    | none =>
      rw [hEnd] at h
      cases h
    | some c =>
      rw [hEnd] at h
      obtain ⟨k, -, hEnds⟩ := Chains.follow_eq_some.1 hEnd
      exact ⟨c, standsFor_eq_some.2 ⟨k, hEnds⟩, (Except.ok.inj h).symm⟩

-- ---------------------------------------------------------------------------
-- Conditions
-- ---------------------------------------------------------------------------

variable (rows cols aliases)

/-- The value of what an operand stands for. -/
def resolvedValue (e : Expr) : Value := operandValue rows cols ((standsFor aliases e).getD e)

/-- What a HAVING says of a group when its operands are what they stand for. -/
def havingTruth : Expr → Bool
  | .binaryOp left .and right => havingTruth left && havingTruth right
  | .binaryOp left .or right => havingTruth left || havingTruth right
  | .binaryOp left op right =>
    (compareOp op (resolvedValue rows cols aliases left)
      (resolvedValue rows cols aliases right)).getD true
  | .unaryOp .not e => !havingTruth e
  | _ => true

/-- Both operands of every comparison that is come to stand for something. The
right side of AND and OR is come to when the left does not decide. -/
def HavingEnds : Expr → Prop
  | .binaryOp left .and right =>
    HavingEnds left ∧ (havingTruth rows cols aliases left = true → HavingEnds right)
  | .binaryOp left .or right =>
    HavingEnds left ∧ (havingTruth rows cols aliases left = false → HavingEnds right)
  | .binaryOp left _ right => (standsFor aliases left).isSome ∧ (standsFor aliases right).isSome
  | .unaryOp .not e => HavingEnds e
  | _ => True

variable {rows cols aliases}

/-- A comparison has its truth on a deep stack when both sides stand for
something, and on no stack otherwise. -/
theorem compare_ok_iff {left right : Expr} {op : BinaryOperator} {depth : Nat} {b : Bool} :
    (do
      let lv ← evalHavingVal rows cols aliases depth left
      let rv ← evalHavingVal rows cols aliases depth right
      return (compareOp op lv rv).getD true : Rust Bool) = .ok b →
    ((standsFor aliases left).isSome ∧ (standsFor aliases right).isSome) ∧
      b = (compareOp op (resolvedValue rows cols aliases left)
        (resolvedValue rows cols aliases right)).getD true := by
  intro h
  cases hLeft : evalHavingVal rows cols aliases depth left with
  | error fault =>
    rw [hLeft] at h
    cases h
  | ok lv =>
    cases hRight : evalHavingVal rows cols aliases depth right with
    | error fault =>
      rw [hLeft, hRight] at h
      cases h
    | ok rv =>
      rw [hLeft, hRight] at h
      obtain ⟨c, hc, rfl⟩ := standsFor_of_ok hLeft
      obtain ⟨d, hd, rfl⟩ := standsFor_of_ok hRight
      unfold resolvedValue
      rw [hc, hd]
      exact ⟨⟨rfl, rfl⟩, (Except.ok.inj h).symm⟩

/-- On a deep stack a HAVING whose operands stand for something has its truth. -/
theorem evalHaving_of_ends {having : Expr} (hEnds : HavingEnds rows cols aliases having) {depth : Nat}
    (hDeep : aliases.keys.length < depth) :
    @evalHaving (withStack depth) rows cols aliases having =
      .ok (havingTruth rows cols aliases having) := by
  fun_induction HavingEnds rows cols aliases having with
  | case1 left right ihLeft ihRight =>
    unfold evalHaving havingTruth
    rw [ihLeft hEnds.1]
    cases hLeft : havingTruth rows cols aliases left with
    | false => rfl
    | true => exact ihRight (hEnds.2 hLeft)
  | case2 left right ihLeft ihRight =>
    unfold evalHaving havingTruth
    rw [ihLeft hEnds.1]
    cases hLeft : havingTruth rows cols aliases left with
    | true => rfl
    | false => exact ihRight (hEnds.2 hLeft)
  | case3 left op right hAnd hOr =>
    obtain ⟨c, hc⟩ := Option.isSome_iff_exists.1 hEnds.1
    obtain ⟨d, hd⟩ := Option.isSome_iff_exists.1 hEnds.2
    have hLeft := @ok_of_standsFor (withStack depth) rows cols aliases left c hc depth hDeep
    have hRight := @ok_of_standsFor (withStack depth) rows cols aliases right d hd depth hDeep
    rw [@evalHaving.eq_3 (withStack depth), havingTruth.eq_3]
    · unfold resolvedValue
      rw [hc, hd]
      show (do
        let lv ← @evalHavingVal (withStack depth) rows cols aliases depth left
        let rv ← @evalHavingVal (withStack depth) rows cols aliases depth right
        return (compareOp op lv rv).getD true : Rust Bool) = _
      rw [hLeft, hRight]
      rfl
    · exact hAnd
    · exact hOr
    · exact hAnd
    · exact hOr
  | case4 e ih =>
    unfold evalHaving havingTruth
    rw [ih hEnds]
    rfl
  | case5 e hAnd hOr hOp hNot =>
    rw [@evalHaving.eq_5 (withStack depth), havingTruth.eq_5]
    · rfl
    all_goals assumption

/-- A HAVING that has a truth on some stack has operands that stand for
something. -/
theorem ends_of_evalHaving {having : Expr} {depth : Nat} {b : Bool}
    (h : @evalHaving (withStack depth) rows cols aliases having = .ok b) :
    HavingEnds rows cols aliases having ∧ b = havingTruth rows cols aliases having := by
  fun_induction HavingEnds rows cols aliases having generalizing b with
  | case1 left right ihLeft ihRight =>
    unfold evalHaving at h
    rw [havingTruth.eq_1]
    cases hLeft : @evalHaving (withStack depth) rows cols aliases left with
    | error fault =>
      rw [hLeft] at h
      cases h
    | ok l =>
      rw [hLeft] at h
      obtain ⟨hEnds, rfl⟩ := ihLeft hLeft
      cases hTruth : havingTruth rows cols aliases left with
      | false =>
        rw [hTruth] at h
        exact ⟨⟨hEnds, nofun⟩, (Except.ok.inj h).symm⟩
      | true =>
        rw [hTruth] at h
        obtain ⟨hRight, rfl⟩ := ihRight h
        exact ⟨⟨hEnds, fun _ => hRight⟩, rfl⟩
  | case2 left right ihLeft ihRight =>
    unfold evalHaving at h
    rw [havingTruth.eq_2]
    cases hLeft : @evalHaving (withStack depth) rows cols aliases left with
    | error fault =>
      rw [hLeft] at h
      cases h
    | ok l =>
      rw [hLeft] at h
      obtain ⟨hEnds, rfl⟩ := ihLeft hLeft
      cases hTruth : havingTruth rows cols aliases left with
      | true =>
        rw [hTruth] at h
        exact ⟨⟨hEnds, nofun⟩, (Except.ok.inj h).symm⟩
      | false =>
        rw [hTruth] at h
        obtain ⟨hRight, rfl⟩ := ihRight h
        exact ⟨⟨hEnds, fun _ => hRight⟩, rfl⟩
  | case3 left op right hAnd hOr =>
    rw [@evalHaving.eq_3 (withStack depth) _ _ _ _ _ _ hAnd hOr] at h
    rw [havingTruth.eq_3 _ _ _ _ _ _ hAnd hOr]
    exact @compare_ok_iff (withStack depth) rows cols aliases left right op depth b h
  | case4 e ih =>
    unfold evalHaving at h
    rw [havingTruth.eq_4]
    cases hInner : @evalHaving (withStack depth) rows cols aliases e with
    | error fault =>
      rw [hInner] at h
      cases h
    | ok l =>
      rw [hInner] at h
      obtain ⟨hEnds, rfl⟩ := ih hInner
      exact ⟨hEnds, (Except.ok.inj h).symm⟩
  | case5 e hAnd hOr hOp hNot =>
    rw [@evalHaving.eq_5 (withStack depth) _ _ _ _ hAnd hOr hOp hNot] at h
    rw [havingTruth.eq_5 _ _ _ _ hAnd hOr hOp hNot]
    exact ⟨trivial, (Except.ok.inj h).symm⟩

/-- HAVING comes to an end on a group exactly when every comparison it comes to
is of operands that leave the aliases; then a stack deeper than there are
aliases is enough. -/
theorem having_iff (rows : List Row) (cols : List Column) (projection : List SelectItem)
    (having : Expr) :
    (∃ depth b, @evalHaving (withStack depth) rows cols (aliasMap projection) having = .ok b) ↔
      HavingEnds rows cols (aliasMap projection) having := by
  constructor
  · rintro ⟨depth, b, hOk⟩
    exact (ends_of_evalHaving hOk).1
  · intro hEnds
    exact ⟨_, _, evalHaving_of_ends hEnds (Nat.lt_succ_self _)⟩

end HavingAliases

-- ---------------------------------------------------------------------------
-- An alias of itself
-- ---------------------------------------------------------------------------

section SelfAlias

/-- The projection of SELECT a AS a. -/
def aAsA : List SelectItem := [.exprWithAlias (.identifier ⟨"a", none⟩) ⟨"a", none⟩]

theorem overflow_aAsA [Platform] (depth : Nat) (rows : List Row) (cols : List Column) :
    evalHavingVal rows cols (aliasMap aAsA) depth (.identifier ⟨"a", none⟩) =
      .error .stackOverflow := by
  have hSelf : aliasOf (aliasMap aAsA) (.identifier ⟨"a", none⟩) =
      some (.identifier ⟨"a", none⟩) := by
    show (HashMap.insert HashMap.empty (toUppercase "a") _).get (toUppercase "a") = _
    rw [HashMap.get_insert, if_pos rfl]
  induction depth with
  | zero => rfl
  | succ n ih => exact (evalHavingVal_alias hSelf n).trans ih

local instance selfAliasPlatform : Platform := tablePlatform []

/-- HAVING a > 0 with a AS a among the items looks `a` up as `a`. -/
theorem not_having :
    ¬∀ (rows : List Row) (cols : List Column) (projection : List SelectItem) (having : Expr),
      ∃ depth b, @evalHaving (withStack depth) rows cols (aliasMap projection) having = .ok b := by
  intro hAll
  obtain ⟨depth, b, hOk⟩ := hAll [] [] aAsA
    (.binaryOp (.identifier ⟨"a", none⟩) .gt (.value (.number "0" false)))
  have hLoop : @evalHavingVal (withStack depth) [] [] (aliasMap aAsA) depth
      (.identifier ⟨"a", none⟩) = .error .stackOverflow := @overflow_aAsA (withStack depth) depth [] []
  unfold evalHaving at hOk
  change (do
    let lv ← @evalHavingVal (withStack depth) [] [] (aliasMap aAsA) depth (.identifier ⟨"a", none⟩)
    _) = _ at hOk
  rw [hLoop] at hOk
  cases hOk

end SelfAlias

end RunAlexDb
