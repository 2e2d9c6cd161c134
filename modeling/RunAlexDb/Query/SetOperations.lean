import RunAlexDb.Lib.Clusters
import RunAlexDb.Model.Concrete
import RunAlexDb.Model.Select

/-!
# SetOperations — UNION, INTERSECT and EXCEPT

Every set operation appends the rows of its right operand to those of its left
one; without ALL equal neighbours are dropped. That is what UNION ALL asks,
what UNION asks when equal rows happen to stand together, and what INTERSECT
and EXCEPT ask only of operands that leave them nothing to do.

Main result: `setOperations_iff`.
-/

set_option linter.unusedSectionVars false

namespace RunAlexDb

open Text Platform

section SetOperations

variable [Platform]

-- ---------------------------------------------------------------------------
-- What SQL asks
-- ---------------------------------------------------------------------------

/-- The rows of a result set. -/
def QueryResult.textRows (r : QueryResult) : Option (List TextRow) :=
  (asTextRows r).toOption.map Prod.snd

/-- The rows of a query that is just this body; `none` when it fails. -/
def bodyRows (env : QueryEnv) (dbName : Str) (body : SetExpr) : Option (List TextRow) :=
  (select env dbName (.mk body none none none)).toOption.bind QueryResult.textRows

/-- Which rows an operator keeps, by whether they are in its left and in its
right operand. -/
def SetOperator.keeps : SetOperator → Prop → Prop → Prop
  | .union, inLeft, inRight => inLeft ∨ inRight
  | .intersect, inLeft, inRight => inLeft ∧ inRight
  | .except, inLeft, inRight => inLeft ∧ ¬ inRight
  | .minus, inLeft, inRight => inLeft ∧ ¬ inRight

/-- What a set operation asks of the rows `l` and `r` of its operands: UNION ALL
all of them in order, an operator without ALL each row it keeps exactly once. -/
def setAsks (op : SetOperator) (quantifier : SetQuantifier) (l r rows : List TextRow) : Prop :=
  match quantifier with
  | .all => op = .union → rows = l ++ r
  | .distinct | .none => rows.Nodup ∧ ∀ x, x ∈ rows ↔ op.keeps (x ∈ l) (x ∈ r)
  | .byName => True

/-- Every set operation in the query returns what it asks of the rows of its
operands. -/
def SetsRight (env : QueryEnv) (dbName : Str) : SetExpr → Prop
  | .setOperation op quantifier left right =>
    SetsRight env dbName left ∧ SetsRight env dbName right ∧
      ∀ l r, bodyRows env dbName left = some l → bodyRows env dbName right = some r →
        ∃ rows, bodyRows env dbName (.setOperation op quantifier left right) = some rows ∧
          setAsks op quantifier l r rows
  | _ => True
termination_by structural body => body

-- ---------------------------------------------------------------------------
-- When appending is enough
-- ---------------------------------------------------------------------------

/-- The operator keeps every row of both operands. -/
def SetOperator.keepsAll (op : SetOperator) (l r : List TextRow) : Prop :=
  match op with
  | .union => True
  | .intersect => ∀ x, x ∈ l ↔ x ∈ r
  | .except | .minus => r = []

/-- Operands whose rows only have to be appended: nothing to leave out, and
equal rows next to each other. -/
def appendable (op : SetOperator) (quantifier : SetQuantifier) (l r : List TextRow) : Prop :=
  match quantifier with
  | .all | .byName => True
  | .distinct | .none => op.keepsAll l r ∧ Clustered (l ++ r)

/-- The operands of every set operation in the query are appendable. -/
def SetsAppendable (env : QueryEnv) (dbName : Str) : SetExpr → Prop
  | .setOperation op quantifier left right =>
    SetsAppendable env dbName left ∧ SetsAppendable env dbName right ∧
      ∀ l r, bodyRows env dbName left = some l → bodyRows env dbName right = some r →
        appendable op quantifier l r
  | _ => True
termination_by structural body => body

/-- An operator keeps what is in one operand at least exactly when it keeps
every row. -/
theorem keeps_iff_keepsAll (op : SetOperator) (l r : List TextRow) :
    (∀ x, x ∈ l ++ r ↔ op.keeps (x ∈ l) (x ∈ r)) ↔ op.keepsAll l r := by
  have hEmpty : (∀ x, x ∈ l ++ r ↔ x ∈ l ∧ x ∉ r) ↔ r = [] := by
    rw [List.eq_nil_iff_forall_not_mem]
    constructor
    · exact fun h x hx => ((h x).1 (List.mem_append_right l hx)).2 hx
    · intro h x
      rw [List.mem_append]
      have hNot := h x
      tauto
  match op with
  | .union => exact iff_of_true (fun x => List.mem_append) trivial
  | .intersect =>
    refine forall_congr' fun x => ?_
    rw [List.mem_append]
    show (_ ↔ _ ∧ _) ↔ _
    tauto
  | .except => exact hEmpty
  | .minus => exact hEmpty

/-- What the engine makes of the rows of two operands. -/
def appendedRows (quantifier : SetQuantifier) (l r : List TextRow) : List TextRow :=
  if quantifier = .all then l ++ r else (l ++ r).destutter (· ≠ ·)

theorem setAsks_appended (op : SetOperator) (quantifier : SetQuantifier) (l r : List TextRow) :
    setAsks op quantifier l r (appendedRows quantifier l r) ↔ appendable op quantifier l r := by
  have hOnce : ((l ++ r).destutter (· ≠ ·)).Nodup ∧
      (∀ x, x ∈ (l ++ r).destutter (· ≠ ·) ↔ op.keeps (x ∈ l) (x ∈ r)) ↔
      op.keepsAll l r ∧ Clustered (l ++ r) := by
    rw [nodup_destutter, and_comm, ← keeps_iff_keepsAll]
    simp only [mem_destutter_ne]
  match quantifier with
  | .all => exact iff_of_true (fun _ => rfl) trivial
  | .byName => exact iff_of_true trivial trivial
  | .distinct => exact hOnce
  | .none => exact hOnce

-- ---------------------------------------------------------------------------
-- The engine
-- ---------------------------------------------------------------------------

theorem combineSets_textRows {quantifier : SetQuantifier} {left right : QueryResult}
    {l r : List TextRow} (hLeft : left.textRows = some l) (hRight : right.textRows = some r) :
    (combineSets quantifier left right).textRows = some (appendedRows quantifier l r) := by
  rw [QueryResult.textRows] at hLeft hRight
  cases hL : asTextRows left with
  | error other => rw [hL] at hLeft; cases hLeft
  | ok lr =>
    cases hR : asTextRows right with
    | error other => rw [hR] at hRight; cases hRight
    | ok rr =>
      rw [hL] at hLeft
      rw [hR] at hRight
      obtain rfl := Option.some.inj hLeft
      obtain rfl := Option.some.inj hRight
      rw [combineSets, hL, hR]
      rfl

/-- The rows of a set operation are the appended rows of its operands. -/
theorem bodyRows_setOperation {env : QueryEnv} {dbName : Str} {left right : SetExpr}
    {l r : List TextRow} (op : SetOperator) (quantifier : SetQuantifier)
    (hLeft : bodyRows env dbName left = some l) (hRight : bodyRows env dbName right = some r) :
    bodyRows env dbName (.setOperation op quantifier left right) =
      some (appendedRows quantifier l r) := by
  have hRun : select env dbName (.mk (.setOperation op quantifier left right) none none none) =
      (select env dbName (.mk left none none none)).bind fun lr =>
        (select env dbName (.mk right none none none)).bind fun rr =>
          .ok (combineSets quantifier lr rr) := rfl
  rw [bodyRows] at hLeft hRight
  cases hL : select env dbName (.mk left none none none) with
  | error fault => rw [hL] at hLeft; cases hLeft
  | ok lr =>
    cases hR : select env dbName (.mk right none none none) with
    | error fault => rw [hR] at hRight; cases hRight
    | ok rr =>
      rw [hL] at hLeft
      rw [hR] at hRight
      rw [bodyRows, hRun, hL, hR]
      exact combineSets_textRows hLeft hRight

/-- **Set operations** return what they ask for exactly when their operands are
appendable. -/
theorem setOperations_iff (env : QueryEnv) (dbName : Str) : ∀ body : SetExpr,
    SetsRight env dbName body ↔ SetsAppendable env dbName body
  | .setOperation op quantifier left right => by
    rw [SetsRight, SetsAppendable, setOperations_iff env dbName left,
      setOperations_iff env dbName right]
    refine and_congr_right fun _ => and_congr_right fun _ =>
      forall₄_congr fun l r hLeft hRight => ?_
    rw [bodyRows_setOperation op quantifier hLeft hRight, ← setAsks_appended]
    simp
  | .select _ | .query _ | .values _ | .other _ => Iff.rfl

end SetOperations

-- ---------------------------------------------------------------------------
-- A row taken away from itself
-- ---------------------------------------------------------------------------

section Except

local instance setOperationsPlatform : Platform := tablePlatform []

/-- `SELECT 1`. -/
def selectOne : SetExpr :=
  .select (.mk none [.unnamedExpr (.value (.number "1" false))] [] none (.expressions []) none)

def noDatabases : QueryEnv := { databases := .empty, lastInsertId := 0, now := 0 }

/-- `SELECT 1 EXCEPT SELECT 1` returns the row. -/
theorem not_setsRight : ¬ ∀ (env : QueryEnv) (dbName : Str) (body : SetExpr),
    SetsRight env dbName body := by
  intro hAll
  have hRight := hAll noDatabases [] (.setOperation .except .none selectOne selectOne)
  have hOne : bodyRows noDatabases [] selectOne = some [[some ("1" : Str)]] := rfl
  obtain ⟨-, -, hNode⟩ := hRight
  obtain ⟨rows, hRows, -, hKept⟩ := hNode _ _ hOne hOne
  rw [bodyRows_setOperation .except .none hOne hOne] at hRows
  obtain rfl := Option.some.inj hRows
  exact ((hKept [some ("1" : Str)]).1 (by decide)).2 (by decide)

end Except

end RunAlexDb
