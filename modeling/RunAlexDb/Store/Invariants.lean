import RunAlexDb.Model.TableOps

/-!
# Invariants — what the redundant parts of a table stand for

The column stores and the primary-key index of a table repeat its rows. They
are exact when they say what the rows say; the fast paths of the engine take
that for granted.
-/

set_option linter.unusedSectionVars false

namespace RunAlexDb

open Text Platform

variable [Platform]

/-- Each column store there is holds the image of the column, row by row. -/
structure StoresExact (t : Table) : Prop where
  int : ∀ (ci : Nat) v, t.colIntData[ci]? = some (some v) → v = t.rows.map fun r => intImage r[ci]?
  str : ∀ (ci : Nat) v, t.colStrData[ci]? = some (some v) → v = t.rows.map fun r => strImage r[ci]?

/-- The index of the table with primary-key column `p` has the key of every row,
and each of its entries names a row with that key. -/
structure IndexExact (t : Table) (p : Nat) : Prop where
  indexed : ∀ r ∈ t.rows, (t.pkIndex.get (rowPkKey r p)).isSome = true
  entry : ∀ k i, t.pkIndex.get k = some i → ∃ r, t.rows[i]? = some r ∧ rowPkKey r p = k

/-- No two rows have one key. -/
def KeysUnique (t : Table) (p : Nat) : Prop := (t.rows.map fun r => rowPkKey r p).Nodup

end RunAlexDb
