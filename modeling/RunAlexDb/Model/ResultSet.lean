import Mathlib.Data.List.Sort
import RunAlexDb.Model.Eval
import RunAlexDb.Model.SimdScan

/-!
# ResultSet — names, order and cut of a result

What the SELECT paths share: the output columns of a projection, the stable
sorts of ORDER BY with their comparisons, LIMIT and OFFSET, window functions.
-/

namespace RunAlexDb

open Text Platform

variable [Platform]

/-- Cells of a result, as text. -/
abbrev TextRow := List (Option Str)

-- ---------------------------------------------------------------------------
-- Projections
-- ---------------------------------------------------------------------------

def SelectItem.isWildcard : SelectItem → Bool
  | .wildcard _ => true
  | .qualifiedWildcard _ => true
  | _ => false

/-- Output name of an unnamed expression; `emptyName` for a compound name
without parts. -/
def exprName (e : Expr) (emptyName : Str) : Str :=
  match e with
  | .identifier id => id.value
  | .compoundIdentifier parts => (parts.getLast?.map Ident.value).getD emptyName
  | e => exprToString e

/-- Name and expression of a projection item. -/
def outputItem (emptyName : Expr → Str) (p : SelectItem) : Str × Expr :=
  match p with
  | .unnamedExpr e => (exprName e (emptyName e), e)
  | .exprWithAlias e a => (a.value, e)
  | _ => ("?", .identifier (Ident.new "__null__"))

/-- The alias of an item, else what it prints as. -/
def itemLabel (p : SelectItem) : Str :=
  match p with
  | .exprWithAlias _ a => a.value
  | p => p.toString

/-- The expression of an item that is not a wildcard. -/
def SelectItem.expr? : SelectItem → Option Expr
  | .unnamedExpr e => some e
  | .exprWithAlias e _ => some e
  | _ => none

/-- The call an item consists of. -/
def SelectItem.function? : SelectItem → Option Function
  | .unnamedExpr (.function f) => some f
  | .exprWithAlias (.function f) _ => some f
  | _ => none

/-- Outputs of a projection over `cols`: a wildcard anywhere stands for all
columns, under the names `nameOf` gives them. -/
def projectionOutputs (cols : List Column) (nameOf : Column → Str) (emptyName : Expr → Str)
    (projection : List SelectItem) : List (Str × Expr) :=
  if projection.any SelectItem.isWildcard then
    cols.map fun c => (nameOf c, .identifier (Ident.new c.name))
  else projection.map (outputItem emptyName)

/-- Evaluate the outputs on a row. -/
def evalOutputs (now : Nat) (cols : List Column) (outs : List (Str × Expr)) (row : Row) :
    Rust TextRow :=
  outs.mapM fun o => (evalRowExpr now row cols o.2).map Value.toDisplay

/-- Rows the WHERE clause keeps; no clause keeps all. -/
def filterRows (now : Nat) (cols : List Column) (selection : Option Expr) (rows : List Row) :
    Rust (List Row) :=
  match selection with
  | none => pure rows
  | some w => rows.filterM fun r => evalWhere now r cols w

-- ---------------------------------------------------------------------------
-- ORDER BY
-- ---------------------------------------------------------------------------

/-- A stable sort by `cmp`. -/
def sortBy {α : Type} (cmp : α → α → Ordering) (l : List α) : List α :=
  l.insertionSort fun a b => cmp a b ≠ .gt

/-- The comparison of one sort key, reversed for DESC. -/
def directed {α : Type} (asc : Bool) (cmp : α → α → Ordering) (a b : α) : Ordering :=
  if asc then cmp a b else (cmp a b).swap

/-- Integers as numbers, everything else as text. -/
def cmpIntOrText (a b : Str) : Ordering :=
  match parseI64 a, parseI64 b with
  | some x, some y => cmpInt64 x y
  | _, _ => cmpStr a b

/-- Floats as numbers, everything else as text. -/
def cmpFloatOrText (a b : Str) : Ordering :=
  match f64Parse a, f64Parse b with
  | some x, some y => (f64PartialCmp x y).getD .eq
  | _, _ => cmpStr a b

/-- Integers, then floats as numbers, everything else as text. -/
def cmpNumberOrText (a b : Str) : Ordering :=
  match parseI64 a, parseI64 b with
  | some x, some y => cmpInt64 x y
  | _, _ => cmpFloatOrText a b

/-- NULL first. -/
def cmpNullable (a b : Option Str) : Ordering :=
  match a, b with
  | some x, some y => cmpIntOrText x y
  | none, some _ => .lt
  | some _, none => .gt
  | none, none => .eq

/-- `ORDER BY` over the output columns: one stable sort a key, last key first.
A key that is no output column is skipped. -/
def sortOutputs (cmp : Option Str → Option Str → Ordering) (names : List Str)
    (orderBy : Option OrderByKind) (rows : List TextRow) : List TextRow :=
  match orderBy with
  | some (.expressions exprs) =>
    exprs.reverse.foldl (fun rows oe =>
      match names.findIdx? fun n => eqIgnoreAsciiCase n (exprToString oe.expr) with
      | some p => sortBy (directed oe.asc fun a b => cmp (a[p]?.join) (b[p]?.join)) rows
      | none => rows) rows
  | _ => rows

/-- `ORDER BY` over the source columns, before projection. -/
def sortSource (cols : List Column) (orderBy : Option OrderByKind) (rows : List Row) : List Row :=
  match orderBy with
  | some (.expressions exprs) =>
    exprs.reverse.foldl (fun rows oe =>
      match columnPosition cols (exprName oe.expr []) with
      | some idx =>
        let key (r : Row) : Str := (r[idx]?.bind Value.toDisplay).getD []
        sortBy (directed oe.asc fun a b => cmpIntOrText (key a) (key b)) rows
      | none => rows) rows
  | _ => rows

-- ---------------------------------------------------------------------------
-- LIMIT and OFFSET
-- ---------------------------------------------------------------------------

/-- A LIMIT or OFFSET given as a plain number. -/
def numberOf : Option Expr → Option Nat
  | some (.value (.number n _)) => parseUsize n
  | _ => none

/-- A LIMIT or OFFSET given as any literal that prints as a number. -/
def literalOf : Option Expr → Option Nat
  | some (.value v) => parseUsize v.toString
  | _ => none

def applyLimit {α : Type} (limit : Option Nat) (rows : List α) : List α :=
  limit.elim rows fun n => rows.take n

-- ---------------------------------------------------------------------------
-- Window functions
-- ---------------------------------------------------------------------------

/-- A projection item with an OVER clause. -/
structure WinItem where
  colIdx : Nat
  fname : Str
  partitionBy : List Str
  orderBy : List (Str × Bool)

def winItems (outs : List (Str × Expr)) : List WinItem :=
  outs.zipIdx.filterMap fun (o, idx) =>
    match o.2 with
    | .function (.mk name _ (some (.windowSpec partitionBy orderBy))) =>
      some {
        colIdx := idx
        fname := toUppercase (ObjectName.toString name)
        partitionBy := partitionBy.map exprToString
        orderBy := orderBy.map fun oe => (exprToString oe.expr, oe.asc) }
    | _ => none

/-- The cell of a named output column, NULL and missing cells empty. -/
def outputCell (names : List Str) (row : TextRow) (name : Str) : Str :=
  ((names.findIdx? fun n => eqIgnoreAsciiCase n name).bind fun p => row[p]?.join).getD []

/-- Row indices of each partition, sorted by the window's ORDER BY. -/
def partitions (names : List Str) (wi : WinItem) (rows : List TextRow) : List (List Nat) :=
  let key (row : TextRow) : Str := join ['\x00'] (wi.partitionBy.map (outputCell names row))
  let keys := rows.map key
  let cell (i : Nat) (name : Str) : Str := outputCell names (rows.getD i []) name
  let cmp (a b : Nat) : Ordering :=
    (wi.orderBy.map fun o => directed o.2 cmpFloatOrText (cell a o.1) (cell b o.1)).foldr
      Ordering.then .eq
  keys.dedup.map fun k =>
    let indices := (List.range rows.length).filter fun i => keys[i]? == some k
    if wi.orderBy.isEmpty then indices else sortBy cmp indices

/-- Write `f` of the old cells of a partition into column `colIdx` of its rows. -/
def setPartition (colIdx : Nat) (f : List (Option Str) → Str) (rows : List TextRow)
    (indices : List Nat) : List TextRow :=
  let old := indices.map fun i => (rows.getD i [])[colIdx]?.join
  indices.foldl (fun rows i => rows.modify i fun r => r.set colIdx (some (f old))) rows

def applyWindow (names : List Str) (rows : List TextRow) (wi : WinItem) : List TextRow :=
  let parts := partitions names wi rows
  let floats (old : List (Option Str)) : List F64 := old.filterMap fun v => v.bind f64Parse
  match String.ofList wi.fname with
  | "ROW_NUMBER" | "RANK" | "DENSE_RANK" | "NTILE" =>
    parts.foldl (fun rows indices =>
      indices.zipIdx.foldl (fun rows (i, pos) =>
        rows.modify i fun r => r.set wi.colIdx (some (natToString (pos + 1)))) rows) rows
  | "COUNT" => parts.foldl (setPartition wi.colIdx fun old => natToString old.length) rows
  | "SUM" =>
    parts.foldl (setPartition wi.colIdx fun old =>
      let s := f64Sum (floats old)
      if f64Eq s (f64Floor s) then f64ToFixed 0 s else f64ToString s) rows
  | "AVG" =>
    parts.foldl (setPartition wi.colIdx fun old =>
      let vs := floats old
      f64ToString (if vs.isEmpty then f64Zero
        else f64Div (f64Sum vs) (f64OfI64 (Int64.ofNat vs.length)))) rows
  | _ => rows

end RunAlexDb
