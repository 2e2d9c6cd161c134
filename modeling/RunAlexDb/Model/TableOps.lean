import RunAlexDb.Model.Select

/-!
# TableOps — what statements do to one table

The row operations of INSERT, REPLACE, UPDATE and DELETE with the upkeep of the
primary-key index and the column stores, and the column operations of ALTER
TABLE. Each is a program on the table: a panic leaves the table as far as the
operation had come.
-/

namespace RunAlexDb

open Text Platform

variable [Platform]

/-- `Vec::swap_remove`: the last element takes the place of the removed one. -/
def swapRemove {α : Type} (l : List α) (i : Nat) : List α :=
  match l.getLast? with
  | none => l
  | some x => if i < l.length then (l.set i x).dropLast else l

/-- Apply `f` to every column store there is. -/
def mapStores {α : Type} (f : List α → List α) (data : List (Option (List α))) :
    List (Option (List α)) := data.map (Option.map f)

/-- Every store computed anew from the rows. -/
def rebuildStores {α : Type} (image : Option Value → α) (rows : List Row)
    (data : List (Option (List α))) : List (Option (List α)) :=
  data.mapIdx fun ci store => store.map fun _ => rows.map fun r => image r[ci]?

/-- The index of the keys of the rows, later rows winning. -/
def buildPkIndex (pkIdx : Nat) (rows : List Row) : HashMap Str Nat :=
  HashMap.ofList (rows.zipIdx.map fun x => (rowPkKey x.1 pkIdx, x.2))

/-- Empty stores for new columns. -/
def newIntData (columns : List Column) : List (Option (List Int64)) :=
  columns.map fun c => if c.colType.isInt then some [] else none

def newStrData (columns : List Column) : List (Option (List Str)) :=
  columns.map fun c => if c.colType.isStr then some [] else none

/-- A table as CREATE TABLE leaves it, with the given rows. -/
def Table.create (schema name : Str) (columns : List Column) (rows : List Row) : Table where
  name := name
  schema := schema
  columns := columns
  rows := rows
  pkColIdx := columns.findIdx? Column.primaryKey
  pkIndex := HashMap.empty
  colIntData := newIntData columns
  colStrData := newStrData columns
  nextAuto := 1

-- ---------------------------------------------------------------------------
-- INSERT and REPLACE
-- ---------------------------------------------------------------------------

/-- The stores after a row is pushed. -/
def pushStores {α : Type} (image : Option Value → α) (row : Row)
    (data : List (Option (List α))) : List (Option (List α)) :=
  data.mapIdx fun ci store => store.map fun v => v ++ [image row[ci]?]

/-- Push a row: index entry, stores, rows. -/
def Table.push (t : Table) (row : Row) : Table :=
  { t with
    pkIndex := t.pkColIdx.elim t.pkIndex fun p => t.pkIndex.insert (rowPkKey row p) t.rows.length
    colIntData := pushStores intImage row t.colIntData
    colStrData := pushStores strImage row t.colStrData
    rows := t.rows ++ [row] }

/-- Move `nextAuto` past the key of an inserted row. -/
def Table.advanceAuto (t : Table) (row : Row) : Table :=
  match t.pkColIdx.bind (row[·]?) with
  | some (.int n) => if t.nextAuto ≤ n then { t with nextAuto := n + 1 } else t
  | _ => t

/-- Remove row `i` and rebuild the index over column `pkIdx`. -/
def Table.removeRow (t : Table) (pkIdx i : Nat) : Table :=
  { t with
    rows := t.rows.eraseIdx i
    colIntData := mapStores (·.eraseIdx i) t.colIntData
    colStrData := mapStores (·.eraseIdx i) t.colStrData
    pkIndex := buildPkIndex pkIdx (t.rows.eraseIdx i) }

/-- REPLACE INTO: the row the index has for the new row's key goes.
`Vec::remove` panics past the end. -/
def replaceExisting (row : Row) : TableM Unit := do
  let t ← get
  match t.pkColIdx with
  | none => pure ()
  | some p =>
    match t.pkIndex.get (rowPkKey row p) with
    | none => pure ()
    | some i => if i < t.rows.length then set (t.removeRow p i) else throw .panic

/-- A source row in the order of the table's columns. A primary-key column that
is not named takes the next automatic value. -/
def mapRow (names : List Str) (src : Row) : List Column → Int64 → Row × Int64
  | [], auto => ([], auto)
  | c :: cs, auto =>
    match names.findIdx? fun n => eqIgnoreAsciiCase n c.name with
    | some si =>
      let (row, next) := mapRow names src cs auto
      (src.getD si .null :: row, next)
    | none =>
      if c.primaryKey then
        let (row, next) := mapRow names src cs (auto + 1)
        (.int auto :: row, next)
      else
        let (row, next) := mapRow names src cs auto
        (.null :: row, next)

/-- One row of an INSERT or REPLACE. -/
def insertRow (replaceInto : Bool) (names : List Str) (src : Row) : TableM Unit := do
  let t ← get
  let (row, next) :=
    if names.isEmpty || t.columns.isEmpty then (src, t.nextAuto)
    else mapRow names src t.columns t.nextAuto
  set { t with nextAuto := next }
  if replaceInto then replaceExisting row
  modify fun t => (t.advanceAuto row).push row

/-- The key of the last row when it is an integer, else 0. -/
def Table.lastKey (t : Table) : UInt64 :=
  match t.pkColIdx.bind fun p => t.rows.getLast?.bind fun r => r[p]? with
  | some (.int n) => n.toUInt64
  | _ => 0

def insertRows (replaceInto : Bool) (names : List Str) (rows : List Row) : TableM QueryResult := do
  Prog.forEach (insertRow replaceInto names) rows
  let t ← get
  return .ok (UInt64.ofNat rows.length) t.lastKey

-- ---------------------------------------------------------------------------
-- UPDATE
-- ---------------------------------------------------------------------------

/-- `row[idx] = v`: panics when the row is too short. -/
def assignCell (idx : Nat) (v : Value) : Prog Row Fault Unit := do
  let row ← get
  if idx < row.length then set (row.set idx v) else throw .panic

/-- One assignment on a row. `value` gives the assigned value from the row; a
target that is no column is skipped. -/
def assignRow (cols : List Column) (value : Row → Expr → Rust Value) (asgn : Assignment) :
    Prog Row Fault Unit :=
  match columnPosition cols asgn.target.toString with
  | none => pure ()
  | some idx => do
    let row ← get
    let v ← Prog.ofExcept (value row asgn.value)
    assignCell idx v

/-- UPDATE of one row in a scan: 1 when the condition holds and the
assignments are made, in order. -/
def updateRow (cols : List Column) (cond : Row → Rust Bool) (value : Row → Expr → Rust Value)
    (assignments : List Assignment) : Prog Row Fault Nat := do
  let row ← get
  if ← Prog.ofExcept (cond row) then
    Prog.forEach (assignRow cols value) assignments
    return 1
  else return 0

/-- A program on the rows of a table. -/
def onRows {α : Type} (m : Prog (List Row) Fault α) : TableM α :=
  m.zoom Table.rows fun rows t => { t with rows := rows }

/-- UPDATE by scanning all rows; index and stores stay as they are. -/
def updateScan (cond : Row → Rust Bool) (value : Row → Expr → Rust Value)
    (assignments : List Assignment) : TableM QueryResult := do
  let t ← get
  let affected ← onRows (Prog.iterMut (updateRow t.columns cond value assignments))
  return .ok (UInt64.ofNat affected) 0

/-- Write a value through to the stores of a column: an integer to its integer
store, a text to its text store, nothing else. -/
def Table.writeStores (t : Table) (ri idx : Nat) (v : Value) : Table :=
  match v with
  | .int n => { t with colIntData := t.colIntData.modify idx (Option.map (·.set ri n)) }
  | .text s => { t with colStrData := t.colStrData.modify idx (Option.map (·.set ri s)) }
  | _ => t

/-- `table.rows[ri]` of a row known to be there. -/
def onRow {α : Type} (ri : Nat) (m : Prog Row Fault α) : TableM α :=
  m.zoom (fun t => t.rows.getD ri []) fun row t => { t with rows := t.rows.set ri row }

/-- One assignment of an UPDATE through the index. -/
def assignAt (ri : Nat) (value : Row → Expr → Rust Value) (asgn : Assignment) : TableM Unit := do
  let t ← get
  match columnPosition t.columns asgn.target.toString with
  | none => pure ()
  | some idx =>
    let v ← Prog.ofExcept (value (t.rows.getD ri []) asgn.value)
    modify fun t => t.writeStores ri idx v
    onRow ri (assignCell idx v)

/-- UPDATE of the row the index has for `key`; 1 when there is one. -/
def updateKey (key : Str) (value : Row → Expr → Rust Value) (assignments : List Assignment) :
    TableM QueryResult := do
  let t ← get
  match t.pkIndex.get key with
  | none => return .ok 0 0
  | some ri =>
    if ri < t.rows.length then
      Prog.forEach (assignAt ri value) assignments
      return .ok 1 0
    else return .ok 0 0

/-- Name of the primary-key column and the condition, when there are both. -/
def pkCondition (selection : Option Expr) (extract : Str → Expr → Option Str) : TableM (Option Str) := do
  let t ← get
  match t.pkColIdx, selection with
  | some p, some w =>
    let col ← Prog.ofExcept (orPanic t.columns[p]?)
    return extract col.name w
  | _, _ => return none

/-- `selection.map_or(true, ..)`. -/
def rowSelected (now : Nat) (cols : List Column) (selection : Option Expr) (row : Row) : Rust Bool :=
  selection.elim (pure true) (evalWhere now row cols)

def updateTable (now : Nat) (assignments : List Assignment) (selection : Option Expr) :
    TableM QueryResult := do
  let t ← get
  let value (row : Row) (e : Expr) : Rust Value := evalRowExpr now row t.columns e
  match ← pkCondition selection extractPkEq with
  | some key => updateKey key value assignments
  | none => updateScan (rowSelected now t.columns selection) value assignments

-- ---------------------------------------------------------------------------
-- DELETE and TRUNCATE
-- ---------------------------------------------------------------------------

/-- DELETE of the row the index has for `key`: the last row takes its place. -/
def Table.deleteKey (t : Table) (p : Nat) (key : Str) : Table :=
  match t.pkIndex.get key with
  | none => t
  | some ri =>
    let index := t.pkIndex.remove key
    if ri < t.rows.length then
      { t with
        pkIndex := if ri = t.rows.length - 1 then index
          else index.insert (rowPkKey (t.rows.getLastD []) p) ri
        rows := swapRemove t.rows ri
        colIntData := mapStores (swapRemove · ri) t.colIntData
        colStrData := mapStores (swapRemove · ri) t.colStrData }
    else { t with pkIndex := index }

/-- Index and stores computed anew from the rows. -/
def Table.rebuild (t : Table) : Table :=
  { t with
    pkIndex := t.pkColIdx.elim t.pkIndex fun p => buildPkIndex p t.rows
    colIntData := rebuildStores intImage t.rows t.colIntData
    colStrData := rebuildStores strImage t.rows t.colStrData }

/-- DELETE by scanning all rows: those for which `keep` says so stay. -/
def deleteScan (keep : Row → Rust Bool) : TableM Unit := do
  onRows (Prog.retain keep)
  modify Table.rebuild

/-- Rows a DELETE keeps: without a condition none. -/
def rowKept (cond : Expr → Row → Rust Bool) (selection : Option Expr) (row : Row) : Rust Bool :=
  selection.elim (pure false) fun w => (cond w row).map not

def deleteTable (now : Nat) (selection : Option Expr) : TableM QueryResult := do
  let t ← get
  match ← pkCondition selection extractPkEq, t.pkColIdx with
  | some key, some p => set (t.deleteKey p key)
  | _, _ => deleteScan (rowKept (fun w r => evalWhere now r t.columns w) selection)
  let t' ← get
  return .ok (UInt64.ofNat (t.rows.length - t'.rows.length)) 0

/-- All rows gone, index and stores empty. -/
def Table.truncate (t : Table) : Table :=
  { t with
    rows := []
    pkIndex := HashMap.empty
    colIntData := mapStores (fun _ => []) t.colIntData
    colStrData := mapStores (fun _ => []) t.colStrData }

def truncateTable : TableM QueryResult := do
  let t ← get
  set t.truncate
  return .ok (UInt64.ofNat t.rows.length) 0

-- ---------------------------------------------------------------------------
-- ALTER TABLE
-- ---------------------------------------------------------------------------

/-- A new last column, filled with NULL; `List.replicate` pads the store lists
up to it. -/
def Table.addColumn (t : Table) (name : Str) (colType : ColumnType) : Table :=
  let newIdx := t.columns.length
  let pad {α : Type} (data : List (Option (List α))) : List (Option (List α)) :=
    data ++ List.replicate (newIdx + 1 - data.length) none
  { t with
    rows := t.rows.map (· ++ [.null])
    colIntData :=
      if colType.isInt then (pad t.colIntData).set newIdx (some (t.rows.map fun _ => 0))
      else pad t.colIntData
    colStrData :=
      if colType.isStr then (pad t.colStrData).set newIdx (some (t.rows.map fun _ => []))
      else pad t.colStrData
    columns := t.columns ++ [{ name := name, colType := colType, nullable := true, primaryKey := false }] }

/-- Column `i` gone from the columns, the rows and the stores. -/
def Table.dropColumn (t : Table) (i : Nat) : Table :=
  { t with
    columns := t.columns.eraseIdx i
    rows := t.rows.map (·.eraseIdx i)
    colIntData := t.colIntData.eraseIdx i
    colStrData := t.colStrData.eraseIdx i
    pkColIdx := (t.columns.eraseIdx i).findIdx? Column.primaryKey }

/-- One operation of ALTER TABLE: the changed table, or the error. -/
def Table.alter (t : Table) (op : AlterTableOperation) : Except QueryResult Table :=
  match op with
  | .addColumn columnDef =>
    let name := columnDef.name.toString
    if t.columns.any fun c => eqIgnoreAsciiCase c.name name then
      .error (.err 1060 ("Duplicate column name '" ++ name ++ "'"))
    else .ok (t.addColumn name (sqlTypeToColType columnDef.dataType))
  | .dropColumn columnName =>
    let name := columnName.toString
    match columnPosition t.columns name with
    | none => .error (.err 1091 ("Can't DROP COLUMN '" ++ name ++ "'"))
    | some i =>
      if t.columns[i]?.elim false Column.primaryKey then
        .error (.err 1075 "Incorrect table definition: only one primary key allowed")
      else .ok (t.dropColumn i)
  | .renameColumn oldColumnName newColumnName =>
    let old := oldColumnName.toString
    match columnPosition t.columns old with
    | none => .error (.err 1054 ("Unknown column '" ++ old ++ "'"))
    | some i => .ok { t with columns := t.columns.modify i fun c => { c with name := newColumnName.toString } }
  | .other _ => .ok t

/-- The operations in order; the first error ends it, with what was done kept. -/
def alterTable : List AlterTableOperation → TableM QueryResult
  | [] => pure (.ok 0 0)
  | op :: rest => do
    let t ← get
    match t.alter op with
    | .error e => return e
    | .ok t' =>
      set t'
      alterTable rest

end RunAlexDb
