import RunAlexDb.Model.Statements

/-!
# Prepared — `exec_stmt_prepared`

One prepared statement with its bound parameters. A `?` in a condition always
stands for the first parameter.
-/

namespace RunAlexDb

open Text Platform

variable [Platform]

-- ---------------------------------------------------------------------------
-- Conditions with parameters
-- ---------------------------------------------------------------------------

def resolveExprBound (row : Row) (cols : List Column) (bound : List Value) (e : Expr) : Value :=
  if e.isPlaceholder then bound.headD .null
  else
    match e with
    | .identifier id => (columnValue row cols id.value).getD .null
    | .value v => valueFromSqlparser v
    | _ => .null

def evalWhereBound (now : Nat) (row : Row) (cols : List Column) (bound : List Value) :
    Expr → Rust Bool
  | .binaryOp left .and right => do
    if ← evalWhereBound now row cols bound left then evalWhereBound now row cols bound right
    else return false
  | .binaryOp left .or right => do
    if ← evalWhereBound now row cols bound left then return true
    else evalWhereBound now row cols bound right
  | .binaryOp left op right =>
    let lv := resolveExprBound row cols bound left
    let rv := resolveExprBound row cols bound right
    pure ((compareOp op lv rv).getD true)
  | .unaryOp .not e => do return !(← evalWhereBound now row cols bound e)
  | .isNull e => pure (resolveExprBound row cols bound e).isNull
  | .isNotNull e => pure !(resolveExprBound row cols bound e).isNull
  | .nested inner => evalWhereBound now row cols bound inner
  | other => evalWhere now row cols other

/-- `selection.map_or(true, ..)` with parameters. -/
def rowSelectedBound (now : Nat) (cols : List Column) (bound : List Value)
    (selection : Option Expr) (row : Row) : Rust Bool :=
  selection.elim (pure true) (evalWhereBound now row cols bound)

/-- The key parameter `pos` stands for in `WHERE pk = ?`, when it is bound. -/
def boundKey (bound : List Value) (offset : Nat) (pkColName : Str) (w : Expr) : Option Str :=
  (extractPkEqParam pkColName w offset).bind fun pos => bound[pos]?.map valueToPkStr

-- ---------------------------------------------------------------------------
-- SELECT
-- ---------------------------------------------------------------------------

def projColPrepared (cols : List Column) (p : SelectItem) : Option (Str × Nat) :=
  match p with
  | .unnamedExpr e =>
    if e.isColumn then e.columnName?.bind fun name => (columnPosition cols name).map fun i => (name, i)
    else none
  | _ => none

def selectTablePrepared (now : Nat) (table : Table) (bound : List Value)
    (projection : List SelectItem) (selection : Option Expr) : Rust QueryResult := do
  let proj :=
    if projection.any SelectItem.isWildcard then table.columns.zipIdx.map fun (c, i) => (c.name, i)
    else projection.filterMap (projColPrepared table.columns)
  let names := proj.map Prod.fst
  let pkKey : Option Str ← match table.pkColIdx, selection with
    | some p, some w => do
      let col ← orPanic table.columns[p]?
      pure (boundKey bound 0 col.name w)
    | _, _ => pure none
  match pkKey with
  | some key => return .rows names ((pkRow table key).toList.map (projectText proj))
  | none =>
    let kept ← table.rows.filterM fun r => rowSelectedBound now table.columns bound selection r
    if !projection.isEmpty && projection.all fun p => p.function?.isSome then
      return .rows (projection.map SelectItem.toString) [projection.map fun p =>
        p.function?.bind fun f =>
          if toUppercase (ObjectName.toString f.name) = ("COUNT" : Str) then
            some (natToString kept.length)
          else none]
    else return .rows names (kept.map (projectText proj))

def selectPrepared (env : QueryEnv) (dbName : Str) (query : Query) (bound : List Value) :
    Rust QueryResult :=
  match query.body with
  | .select (.mk _ _ [] _ _ _) => pure (.err 1295 "No FROM")
  | .select (.mk _ projection (from_ :: _) selection _ _) =>
    let (db, table) := resolveName dbName from_.relation.toString
    match findTable env.databases db table (unknownDatabase db) ("Table not found: " ++ table) with
    | .error other => pure other
    | .ok t => selectTablePrepared env.now t bound projection selection
  | _ => pure (.err 1295 "Complex SELECT not supported")

-- ---------------------------------------------------------------------------
-- INSERT
-- ---------------------------------------------------------------------------

/-- A row of VALUES with its placeholders bound from parameter `i` on. -/
def bindRow (bound : List Value) : Nat → List Expr → Row × Nat
  | i, [] => ([], i)
  | i, e :: rest =>
    if e.isPlaceholder then
      let (row, next) := bindRow bound (i + 1) rest
      (bound.getD i .null :: row, next)
    else
      let (row, next) := bindRow bound i rest
      (exprToValue e :: row, next)

def bindRows (bound : List Value) : Nat → List (List Expr) → List Row
  | _, [] => []
  | i, exprs :: rest =>
    let (row, next) := bindRow bound i exprs
    row :: bindRows bound next rest

def insertRowsPrepared (rows : List Row) : TableM QueryResult := do
  Prog.forEach (fun row => modify fun t => t.push row) rows
  return .ok (UInt64.ofNat rows.length) 0

def insertPrepared (dbName tableName : Str) (source : Option Query) (bound : List Value) :
    EngineM QueryResult :=
  match source with
  | none => return .err 1064 "INSERT without VALUES"
  | some source =>
    match source.body with
    | .values rows =>
      let (db, table) := resolveName dbName tableName
      withTable db table "Unknown database" "Table not found"
        (insertRowsPrepared (bindRows bound 0 rows))
    | _ => return .err 1064 "Only VALUES inserts supported"

-- ---------------------------------------------------------------------------
-- UPDATE and DELETE
-- ---------------------------------------------------------------------------

/-- The values the assignments of an UPDATE by key make. Only assignments to a
column take a parameter. -/
def bindAssignments (cols : List Column) (bound : List Value) :
    Nat → List Assignment → List (Assignment × Value)
  | _, [] => []
  | i, asgn :: rest =>
    match columnPosition cols asgn.target.toString with
    | none => bindAssignments cols bound i rest
    | some _ =>
      if asgn.value.isPlaceholder then
        (asgn, bound.getD i .null) :: bindAssignments cols bound (i + 1) rest
      else (asgn, exprToValue asgn.value) :: bindAssignments cols bound i rest

/-- UPDATE by key: OK for one row whether or not the key is there. -/
def updateKeyPrepared (key : Str) (bound : List Value) (assignments : List Assignment) :
    TableM QueryResult := do
  let t ← get
  match t.pkIndex.get key with
  | none => return .ok 1 0
  | some ri =>
    if ri < t.rows.length then
      Prog.forEach (fun a => assignAt ri (fun _ _ => pure a.2) a.1)
        (bindAssignments t.columns bound 0 assignments)
    return .ok 1 0

def updateTablePrepared (now : Nat) (assignments : List Assignment) (selection : Option Expr)
    (bound : List Value) : TableM QueryResult := do
  let t ← get
  let params := (assignments.filter fun a => a.value.isPlaceholder).length
  match ← pkCondition selection (boundKey bound params) with
  | some key => updateKeyPrepared key bound assignments
  | none =>
    updateScan (rowSelectedBound now t.columns bound selection)
      (fun row e => evalRowExpr now row t.columns e) assignments

def updatePrepared (now : Nat) (dbName tableName : Str) (assignments : List Assignment)
    (selection : Option Expr) (bound : List Value) : EngineM QueryResult :=
  let (db, table) := resolveName dbName tableName
  withTable db table "Unknown database" "Table not found"
    (updateTablePrepared now assignments selection bound)

def deleteTablePrepared (now : Nat) (selection : Option Expr) (bound : List Value) :
    TableM QueryResult := do
  let t ← get
  deleteScan (rowKept (fun w r => evalWhereBound now r t.columns bound w) selection)
  let t' ← get
  return .ok (UInt64.ofNat (t.rows.length - t'.rows.length)) 0

def deletePrepared (now : Nat) (dbName tableName : Str) (selection : Option Expr)
    (bound : List Value) : EngineM QueryResult :=
  let (db, table) := resolveName dbName tableName
  withTable db table "Unknown database" "Table not found" (deleteTablePrepared now selection bound)

-- ---------------------------------------------------------------------------
-- exec_stmt_prepared
-- ---------------------------------------------------------------------------

def execStmtPrepared (now : Nat) (bound : List Value) (currentDb : Option Str) :
    Statement → EngineM QueryResult
  | .query q => do
    let e ← get
    Prog.ofExcept (selectPrepared (e.env now) (dbOrTest currentDb) q bound)
  | .insert ins => insertPrepared (dbOrTest currentDb) ins.table.toString ins.source bound
  | .update table assignments selection =>
    updatePrepared now (dbOrTest currentDb) table.relation.toString assignments selection bound
  | .delete del => deletePrepared now (dbOrTest currentDb) del.tableName del.selection bound
  | other => execStmt now currentDb other

end RunAlexDb
