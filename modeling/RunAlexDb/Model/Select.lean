import Mathlib.Data.List.Destutter
import RunAlexDb.Model.Aggregate

/-!
# Select — queries

A query reads the databases and changes nothing, so it is a function of what it
reads (`QueryEnv`). `select` and the resolution of subqueries in a WHERE clause
recurse over the syntax tree together; what comes after the FROM clause is
resolved is `selectTable` and `selectJoined`.
-/

namespace RunAlexDb

open Text Platform

variable [Platform]

/-- What a query reads. -/
structure QueryEnv where
  databases : HashMap Str Database
  lastInsertId : UInt64
  /-- The clock, in seconds since the epoch. -/
  now : Nat

/-- A table, or the error the caller returns. -/
def findTable (databases : HashMap Str Database) (dbName tableName noDb noTable : Str) :
    Except QueryResult Table :=
  match databases.get dbName with
  | none => .error (.err 1049 noDb)
  | some db =>
    match db.tables.get tableName with
    | none => .error (.err 1146 noTable)
    | some table => .ok table

def unknownDatabase (db : Str) : Str := "Unknown database '" ++ db ++ "'"

def unknownTable (table : Str) : Str := "Table '" ++ table ++ "' doesn't exist"

/-- Columns and rows of a result set as text, or the result itself when it is
none. -/
def asTextRows : QueryResult → Except QueryResult (List Str × List TextRow)
  | .rows columns rows => .ok (columns, rows)
  | .valueRows columns rows => .ok (columns, rows.map displayRow)
  | other => .error other

-- ---------------------------------------------------------------------------
-- SELECT without FROM
-- ---------------------------------------------------------------------------

/-- The value of an item without FROM. -/
def constantCell (env : QueryEnv) (dbName : Str) (p : SelectItem) : Rust (Option Str) :=
  match p.expr? with
  | none => pure (some p.toString)
  | some e =>
    let evaluated : Rust (Option Str) := do
      let v ← evalRowExpr env.now [] [] e
      return some (v.toDisplay.getD (exprToString e))
    match e with
    | .value v => pure (some (trimMatches '\'' v.toString))
    | .function f =>
      match String.ofList (toUppercase (ObjectName.toString f.name)) with
      | "DATABASE" | "SCHEMA" => pure (if dbName.isEmpty then none else some dbName)
      | "VERSION" => pure (some "8.0.32-RunAlexDB")
      | "USER" | "CURRENT_USER" | "SESSION_USER" | "SYSTEM_USER" => pure (some "root@localhost")
      | "CONNECTION_ID" => pure (some "1")
      | "ROW_COUNT" => pure (some "0")
      | "LAST_INSERT_ID" => pure (some (natToString env.lastInsertId.toNat))
      | _ => evaluated
    | _ => evaluated

def selectConstants (env : QueryEnv) (dbName : Str) (projection : List SelectItem) :
    Rust QueryResult := do
  let vals ← projection.mapM (constantCell env dbName)
  return .rows (projection.map itemLabel) [vals]

-- ---------------------------------------------------------------------------
-- Derived tables and set operations
-- ---------------------------------------------------------------------------

/-- A displayed cell read back as a value. -/
def retype : Option Str → Value
  | none => .null
  | some s =>
    match parseI64 s with
    | some n => .int n
    | none =>
      match f64Parse s with
      | some f => .float f
      | none => .text s

/-- SELECT over the result of a subquery in FROM. -/
def selectDerived (now : Nat) (inner : QueryResult) (projection : List SelectItem)
    (selection : Option Expr) (orderBy : Option OrderByKind) (limit offset : Option Expr) :
    Rust QueryResult :=
  match asTextRows inner with
  | .error other => pure other
  | .ok (colNames, innerRows) => do
    let cols : List Column := colNames.map fun n =>
      { name := n, colType := .varChar 255, nullable := true, primaryKey := false }
    let outs := projectionOutputs cols Column.name exprToString projection
    let kept ← filterRows now cols selection (innerRows.map fun r => r.map retype)
    let rows ← kept.mapM (evalOutputs now cols outs)
    let names := outs.map Prod.fst
    let sorted := sortOutputs (fun a b => cmpNumberOrText (a.getD []) (b.getD [])) names orderBy rows
    return .rows names (applyLimit (numberOf limit) (sorted.drop ((numberOf offset).getD 0)))

/-- Left and right result of a set operation: appended, and without ALL cleared
of equal neighbours. -/
def combineSets (quantifier : SetQuantifier) (left right : QueryResult) : QueryResult :=
  match asTextRows left, asTextRows right with
  | .error other, _ => other
  | _, .error other => other
  | .ok (cols, lrows), .ok (_, rrows) =>
    let rows := lrows ++ rrows
    .rows cols (if quantifier = .all then rows else rows.destutter (· ≠ ·))

-- ---------------------------------------------------------------------------
-- SELECT over a join
-- ---------------------------------------------------------------------------

/-- The name a FROM item is looked up by. -/
def relationName : TableFactor → Str
  | .table name _ => ObjectName.toString name
  | other => other.toString

/-- Condition of a join, and whether unmatched left rows are kept. -/
def JoinOperator.condition : JoinOperator → Option Expr × Bool
  | .join (.on e) => (some e, false)
  | .inner (.on e) => (some e, false)
  | .left (.on e) => (some e, true)
  | .leftOuter (.on e) => (some e, true)
  | _ => (none, false)

/-- Columns of the right table, those whose name is taken qualified. -/
def joinColumns (cols : List Column) (tableName : Str) (right : List Column) : List Column :=
  right.map fun c =>
    if (cols.map fun c => toLowercase c.name).contains (toLowercase c.name) then
      { c with name := tableName ++ "." ++ c.name }
    else c

/-- What a left row contributes to a join. -/
def joinRow (now : Nat) (cols : List Column) (condition : Option Expr × Bool) (rightWidth : Nat)
    (rightRows : List Row) (left : Row) : Rust (List Row) := do
  let matched ← filterRows now cols condition.1 (rightRows.map (left ++ ·))
  return if matched.isEmpty && condition.2 then [left ++ List.replicate rightWidth .null] else matched

/-- Join the tables of a FROM item to `rows`, one after the other. -/
def joinAll (env : QueryEnv) (dbName : Str) :
    List Join → List Column → List Row → Rust (Except QueryResult (List Column × List Row))
  | [], cols, rows => pure (.ok (cols, rows))
  | .mk relation operator :: rest, cols, rows =>
    let (rdb, rtbl) := resolveName dbName (relationName relation)
    match findTable env.databases rdb rtbl (unknownDatabase rdb) (unknownTable rtbl) with
    | .error other => pure (.error other)
    | .ok right => do
      let cols := cols ++ joinColumns cols rtbl right.columns
      let joined ← rows.mapM
        (joinRow env.now cols operator.condition right.columns.length right.rows)
      joinAll env dbName rest cols joined.flatten

/-- Outputs of a join over the filtered rows, without GROUP BY. -/
def joinOutput (now : Nat) (cols : List Column) (projection : List SelectItem)
    (orderBy : Option OrderByKind) (limit offset : Option Expr) (rows : List Row) :
    Rust QueryResult := do
  let outs := projectionOutputs cols (fun c => lastSegment c.name) (fun _ => []) projection
  let names := outs.map Prod.fst
  let out ← (sortSource cols orderBy rows).mapM (evalOutputs now cols outs)
  let sorted := sortOutputs cmpNullable names orderBy out
  return .rows names (applyLimit (numberOf limit) (sorted.drop ((numberOf offset).getD 0)))

def selectJoined (env : QueryEnv) (dbName : Str) (from_ : TableWithJoins)
    (projection : List SelectItem) (selection : Option Expr) (groupBy : GroupByExpr)
    (orderBy : Option OrderByKind) (limit offset : Option Expr) : Rust QueryResult :=
  let (bdb, btbl) := resolveName dbName (relationName from_.relation)
  match findTable env.databases bdb btbl (unknownDatabase bdb) (unknownTable btbl) with
  | .error other => pure other
  | .ok base => do
    match ← joinAll env dbName from_.joins base.columns base.rows with
    | .error other => return other
    | .ok (cols, rows) =>
      let filtered ← filterRows env.now cols selection rows
      if groupBy.exprs.isEmpty then
        joinOutput env.now cols projection orderBy limit offset filtered
      else selectJoinGroups env.now cols groupBy.exprs projection orderBy limit filtered

-- ---------------------------------------------------------------------------
-- SELECT over one table
-- ---------------------------------------------------------------------------

/-- A query whose items are all aggregates, without GROUP BY. -/
def isAggregateOnly (projection : List SelectItem) (groupBy : GroupByExpr) : Bool :=
  !projection.isEmpty && groupBy.exprs.isEmpty && projection.all fun p =>
    p.function?.elim false fun f => isAggName (toUppercase (ObjectName.toString f.name))

def isPlainCol : SelectItem → Bool
  | .wildcard _ => true
  | .qualifiedWildcard _ => true
  | .unnamedExpr e => e.isColumn
  | .exprWithAlias e _ => e.isColumn

/-- A projection with an item that is no plain column: every item is evaluated. -/
def selectExprs (now : Nat) (table : Table) (projection : List SelectItem)
    (selection : Option Expr) (orderBy : Option OrderByKind) (limit offset : Option Expr) :
    Rust QueryResult := do
  let outs := projectionOutputs table.columns Column.name exprToString projection
  let names := outs.map Prod.fst
  let kept ← filterRows now table.columns selection table.rows
  let rows ← kept.mapM (evalOutputs now table.columns outs)
  let rows := (winItems outs).foldl (applyWindow names) rows
  let sorted := sortOutputs cmpNullable names orderBy rows
  return .rows names (applyLimit (numberOf limit) (sorted.drop ((numberOf offset).getD 0)))

/-- Name and column index of a plain projection item. -/
def projCol (cols : List Column) (p : SelectItem) : Option (Str × Nat) :=
  match p with
  | .unnamedExpr (.identifier id) => (columnPosition cols id.value).map fun i => (id.value, i)
  | .unnamedExpr (.compoundIdentifier parts) =>
    let name := (parts.getLast?.map Ident.value).getD []
    (columnPosition cols name).map fun i => (name, i)
  | .exprWithAlias (.identifier id) a => (columnPosition cols id.value).map fun i => (a.value, i)
  | _ => none

def projCols (cols : List Column) (projection : List SelectItem) : List (Str × Nat) :=
  if projection.any SelectItem.isWildcard then cols.zipIdx.map fun (c, i) => (c.name, i)
  else projection.filterMap (projCol cols)

/-- The projected cells of a row as text. -/
def projectText (proj : List (Str × Nat)) (row : Row) : TextRow :=
  proj.map fun p => row[p.2]?.bind Value.toDisplay

/-- The row the primary-key index names, if it is there. -/
def pkRow (table : Table) (key : Str) : Option Row := (table.pkIndex.get key).bind (table.rows[·]?)

/-- The rows a scan or the WHERE clause selects. -/
def selectedRows (now : Nat) (table : Table) (selection : Option Expr) : Rust (List Row) :=
  match selection.bind (trySimdScan table) with
  | some idxs => pure (idxs.filterMap fun i => table.rows[i]?)
  | none => filterRows now table.columns selection table.rows

/-- A projection of plain columns: by the primary key, by a scan, or by the
WHERE clause. -/
def selectPlain (now : Nat) (table : Table) (distinct : Option Distinct)
    (projection : List SelectItem) (selection : Option Expr) (orderBy : Option OrderByKind)
    (limit offset : Option Expr) : Rust QueryResult := do
  let proj := projCols table.columns projection
  let names := proj.map Prod.fst
  let pkKey : Option Str ← match table.pkColIdx, selection with
    | some pkIdx, some w => do
      let pkCol ← orPanic table.columns[pkIdx]?
      pure (extractPkEq pkCol.name w)
    | _, _ => pure none
  match pkKey with
  | some key => return .rows names ((pkRow table key).toList.map (projectText proj))
  | none =>
    let rows ← selectedRows now table selection
    if orderBy.isNone && limit.isNone && offset.isNone then
      return .valueRows names (rows.map fun row => proj.map fun p => row[p.2]?.getD .null)
    else
      let sorted := (sortSource table.columns orderBy rows).map (projectText proj)
      let cut := applyLimit (literalOf limit) (sorted.drop ((literalOf offset).getD 0))
      return .rows names (if distinct = some .distinct then cut.reverse.dedup.reverse else cut)

def selectTable (now : Nat) (table : Table) (distinct : Option Distinct)
    (projection : List SelectItem) (selection : Option Expr) (groupBy : GroupByExpr)
    (having : Option Expr) (orderBy : Option OrderByKind) (limit offset : Option Expr) :
    Rust QueryResult := do
  if isAggregateOnly projection groupBy then
    let filtered ← filterRows now table.columns selection table.rows
    return .rows (projection.map itemLabel) [projection.map fun p =>
      p.function?.bind (evalAggregate table.columns filtered)]
  else
    let byCols := groupByCols table.columns groupBy
    if !byCols.isEmpty then
      let filtered ← filterRows now table.columns selection table.rows
      selectGroups table.columns byCols projection having filtered
    else if projection.all isPlainCol then
      selectPlain now table distinct projection selection orderBy limit offset
    else selectExprs now table projection selection orderBy limit offset

-- ---------------------------------------------------------------------------
-- Subqueries in a WHERE clause
-- ---------------------------------------------------------------------------

/-- A displayed value as a literal. -/
def textLiteral (s : Str) : SqlValue :=
  if (parseI64 s).isSome then .number s false else .singleQuotedString s

/-- A stored value as a literal. -/
def valueLiteral : Value → SqlValue
  | .int n => .number (i64ToString n) false
  | .text s => .singleQuotedString s
  | .float f => .number (f64ToString f) false
  | .null => .null
  | .bytes _ => .null

/-- The list an IN subquery becomes; a failed subquery gives the empty list. -/
def inListOf : QueryResult → List Expr
  | .rows _ rows => rows.filterMap fun r => r.head?.join.map fun s => .value (textLiteral s)
  | .valueRows _ rows => rows.filterMap fun r => r.head?.map fun v => .value (valueLiteral v)
  | _ => []

/-- The literal a scalar subquery becomes; a failed subquery gives NULL. -/
def scalarOf : QueryResult → Expr
  | .rows _ rows => .value ((rows.head?.bind fun r => r.head?.join).elim .null textLiteral)
  | .valueRows _ rows =>
    .value (((rows.head?.bind List.head?).bind Value.toDisplay).elim .null textLiteral)
  | _ => .value .null

theorem inListOf_literals (r : QueryResult) : ∀ e ∈ inListOf r, ∃ v, e = .value v := by
  intro e he
  unfold inListOf at he
  split at he
  · obtain ⟨row, -, hRow⟩ := List.mem_filterMap.1 he
    obtain ⟨s, -, rfl⟩ := Option.map_eq_some_iff.1 hRow
    exact ⟨_, rfl⟩
  · obtain ⟨row, -, hRow⟩ := List.mem_filterMap.1 he
    obtain ⟨v, -, rfl⟩ := Option.map_eq_some_iff.1 hRow
    exact ⟨_, rfl⟩
  · exact absurd he List.not_mem_nil

theorem scalarOf_literal (r : QueryResult) : ∃ v, scalarOf r = .value v := by
  unfold scalarOf
  split <;> exact ⟨_, rfl⟩

-- ---------------------------------------------------------------------------
-- The recursion
-- ---------------------------------------------------------------------------

mutual

def select (env : QueryEnv) (dbName : Str) : Query → Rust QueryResult
  | .mk body orderBy limit offset => selectBody env dbName orderBy limit offset body
termination_by structural q => q

def selectBody (env : QueryEnv) (dbName : Str) (orderBy : Option OrderByKind)
    (limit offset : Option Expr) : SetExpr → Rust QueryResult
  | .setOperation _ setQuantifier left right => do
    -- the operands are queries of their own, without ORDER BY and LIMIT
    let lr ← selectBody env dbName none none none left
    let rr ← selectBody env dbName none none none right
    return combineSets setQuantifier lr rr
  | .select s => selectFrom env dbName orderBy limit offset s
  | _ => pure (.err 1295 "Complex SELECT not yet supported")
termination_by structural body => body

def selectFrom (env : QueryEnv) (dbName : Str) (orderBy : Option OrderByKind)
    (limit offset : Option Expr) : Select → Rust QueryResult
  | .mk _ projection [] _ _ _ => selectConstants env dbName projection
  | .mk distinct projection (from_ :: _) selection groupBy having => do
    match ← derivedSource env dbName from_ with
    | some inner => selectDerived env.now inner projection selection orderBy limit offset
    | none =>
      let (selDb, tableName) := resolveName dbName from_.relation.toString
      let selection ← resolveSelection env selDb selection
      if !from_.joins.isEmpty then
        selectJoined env selDb from_ projection selection groupBy orderBy limit offset
      else
        match findTable env.databases selDb tableName (unknownDatabase selDb)
            (unknownTable (selDb ++ "." ++ tableName)) with
        | .error other => return other
        | .ok table =>
          selectTable env.now table distinct projection selection groupBy having orderBy limit offset
termination_by structural s => s

/-- The result of the subquery a FROM item consists of. -/
def derivedSource (env : QueryEnv) (dbName : Str) : TableWithJoins → Rust (Option QueryResult)
  | .mk (.derived subquery _) _ => do return some (← select env dbName subquery)
  | _ => pure none
termination_by structural t => t

def resolveSelection (env : QueryEnv) (dbName : Str) : Option Expr → Rust (Option Expr)
  | none => pure none
  | some w => do return some (← resolveInSubqueries env dbName w)
termination_by structural w => w

/-- Replace the subqueries of a condition by the lists and literals they yield. -/
def resolveInSubqueries (env : QueryEnv) (dbName : Str) : Expr → Rust Expr
  | .inSubquery inner subquery negated => do
    let result ← select env dbName subquery
    return .inList inner (inListOf result) negated
  | .binaryOp left op right => do
    let l ← resolveInSubqueries env dbName left
    let r ← resolveInSubqueries env dbName right
    return .binaryOp l op r
  | .unaryOp op e => do return .unaryOp op (← resolveInSubqueries env dbName e)
  | .subquery q => do return scalarOf (← select env dbName q)
  | .nested e => do return .nested (← resolveInSubqueries env dbName e)
  | other => pure other
termination_by structural e => e

end

end RunAlexDb
