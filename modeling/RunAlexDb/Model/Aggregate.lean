import RunAlexDb.Model.ResultSet

/-!
# Aggregate — groups, aggregate functions and HAVING

The single-table aggregates work on the stored integers of one column; those of
a joined query evaluate an expression on every row of the group.
-/

namespace RunAlexDb

open Text Platform

variable [Platform]

-- ---------------------------------------------------------------------------
-- Groups
-- ---------------------------------------------------------------------------

/-- Order of group keys: lexicographic, NULL first, texts by bytes. -/
def cmpKey : TextRow → TextRow → Ordering
  | [], [] => .eq
  | [], _ :: _ => .lt
  | _ :: _, [] => .gt
  | a :: s, b :: t =>
    (match a, b with
    | none, none => .eq
    | none, some _ => .lt
    | some _, none => .gt
    | some x, some y => cmpStr x y : Ordering).then (cmpKey s t)

/-- Groups in key order, rows in their old order. -/
abbrev Groups := List (TextRow × List Row)

def addToGroup (key : TextRow) (row : Row) : Groups → Groups
  | [] => [(key, [row])]
  | (k, rows) :: rest =>
    match cmpKey key k with
    | .lt => (key, [row]) :: (k, rows) :: rest
    | .eq => (k, rows ++ [row]) :: rest
    | .gt => (k, rows) :: addToGroup key row rest

/-- Group rows by the display of the given columns. -/
def groupRows (cols : List Nat) (rows : List Row) : Groups :=
  rows.foldl (fun groups row =>
    addToGroup (cols.map fun ci => row[ci]?.bind Value.toDisplay) row groups) []

-- ---------------------------------------------------------------------------
-- Aggregates of one table
-- ---------------------------------------------------------------------------

def isAggName (name : Str) : Bool :=
  match String.ofList name with
  | "COUNT" | "SUM" | "AVG" | "MIN" | "MAX" | "GROUP_CONCAT" | "STD" | "STDDEV" | "STDDEV_POP"
  | "VARIANCE" | "VAR_POP" | "BIT_AND" | "BIT_OR" | "BIT_XOR" => true
  | _ => false

/-- The argument part of a call as a column name: without blanks and parentheses. -/
def argsColumn (args : FunctionArguments) : Str :=
  trim (trimEndMatches (· == ')') (trimStartMatches (· == '(')
    (trim (functionArgumentsToString args))))

/-- The column the first argument names. -/
def firstArgColumn : FunctionArguments → Option Str
  | .list (.mk _ (.unnamed (.expr (.identifier id)) :: _) _) => some id.value
  | .list (.mk _ (.unnamed (.expr (.compoundIdentifier parts)) :: _) _) =>
    parts.getLast?.map Ident.value
  | _ => none

def FunctionArguments.isDistinct : FunctionArguments → Bool
  | .list (.mk (some .distinct) _ _) => true
  | _ => false

/-- The SEPARATOR of GROUP_CONCAT. -/
def separatorOf : FunctionArguments → Str
  | .list (.mk _ _ clauses) =>
    (clauses.findSome? fun
      | .separator (.singleQuotedString s) => some s
      | .separator (.doubleQuotedString s) => some s
      | _ => none).getD ","
  | _ => ","

def columnInts (ci : Nat) (rows : List Row) : List Int64 :=
  rows.filterMap fun r =>
    match (r[ci]? : Option Value) with
    | some (.int n) => some n
    | _ => none

def columnTexts (ci : Nat) (rows : List Row) : List Str :=
  rows.filterMap fun r => r[ci]?.bind Value.toDisplay

/-- Number of different non-NULL values in a column. -/
def distinctCount (ci : Nat) (rows : List Row) : Nat := (columnTexts ci rows).dedup.length

def sumInts (ns : List Int64) : Int64 := ns.foldl (· + ·) 0

def avgInts (ns : List Int64) : Option Int64 :=
  if ns.isEmpty then none else some (sumInts ns / Int64.ofNat ns.length)

/-- `SUM`, `AVG`, `MIN`, `MAX` over the integers of a column. -/
def intAggregate (fname : Str) (ci : Nat) (rows : List Row) : Option Int64 :=
  let ns := columnInts ci rows
  match String.ofList fname with
  | "SUM" => some (sumInts ns)
  | "AVG" => avgInts ns
  | "MAX" => maxBy cmpInt64 ns
  | "MIN" => minBy cmpInt64 ns
  | _ => none

/-- One aggregate over all rows of a query without GROUP BY. -/
def evalAggregate (cols : List Column) (rows : List Row) (f : Function) : Option Str :=
  let fname := toUppercase (ObjectName.toString f.name)
  match String.ofList fname with
  | "COUNT" =>
    if f.args.isDistinct then
      let ci := columnPosition cols ((firstArgColumn f.args).getD [])
      some (natToString ((ci.map fun ci => distinctCount ci rows).getD 0))
    else some (natToString rows.length)
  | "GROUP_CONCAT" =>
    ((columnPosition cols ((firstArgColumn f.args).getD [])).map fun ci =>
      join (separatorOf f.args) (columnTexts ci rows)).filter fun s => !s.isEmpty
  | "MAX" | "MIN" | "SUM" | "AVG" =>
    (columnPosition cols (argsColumn f.args)).bind fun ci =>
      (intAggregate fname ci rows).map i64ToString
  | _ => some "0"

/-- One aggregate over a group of a query with GROUP BY. -/
def evalGroupAggregate (cols : List Column) (rows : List Row) (f : Function) : Option Str :=
  let fname := toUppercase (ObjectName.toString f.name)
  match String.ofList fname with
  | "COUNT" =>
    let name := (firstArgColumn f.args).getD []
    if f.args.isDistinct && name != ("*" : Str) && !name.isEmpty then
      some (natToString (((columnPosition cols name).map fun ci => distinctCount ci rows).getD 0))
    else some (natToString rows.length)
  | "GROUP_CONCAT" =>
    (columnPosition cols ((firstArgColumn f.args).getD [])).bind fun ci =>
      let parts := columnTexts ci rows
      if parts.isEmpty then none else some (join (separatorOf f.args) parts)
  | "SUM" | "AVG" | "MAX" | "MIN" =>
    (columnPosition cols (argsColumn f.args)).bind fun ci =>
      (intAggregate fname ci rows).map i64ToString
  | _ => none

-- ---------------------------------------------------------------------------
-- HAVING
-- ---------------------------------------------------------------------------

/-- A HAVING operand. An alias stands for its expression, which is looked up
again in the same way; each step of that takes a stack frame. -/
def evalHavingVal (rows : List Row) (cols : List Column) (aliases : HashMap Str Expr) :
    Nat → Expr → Rust Value
  | 0, _ => .error .stackOverflow
  | fuel + 1, e =>
    match e with
    | .function f =>
      let fname := toUppercase (ObjectName.toString f.name)
      match String.ofList fname with
      | "COUNT" => pure (.int (Int64.ofNat rows.length))
      | "SUM" | "AVG" | "MAX" | "MIN" =>
        pure (((columnPosition cols (argsColumn f.args)).bind fun ci =>
          (intAggregate fname ci rows).map Value.int).getD .null)
      | _ => pure .null
    | .value v => pure (exprToValue (.value v))
    | .identifier id =>
      match aliases.get (toUppercase id.value) with
      | some aliased => evalHavingVal rows cols aliases fuel aliased
      | none => pure (((columnPosition cols id.value).bind fun ci =>
          rows.head?.bind fun r => r[ci]?).getD .null)
    | _ => pure .null

def evalHaving (rows : List Row) (cols : List Column) (aliases : HashMap Str Expr) : Expr → Rust Bool
  | .binaryOp left .and right => do
    if ← evalHaving rows cols aliases left then evalHaving rows cols aliases right else return false
  | .binaryOp left .or right => do
    if ← evalHaving rows cols aliases left then return true else evalHaving rows cols aliases right
  | .binaryOp left op right => do
    let lv ← evalHavingVal rows cols aliases stackDepth left
    let rv ← evalHavingVal rows cols aliases stackDepth right
    return (compareOp op lv rv).getD true
  | .unaryOp .not e => do return !(← evalHaving rows cols aliases e)
  | _ => pure true

/-- The aliases of a projection, by upper-cased name. -/
def aliasMap (projection : List SelectItem) : HashMap Str Expr :=
  HashMap.ofList (projection.filterMap fun
    | .exprWithAlias e a => some (toUppercase a.value, e)
    | _ => none)

-- ---------------------------------------------------------------------------
-- GROUP BY on one table
-- ---------------------------------------------------------------------------

/-- The name a GROUP BY item or a projected column goes by. -/
def plainName : Expr → Option Str
  | .identifier id => some id.value
  | .compoundIdentifier parts => some ((parts.getLast?.map Ident.value).getD [])
  | _ => none

def GroupByExpr.exprs : GroupByExpr → List Expr
  | .expressions exprs => exprs
  | .all => []

/-- Columns of the table that GROUP BY names. -/
def groupByCols (cols : List Column) (groupBy : GroupByExpr) : List Nat :=
  groupBy.exprs.filterMap fun e => (plainName e).bind (columnPosition cols)

/-- A cell of a group: an aggregate, or the part of the key a name stands for. -/
def groupCell (cols : List Column) (byCols : List Nat) (key : TextRow) (rows : List Row)
    (p : SelectItem) : Option Str :=
  match p with
  | .unnamedExpr (.function f) => evalGroupAggregate cols rows f
  | .exprWithAlias (.function f) _ => evalGroupAggregate cols rows f
  | .unnamedExpr e =>
    (plainName e).bind fun name =>
      (byCols.findIdx? fun c => (cols[c]?).elim false fun col => eqIgnoreAsciiCase col.name name).bind
        fun pos => key[pos]?.join
  | _ => none

def selectGroups (cols : List Column) (byCols : List Nat) (projection : List SelectItem)
    (having : Option Expr) (rows : List Row) : Rust QueryResult := do
  let kept ← (groupRows byCols rows).filterM fun g =>
    having.elim (pure true) (evalHaving g.2 cols (aliasMap projection))
  return .rows (projection.map itemLabel)
    (kept.map fun g => projection.map (groupCell cols byCols g.1 g.2))

-- ---------------------------------------------------------------------------
-- GROUP BY on a join
-- ---------------------------------------------------------------------------

def isJoinAggName (name : Str) : Bool :=
  match String.ofList name with
  | "COUNT" | "SUM" | "AVG" | "MIN" | "MAX" | "GROUP_CONCAT" => true
  | _ => false

/-- The first argument as an expression. -/
def firstArgExpr : FunctionArguments → Option Expr
  | .list (.mk _ (.unnamed (.expr e) :: _) _) => some e
  | _ => none

/-- A float as text: without decimals when it is whole, else by `other`. -/
def showFloat (other : F64 → Str) (f : F64) : Str :=
  if f64Eq (f64Fract f) f64Zero then f64ToFixed 0 f else other f

def asFloat : Value → Option F64
  | .int n => some (f64OfI64 n)
  | .float f => some f
  | .text s => f64Parse s
  | _ => none

/-- One aggregate over a group of a joined query. -/
def evalJoinAggregate (now : Nat) (cols : List Column) (rows : List Row) (f : Function) :
    Rust (Option Str) := do
  let fname := toUppercase (ObjectName.toString f.name)
  match String.ofList fname, firstArgExpr f.args with
  | "COUNT", some e =>
    let vs ← rows.mapM fun r => evalRowExpr now r cols e
    return some (natToString (vs.filter fun v => !v.isNull).length)
  | "COUNT", none => return some (natToString rows.length)
  | _, none => return none
  | name, some e =>
    let vs ← rows.mapM fun r => evalRowExpr now r cols e
    let nums := vs.filterMap asFloat
    match name with
    | "SUM" => return some (showFloat (f64ToFixed 2) (f64Sum nums))
    | "AVG" =>
      if nums.isEmpty then return none
      else return some (showFloat f64ToString
        (f64Div (f64Sum nums) (f64OfI64 (Int64.ofNat nums.length))))
    | "MIN" => return (reduce f64Min nums).map (showFloat f64ToString)
    | "MAX" => return (reduce f64Max nums).map (showFloat f64ToString)
    | "GROUP_CONCAT" =>
      let parts := vs.filterMap Value.toDisplay
      return if parts.isEmpty then none else some (join "," parts)
    | _ => return none
where
  reduce (f : F64 → F64 → F64) : List F64 → Option F64
    | [] => none
    | x :: xs => some (xs.foldl f x)

/-- The part of a column name after its last dot. -/
def lastSegment (name : Str) : Str := (split '.' name).getLast?.getD []

/-- A column of a join goes by its name and by the part after its table. -/
def Column.goesBy (c : Column) (name : Str) : Bool :=
  eqIgnoreAsciiCase c.name name || eqIgnoreAsciiCase (lastSegment c.name) name

def joinGroupByCols (cols : List Column) (exprs : List Expr) : List Nat :=
  exprs.filterMap fun e => (plainName e).bind fun name => cols.findIdx? fun c => c.goesBy name

/-- The value of an expression on the first row of a group. -/
def onFirstRow (now : Nat) (cols : List Column) (rows : List Row) (e : Expr) : Rust (Option Str) :=
  match rows.head? with
  | none => pure none
  | some r => (evalRowExpr now r cols e).map Value.toDisplay

def joinGroupCell (now : Nat) (cols : List Column) (byCols : List Nat) (key : TextRow)
    (rows : List Row) (p : SelectItem) : Rust (Option Str) :=
  match p.expr? with
  | none => pure none
  | some e =>
    let plain : Rust (Option Str) :=
      match plainName e with
      | none => onFirstRow now cols rows e
      | some name =>
        match (byCols.findIdx? fun c => (cols[c]?).elim false fun col => col.goesBy name).bind
            fun pos => key[pos]?.join with
        | some s => pure (some s)
        | none => onFirstRow now cols rows e
    match e with
    | .function f =>
      if isJoinAggName (toUppercase (ObjectName.toString f.name)) then
        evalJoinAggregate now cols rows f
      else plain
    | _ => plain

/-- Output name of an item of a grouped join. -/
def joinGroupLabel (p : SelectItem) : Str :=
  match p with
  | .exprWithAlias _ a => a.value
  | .unnamedExpr e => exprName e (exprToString e)
  | p => p.toString

def selectJoinGroups (now : Nat) (cols : List Column) (exprs : List Expr)
    (projection : List SelectItem) (orderBy : Option OrderByKind) (limit : Option Expr)
    (rows : List Row) : Rust QueryResult := do
  let byCols := joinGroupByCols cols exprs
  let names := projection.map joinGroupLabel
  let out ← (groupRows byCols rows).mapM fun g =>
    projection.mapM (joinGroupCell now cols byCols g.1 g.2)
  let sorted := sortOutputs (fun a b => cmpNumberOrText (a.getD []) (b.getD [])) names orderBy out
  return .rows names (applyLimit (numberOf limit) sorted)

end RunAlexDb
