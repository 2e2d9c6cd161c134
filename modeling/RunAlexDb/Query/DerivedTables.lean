import RunAlexDb.Query.TableQueries
import RunAlexDb.Query.DistinctRows
import RunAlexDb.Statement.StringParams

/-!
# DerivedTables — a query as a table

A derived table and CREATE TABLE AS both take the displayed rows of a query and
read the cells back: the one by what each looks like, the other by the types of
the first row. The new table has empty column stores.

Main result: `derivedTables_iff`.
-/

set_option linter.unusedSectionVars false

namespace RunAlexDb

open Text Platform

-- ---------------------------------------------------------------------------
-- Two selections, one of them seen through a map
-- ---------------------------------------------------------------------------

section Seen

variable {α : Type} {f : α → α} {p q : α → Bool}
  (hTwice : ∀ x, f (f x) = f x) (hBlind : ∀ x, p (f x) = p x)

include hTwice hBlind

/-- A selection that looks through `f`, seen through `f`, is another selection
exactly when both select the same and `f` leaves it as it is. -/
theorem map_filter_eq_filter_iff {l : List α} :
    (l.filter p).map f = l.filter q ↔ ∀ x ∈ l, p x = q x ∧ (p x = true → f x = x) := by
  constructor
  · intro hEq
    have hBack : ∀ y ∈ l.filter q, f y = y ∧ p y = true := by
      intro y hy
      rw [← hEq] at hy
      obtain ⟨x, hx, rfl⟩ := List.mem_map.1 hy
      exact ⟨hTwice x, (hBlind x).trans (List.mem_filter.1 hx).2⟩
    -- what `q` selects `p` selects, and they select as many
    have hLess : l.filter q = (l.filter p).filter q := by
      rw [List.filter_filter]
      refine List.filter_congr fun x hx => ?_
      cases hq : q x with
      | false => rfl
      | true => rw [(hBack x (List.mem_filter.2 ⟨hx, hq⟩)).2, Bool.and_self]
    have hLength : ((l.filter p).filter q).length = (l.filter p).length := by
      rw [← hLess, ← hEq, List.length_map]
    have hMore : ∀ x ∈ l.filter p, q x = true := List.length_filter_eq_length_iff.1 hLength
    intro x hx
    have hSame : p x = q x := by
      rw [Bool.eq_iff_iff]
      exact ⟨fun hp => hMore x (List.mem_filter.2 ⟨hx, hp⟩),
        fun hq => (hBack x (List.mem_filter.2 ⟨hx, hq⟩)).2⟩
    refine ⟨hSame, fun hp => (hBack x (List.mem_filter.2 ⟨hx, ?_⟩)).1⟩
    rwa [← hSame]
  · intro hAll
    rw [List.filter_congr fun x hx => ((hAll x hx).1).symm]
    refine (List.map_congr_left fun x hx => ?_).trans (List.map_id _)
    obtain ⟨hx, hp⟩ := List.mem_filter.1 hx
    exact (hAll x hx).2 hp

end Seen

section DerivedTables

variable [Platform]

-- ---------------------------------------------------------------------------
-- The queries
-- ---------------------------------------------------------------------------

/-- `SELECT * FROM (q) .. WHERE w`. -/
def derivedQuery (q : Query) (rest : Str) (w : Option Expr) : Query :=
  .mk (.select (.mk none [.wildcard "*"] [.mk (.derived q rest) []] w (.expressions []) none))
    none none none

/-- `CREATE TABLE name AS q`. -/
def asQuery (name : ObjectName) (q : Query) : CreateTable := ⟨name, [], false, some q⟩

/-- The columns of a derived table. -/
def derivedColumns (cols : List Str) : List Column :=
  cols.map fun n => { name := n, colType := .varChar 255, nullable := true, primaryKey := false }

/-- A row as the new table holds it: each cell read as its column's type. -/
def typedRow (t : Table) (texts : TextRow) : Row := texts.mapIdx fun ci v => readAs t.columns[ci]? v

/-- A printed number is read back as it was. -/
def PrintsFloats : Prop := ∀ s f, f64Parse s = some f → f64Parse (f64ToString f) = some f

-- ---------------------------------------------------------------------------
-- When they show the query
-- ---------------------------------------------------------------------------

/-- A row has a cell for each column, a cell that is a number is written as the
number prints, and columns of one name have one content. -/
structure ComesThrough (cols : List Str) (texts : TextRow) : Prop where
  width : texts.length = cols.length
  itself : ∀ s, some s ∈ texts → ComesBackAs s s
  sameName : ∀ (i j : Nat) (n m : Str), cols[i]? = some n → cols[j]? = some m →
    eqIgnoreAsciiCase n m = true → texts[i]? = texts[j]?

/-- The condition does not become a scan of the new table or fails, it says of
the cells read by their types what it says of the cells read by their looks, and
where it holds the numbers of float columns are floats. -/
structure AskedAlike (now : Nat) (t : Table) (w' : Expr) (cols : List Str) (w : Expr)
    (texts : TextRow) : Prop where
  unscanned : holds now (derivedColumns cols) w (texts.map retype) = true → trySimdScan t w' = none
  alike : trySimdScan t w' = none →
    holds now t.columns w' (typedRow t texts) = holds now (derivedColumns cols) w (texts.map retype)
  floats : holds now (derivedColumns cols) w (texts.map retype) = true →
    ∀ (ci : Nat) (c : Column) (s : Str) (f : F64), t.columns[ci]? = some c → c.colType = .float →
      texts[ci]? = some (some s) → f64Parse s = some f → f64ToString f = s

-- ---------------------------------------------------------------------------
-- The derived table
-- ---------------------------------------------------------------------------

/-- A row of the derived table as `*` shows it. -/
def shownAgain (cols : List Str) (row : Row) : TextRow :=
  (derivedColumns cols).map fun c => ((columnValue row (derivedColumns cols) c.name).getD .null).toDisplay

theorem evalOutputs_star (now : Nat) (cols outs : List Column) (row : Row) :
    evalOutputs now cols (outs.map fun c => (c.name, .identifier (Ident.new c.name))) row =
      .ok (outs.map fun c => ((columnValue row cols c.name).getD .null).toDisplay) := by
  induction outs with
  | nil => rfl
  | cons c outs ih =>
    rw [evalOutputs] at ih ⊢
    rw [List.map_cons, List.mapM_cons, ih]
    rfl

theorem mapM_shownAgain (now : Nat) (cols : List Str) (rows : List Row) :
    rows.mapM (evalOutputs now (derivedColumns cols)
      ((derivedColumns cols).map fun c => (c.name, .identifier (Ident.new c.name)))) =
      .ok (rows.map (shownAgain cols)) := by
  induction rows with
  | nil => rfl
  | cons row rows ih =>
    rw [List.mapM_cons, ih, evalOutputs_star]
    rfl

/-- The query shows the rows that the condition keeps. -/
theorem selectDerived_star {now : Nat} {inner : QueryResult} {cols : List Str} {lines : List TextRow}
    (hInner : asTextRows inner = .ok (cols, lines)) (w : Option Expr) :
    selectDerived now inner [.wildcard "*"] w none none none =
      (filterRows now (derivedColumns cols) w (lines.map (List.map retype))).map fun kept =>
        .rows cols (kept.map (shownAgain cols)) := by
  have hOuts : projectionOutputs (derivedColumns cols) Column.name exprToString [.wildcard "*"] =
      (derivedColumns cols).map fun c => (c.name, .identifier (Ident.new c.name)) := rfl
  have hNames : ((derivedColumns cols).map fun c => (c.name, Expr.identifier (Ident.new c.name))).map
      Prod.fst = cols := by
    rw [derivedColumns, List.map_map, List.map_map]
    exact List.map_id _
  rw [selectDerived, hInner]
  show (do
    let kept ← filterRows now (derivedColumns cols) w (lines.map (List.map retype))
    let rows ← kept.mapM (evalOutputs now (derivedColumns cols)
      (projectionOutputs (derivedColumns cols) Column.name exprToString [.wildcard "*"]))
    return QueryResult.rows ((projectionOutputs (derivedColumns cols) Column.name exprToString
      [.wildcard "*"]).map Prod.fst) rows) = _
  rw [hOuts, hNames]
  cases filterRows now (derivedColumns cols) w (lines.map (List.map retype)) with
  | error fault => rfl
  | ok kept =>
    simp only [bind, Except.bind, mapM_shownAgain]
    rfl

theorem select_derivedQuery {env : QueryEnv} {dbName : Str} {q : Query} {answer : QueryResult}
    (hAnswer : select env dbName q = .ok answer) (rest : Str) (w : Option Expr) :
    select env dbName (derivedQuery q rest w) =
      selectDerived env.now answer [.wildcard "*"] w none none none := by
  rw [derivedQuery, select, selectBody, selectFrom, derivedSource, hAnswer]
  rfl

-- ---------------------------------------------------------------------------
-- The first of the columns of a name
-- ---------------------------------------------------------------------------

theorem columnPosition_derived (cols : List Str) (n : Str) :
    columnPosition (derivedColumns cols) n = cols.findIdx? fun m => eqIgnoreAsciiCase m n := by
  rw [columnPosition, derivedColumns, List.findIdx?_map]
  rfl

theorem eqIgnoreAsciiCase_iff {s t : Str} :
    eqIgnoreAsciiCase s t = true ↔ toAsciiLowercase s = toAsciiLowercase t := beq_iff_eq

theorem columnPosition_of_eq {cols : List Str} {n m : Str} (h : eqIgnoreAsciiCase n m = true) :
    columnPosition (derivedColumns cols) n = columnPosition (derivedColumns cols) m := by
  simp only [columnPosition, eqIgnoreAsciiCase, eqIgnoreAsciiCase_iff.1 h]

theorem exists_position {cols : List Str} {i : Nat} {n : Str} (hGet : cols[i]? = some n) :
    ∃ k m, columnPosition (derivedColumns cols) n = some k ∧ cols[k]? = some m ∧
      eqIgnoreAsciiCase m n = true := by
  have hSome : (cols.findIdx? fun m => eqIgnoreAsciiCase m n).isSome := by
    rw [List.findIdx?_isSome, List.any_eq_true]
    exact ⟨n, List.mem_of_getElem? hGet, eqIgnoreAsciiCase_iff.2 rfl⟩
  obtain ⟨k, hk⟩ := Option.isSome_iff_exists.1 hSome
  obtain ⟨hLt, hEq, -⟩ := List.findIdx?_eq_some_iff_getElem.1 hk
  exact ⟨k, cols[k], (columnPosition_derived cols n).trans hk, List.getElem?_eq_getElem hLt, hEq⟩

theorem shownAgain_get {cols : List Str} {texts : TextRow} {i k : Nat} {n : Str}
    (hGet : cols[i]? = some n) (hPos : columnPosition (derivedColumns cols) n = some k) :
    (shownAgain cols (texts.map retype))[i]? = some (texts[k]?.bind fun v => (retype v).toDisplay) := by
  rw [shownAgain, List.getElem?_map, derivedColumns, List.getElem?_map, hGet]
  refine congrArg some ((columnValue_of_position hPos _).trans ?_)
  rw [List.getElem?_map, Option.bind_map]
  rfl

theorem length_shownAgain (cols : List Str) (row : Row) : (shownAgain cols row).length = cols.length := by
  rw [shownAgain, List.length_map, derivedColumns, List.length_map]

/-- **Shown again.** A row is shown as it was exactly when it comes through. -/
theorem shownAgain_iff {cols : List Str} {texts : TextRow} :
    shownAgain cols (texts.map retype) = texts ↔ ComesThrough cols texts := by
  constructor
  · intro hSame
    have hCell : ∀ {i k : Nat} {n : Str}, cols[i]? = some n →
        columnPosition (derivedColumns cols) n = some k →
        texts[i]? = some (texts[k]?.bind fun v => (retype v).toDisplay) := by
      intro i k n hGet hPos
      rw [← shownAgain_get hGet hPos, hSame]
    have hWidth : texts.length = cols.length := by rw [← hSame, length_shownAgain]
    refine ⟨hWidth, fun s hs => ?_, fun i j n m hi hj hnm => ?_⟩
    · obtain ⟨i, hi⟩ := List.mem_iff_getElem?.1 hs
      obtain ⟨hLt, -⟩ := List.getElem?_eq_some_iff.1 hi
      have hName : cols[i]? = some cols[i] := List.getElem?_eq_getElem (hWidth ▸ hLt)
      obtain ⟨k, m, hPos, hm, hmn⟩ := exists_position hName
      -- the first column of the name is shown as itself, and so is this one
      have hFirst := hCell hm ((columnPosition_of_eq hmn).trans hPos)
      have hThis := hCell hName hPos
      rw [← hFirst, hi] at hThis
      rw [← hThis] at hFirst
      exact (comesBackAs_iff s s).1 (Option.some.inj hFirst).symm
    · obtain ⟨k, -, hPos, -, -⟩ := exists_position hi
      rw [hCell hi hPos, hCell hj ((columnPosition_of_eq hnm).symm.trans hPos)]
  · intro h
    refine List.ext_getElem? fun i => ?_
    cases hi : cols[i]? with
    | none =>
      have hLe : cols.length ≤ i := List.getElem?_eq_none_iff.1 hi
      rw [List.getElem?_eq_none (by rwa [length_shownAgain]),
        List.getElem?_eq_none (by rwa [h.width])]
    | some n =>
      obtain ⟨k, m, hPos, hm, hmn⟩ := exists_position hi
      rw [shownAgain_get hi hPos, h.sameName k i m n hm hi hmn]
      obtain ⟨hLt, -⟩ := List.getElem?_eq_some_iff.1 hi
      have hLine : i < texts.length := h.width.symm ▸ hLt
      rw [List.getElem?_eq_getElem hLine, Option.bind_some]
      cases hCell : texts[i] with
      | none => rfl
      | some s =>
        have hMem : some s ∈ texts := by
          rw [← hCell]
          exact List.getElem_mem _
        rw [(comesBackAs_iff s s).2 (h.itself s hMem)]

-- ---------------------------------------------------------------------------
-- The new table
-- ---------------------------------------------------------------------------

/-- The table `name` that CREATE TABLE AS makes. -/
def newTable (dbName : Str) (name : ObjectName) (q : Query) (cols : List Str)
    (lines : List TextRow) : Table :=
  tableAs dbName (asQuery name q) cols lines

section NewTable

variable (dbName : Str) (name : ObjectName) (q : Query) (cols : List Str) (lines : List TextRow)

theorem length_columns_newTable : (newTable dbName name q cols lines).columns.length = cols.length :=
  List.length_mapIdx

theorem pkColIdx_newTable : (newTable dbName name q cols lines).pkColIdx = none := by
  refine List.findIdx?_eq_none_iff.2 fun c hc => ?_
  obtain ⟨i, hi, rfl⟩ := List.mem_mapIdx.1 hc
  rfl

/-- The stores of the new table are empty: a scan finds no row. -/
theorem scan_newTable {w : Expr} {idxs : List Nat}
    (h : trySimdScan (newTable dbName name q cols lines) w = some idxs) : idxs = [] := by
  have hInts : ∀ (ci : Nat) store, (newTable dbName name q cols lines).colIntData[ci]? = some (some store) →
      store = [] := by
    intro ci store hStore
    have hStore : (newIntData (newTable dbName name q cols lines).columns)[ci]? = some (some store) :=
      hStore
    rw [newIntData, List.getElem?_map] at hStore
    obtain ⟨c, -, hc⟩ := Option.map_eq_some_iff.1 hStore
    split at hc
    · exact (Option.some.inj hc).symm
    · cases hc
  have hStrs : ∀ (ci : Nat) store, (newTable dbName name q cols lines).colStrData[ci]? = some (some store) →
      store = [] := by
    intro ci store hStore
    have hStore : (newStrData (newTable dbName name q cols lines).columns)[ci]? = some (some store) :=
      hStore
    rw [newStrData, List.getElem?_map] at hStore
    obtain ⟨c, -, hc⟩ := Option.map_eq_some_iff.1 hStore
    split at hc
    · exact (Option.some.inj hc).symm
    · cases hc
  cases w with
  | binaryOp left op right =>
    simp only [trySimdScan, Option.bind_eq_bind, Option.bind_eq_some_iff] at h
    obtain ⟨n, -, ci, -, h⟩ := h
    split at h
    · rename_i store hStore
      obtain rfl := hInts ci store hStore
      split at h
      · obtain ⟨target, -, h⟩ := Option.bind_eq_some_iff.1 h
        split at h <;> cases h <;> rfl
      · cases h
    · split at h
      · rename_i store s hStore
        obtain rfl := hStrs ci store hStore
        cases h
        rfl
      · cases h
  | _ => cases h

end NewTable

-- ---------------------------------------------------------------------------
-- Reading by type
-- ---------------------------------------------------------------------------

section Typed

variable (t : Table)

theorem length_typedRow (texts : TextRow) : (typedRow t texts).length = texts.length := List.length_mapIdx

/-- A column reads integers, or floats if it is one of floats, or texts. -/
theorem readAs_kinds (c : Option Column) :
    ((∀ s, readAs c (some s) = (parseI64 s).elim (.text s) .int) ∨
      ∀ s, readAs c (some s) = .text s) ∧ (∀ col, c = some col → col.colType ≠ .float) ∨
    (∃ col, c = some col ∧ col.colType = .float) ∧
      ∀ s, readAs c (some s) = (f64Parse s).elim (.text s) .float := by
  cases c with
  | none => exact .inl ⟨.inr fun s => rfl, nofun⟩
  | some col =>
    obtain ⟨name, colType, nullable, primaryKey⟩ := col
    cases colType with
    | int | bigInt =>
      refine .inl ⟨.inl fun s => rfl, ?_⟩
      rintro _ ⟨⟩
      nofun
    | float => exact .inr ⟨⟨_, rfl, rfl⟩, fun s => rfl⟩
    | _ =>
      refine .inl ⟨.inr fun s => rfl, ?_⟩
      rintro _ ⟨⟩
      nofun

/-- What was read by a type and displayed is read the same again. -/
theorem readAs_display (hRound : PrintsFloats) (c : Option Column) (v : Option Str) :
    readAs c (readAs c v).toDisplay = readAs c v := by
  cases v with
  | none => rfl
  | some s =>
    obtain ⟨hInts | hTexts, -⟩ | ⟨-, hFloats⟩ := readAs_kinds c
    · rw [hInts]
      cases hParse : parseI64 s with
      | none => exact (hInts s).trans (by rw [hParse])
      | some n => exact (hInts _).trans (by rw [parseI64_i64ToString]; rfl)
    · rw [hTexts]
      exact hTexts s
    · rw [hFloats]
      cases hParse : f64Parse s with
      | none => exact (hFloats s).trans (by rw [hParse])
      | some f => exact (hFloats _).trans (by rw [hRound s f hParse]; rfl)

/-- A cell that comes back is displayed as it is, but for a number in a float
column. -/
theorem readAs_shows {c : Option Column} {v : Option Str} (hItself : ∀ s, v = some s → ComesBackAs s s) :
    (readAs c v).toDisplay = v ↔
      ∀ col s f, c = some col → col.colType = .float → v = some s → f64Parse s = some f →
        f64ToString f = s := by
  cases v with
  | none => exact iff_of_true rfl (by nofun)
  | some s =>
    obtain ⟨hOther, hNotFloat⟩ | ⟨⟨col, rfl, hFloat⟩, hFloats⟩ := readAs_kinds c
    · refine iff_of_true ?_ fun col s f hCol hFloat => absurd hFloat (hNotFloat col hCol)
      obtain hInts | hTexts := hOther
      · have hBack := hItself s rfl
        rw [ComesBackAs] at hBack
        rw [hInts]
        cases hParse : parseI64 s with
        | none => rfl
        | some n =>
          rw [hParse] at hBack
          exact congrArg some hBack
      · rw [hTexts]
        rfl
    · rw [hFloats]
      cases hParse : f64Parse s with
      | none =>
        refine iff_of_true rfl fun col' s' f _ _ hs hf => ?_
        rw [← Option.some.inj hs, hParse] at hf
        cases hf
      | some f =>
        constructor
        · rintro hShown col' s' f' - - hs hf
          obtain rfl := Option.some.inj hs
          obtain rfl := Option.some.inj (hParse.symm.trans hf)
          exact Option.some.inj hShown
        · intro h
          exact congrArg some (h col s f rfl hFloat rfl hParse)

theorem typedRow_display (hRound : PrintsFloats) (texts : TextRow) :
    typedRow t (displayRow (typedRow t texts)) = typedRow t texts := by
  refine List.ext_getElem? fun i => ?_
  rw [typedRow, displayRow, List.getElem?_mapIdx, List.getElem?_map, typedRow, List.getElem?_mapIdx,
    Option.map_map, Option.map_map]
  exact Option.map_congr fun v _ => readAs_display hRound _ v

/-- A row whose cells come back is displayed as it is, but for the numbers in
float columns. -/
theorem typedRow_shows {texts : TextRow} (hItself : ∀ s, some s ∈ texts → ComesBackAs s s) :
    displayRow (typedRow t texts) = texts ↔ ∀ (ci : Nat) (c : Column) (s : Str) (f : F64),
      t.columns[ci]? = some c → c.colType = .float → texts[ci]? = some (some s) →
      f64Parse s = some f → f64ToString f = s := by
  have hCells : displayRow (typedRow t texts) = texts ↔
      ∀ (ci : Nat) (v : Option Str), texts[ci]? = some v → (readAs t.columns[ci]? v).toDisplay = v := by
    rw [List.ext_getElem?_iff]
    refine forall_congr' fun ci => ?_
    rw [displayRow, List.getElem?_map, typedRow, List.getElem?_mapIdx, Option.map_map]
    cases texts[ci]? with
    | none => exact iff_of_true rfl fun v hv => by cases hv
    | some v => simp
  rw [hCells]
  constructor
  · intro h ci c s f hCol hFloat hLine
    refine (readAs_shows ?_).1 (h ci _ hLine) c s f hCol hFloat rfl
    rintro _ ⟨⟩
    exact hItself s (List.mem_of_getElem? hLine)
  · intro h ci v hLine
    refine (readAs_shows ?_).2 ?_
    · rintro s rfl
      exact hItself s (List.mem_of_getElem? hLine)
    · rintro col s f hCol hFloat rfl
      exact h ci col s f hCol hFloat hLine

end Typed

-- ---------------------------------------------------------------------------
-- The new table asked
-- ---------------------------------------------------------------------------

/-- What `SELECT *` keeps of the new table. -/
def keptTyped (now : Nat) (t : Table) (w : Expr) (texts : TextRow) : Bool :=
  (trySimdScan t w).isNone && holds now t.columns w (typedRow t texts)

theorem shownRows_star {t : Table} {rows : List Row} (hWidth : ∀ row ∈ rows, row.length = t.columns.length) :
    (plainResult t.columns none [.wildcard "*"] none none none rows).shownRows =
      rows.map displayRow := by
  have hProj : projCols t.columns [.wildcard "*"] = t.columns.zipIdx.map fun p => (p.1.name, p.2) := rfl
  show (rows.map fun row => (projCols t.columns [.wildcard "*"]).map fun p =>
    row[p.2]?.getD .null).map displayRow = _
  rw [hProj]
  refine congrArg (List.map displayRow) ((List.map_congr_left fun row hRow => ?_).trans (List.map_id rows))
  refine List.ext_getElem? fun i => ?_
  rw [List.getElem?_map, List.getElem?_map, List.getElem?_zipIdx, Option.map_map, Option.map_map, id]
  rcases Nat.lt_or_ge i t.columns.length with hLt | hGe
  · have hThere : i < row.length := (hWidth row hRow).symm ▸ hLt
    rw [List.getElem?_eq_getElem hLt, List.getElem?_eq_getElem hThere]
    show some (row[0 + i]?.getD .null) = _
    rw [Nat.zero_add, List.getElem?_eq_getElem hThere, Option.getD_some]
  · rw [List.getElem?_eq_none hGe, List.getElem?_eq_none ((hWidth row hRow).symm ▸ hGe)]
    rfl

/-- The rows that a condition keeps of the new table. -/
theorem selectedRows_newTable {now : Nat} {dbName : Str} {name : ObjectName} {q : Query}
    {cols : List Str} {lines : List TextRow} {w : Expr} {rows : List Row}
    (h : selectedRows now (newTable dbName name q cols lines) (some w) = .ok rows) :
    rows = (lines.filter (keptTyped now (newTable dbName name q cols lines) w)).map
      (typedRow (newTable dbName name q cols lines)) := by
  generalize hTable : newTable dbName name q cols lines = t at h
  rw [selectedRows, Option.bind_some] at h
  cases hScan : trySimdScan t w with
  | some idxs =>
    have hNone : idxs = [] := by
      rw [← hTable] at hScan
      exact scan_newTable dbName name q cols lines hScan
    have hFilter : lines.filter (keptTyped now t w) = [] :=
      List.filter_eq_nil_iff.2 fun texts _ => by simp [keptTyped, hScan]
    rw [hScan] at h
    obtain rfl := Except.ok.inj h
    rw [hFilter, hNone]
    rfl
  | none =>
    have hRows : t.rows = lines.map (typedRow t) := by
      rw [← hTable]
      rfl
    have hFilter : keptTyped now t w = fun texts => holds now t.columns w (typedRow t texts) :=
      funext fun texts => by rw [keptTyped, hScan]; rfl
    rw [hScan] at h
    rw [filter_of_filterRows h, hRows, List.filter_map, hFilter]
    rfl

/-- **The new table asked.** -/
theorem shownRows_newTable {env : QueryEnv} {dbName db table : Str} {name : ObjectName} {q : Query}
    {cols : List Str} {lines : List TextRow} {w w' : Expr} {r : QueryResult}
    (hTarget : resolveName dbName (ObjectName.toString name) = (db, table))
    (hTable : findTable env.databases db table [] [] = .ok (newTable dbName name q cols lines))
    (hWidth : ∀ texts ∈ lines, texts.length = cols.length)
    (hResolve : resolveInSubqueries env db w = .ok w')
    (h : select env dbName (tableQuery name none [.wildcard "*"] (some w) (.expressions []) none none
      none none) = .ok r) :
    r.shownRows = (lines.filter (keptTyped env.now (newTable dbName name q cols lines) w')).map
      fun texts => displayRow (typedRow (newTable dbName name q cols lines) texts) := by
  generalize hNew : newTable dbName name q cols lines = t at hTable
  have hLookup : lookupOf t (some w') = .ok none := by
    rw [lookupOf, lookupKey, ← hNew, pkColIdx_newTable]
  rw [select_tableQuery hTarget hTable, resolveSelection, hResolve] at h
  have hRun : selectTable env.now t none [.wildcard "*"] (some w') (.expressions []) none none none
      none = .ok r := h
  rw [selectTable_plain _ _ _ _ _ _ rfl rfl rfl, selectPlain_eq, hLookup] at hRun
  have hPlain : (selectedRows env.now t (some w')).map
      (plainResult t.columns none [.wildcard "*"] none none none) = .ok r := hRun
  cases hRows : selectedRows env.now t (some w') with
  | error fault =>
    rw [hRows] at hPlain
    cases hPlain
  | ok rows =>
    rw [hRows] at hPlain
    obtain rfl := Except.ok.inj hPlain
    rw [← hNew] at hRows
    have hKept := selectedRows_newTable hRows
    rw [hNew] at hKept
    have hFull : ∀ row ∈ rows, row.length = t.columns.length := by
      intro row hRow
      rw [hKept] at hRow
      obtain ⟨texts, hLine, rfl⟩ := List.mem_map.1 hRow
      rw [length_typedRow, hWidth texts (List.mem_filter.1 hLine).1, ← hNew, length_columns_newTable]
    rw [shownRows_star hFull, hKept, List.map_map]
    rfl

/-- CREATE TABLE AS puts the new table in its place. -/
theorem findTable_createTableAs {e e' : Engine} {now : Nat} {dbName db table : Str}
    {name : ObjectName} {q : Query} {answer : QueryResult} {cols : List Str} {lines : List TextRow}
    (hMade : createTarget dbName name = (db, table))
    (hAnswer : select (e.env now) dbName q = .ok answer)
    (hRows : asTextRows answer = .ok (cols, lines))
    (hCreate : (createTableAs now dbName (asQuery name q) q).exec e = (.ok (.ok 0 0), e')) :
    findTable e'.databases db table [] [] = .ok (newTable dbName name q cols lines) := by
  have hQuery : (runQuery now dbName q).exec e = (.ok answer, e) :=
    congrArg (fun r => (r, e)) hAnswer
  have hName : (newTable dbName name q cols lines).name = table := by
    show (createTarget dbName name).2 = table
    rw [hMade]
  have hDb : (createTarget dbName (asQuery name q).name).1 = db := congrArg Prod.fst hMade
  rw [createTableAs, Prog.exec_bind_ok hQuery] at hCreate
  simp only [hRows] at hCreate
  rw [hDb, putNewTable, Prog.exec_get_bind] at hCreate
  cases hThere : HashMap.get e.databases db with
  | none =>
    rw [hThere] at hCreate
    cases hCreate
  | some d =>
    rw [hThere] at hCreate
    have hEngine : (e.modifyTables db fun tables =>
        tables.insert (newTable dbName name q cols lines).name (newTable dbName name q cols lines)).databases =
        e'.databases := congrArg (fun r => r.2.databases) hCreate
    rw [← hEngine]
    simp only [findTable, Engine.modifyTables, HashMap.get_modify, if_true, hThere, Option.map_some,
      HashMap.get_insert, hName]

-- ---------------------------------------------------------------------------
-- Both
-- ---------------------------------------------------------------------------

theorem askedAlike_iff {now : Nat} {t : Table} {w' : Expr} {cols : List Str} {w : Expr}
    {texts : TextRow} (hItself : ∀ s, some s ∈ texts → ComesBackAs s s) :
    (keptTyped now t w' texts = holds now (derivedColumns cols) w (texts.map retype) ∧
      (keptTyped now t w' texts = true → displayRow (typedRow t texts) = texts)) ↔
    AskedAlike now t w' cols w texts := by
  rw [typedRow_shows t hItself]
  constructor
  · rintro ⟨hSame, hShown⟩
    refine ⟨fun hHolds => ?_, fun hScan => ?_, fun hHolds => hShown (hSame.trans hHolds)⟩
    · rw [← hSame, keptTyped, Bool.and_eq_true] at hHolds
      exact Option.isNone_iff_eq_none.1 hHolds.1
    · rw [← hSame, keptTyped, hScan]
      rfl
  · intro h
    have hSame : keptTyped now t w' texts = holds now (derivedColumns cols) w (texts.map retype) := by
      cases hScan : trySimdScan t w' with
      | none =>
        rw [← h.alike hScan, keptTyped, hScan]
        rfl
      | some idxs =>
        rw [keptTyped, hScan]
        cases hHolds : holds now (derivedColumns cols) w (texts.map retype) with
        | false => rfl
        | true =>
          rw [h.unscanned hHolds] at hScan
          cases hScan
    exact ⟨hSame, fun hKept => h.floats (hSame.symm.trans hKept)⟩

/-- The rows of a derived table a condition keeps. -/
theorem shownRows_derived {now : Nat} {inner r : QueryResult} {cols : List Str} {lines : List TextRow}
    (hInner : asTextRows inner = .ok (cols, lines)) {w : Expr}
    (hThrough : ∀ texts ∈ lines, ComesThrough cols texts)
    (h : selectDerived now inner [.wildcard "*"] (some w) none none none = .ok r) :
    r.shownRows = lines.filter fun texts => holds now (derivedColumns cols) w (texts.map retype) := by
  rw [selectDerived_star hInner] at h
  cases hKept : filterRows now (derivedColumns cols) (some w) (lines.map (List.map retype)) with
  | error fault =>
    rw [hKept] at h
    cases h
  | ok kept =>
    rw [hKept] at h
    obtain rfl := Except.ok.inj h
    rw [filter_of_filterRows hKept, List.filter_map]
    show ((lines.filter fun texts => holds now (derivedColumns cols) w (texts.map retype)).map
      (List.map retype)).map (shownAgain cols) = _
    rw [List.map_map]
    refine (List.map_congr_left fun texts hLine => ?_).trans (List.map_id _)
    exact shownAgain_iff.2 (hThrough texts (List.mem_filter.1 hLine).1)

theorem eq_of_asTextRows_error {r other : QueryResult} (h : asTextRows r = .error other) : other = r := by
  cases r with
  | rows | valueRows => cases h
  | _ => exact (Except.error.inj h).symm

/-- **A query as a table.** Selected from as a derived table, a query shows what
it shows itself exactly when its rows come through; and the table made of it
shows under a condition what the derived table shows exactly when moreover the
rows are asked alike. -/
theorem derivedTables_iff (hRound : PrintsFloats) {e : Engine} {now : Nat} {dbName db table : Str}
    {name : ObjectName} {q : Query} {answer : QueryResult}
    (hTarget : resolveName dbName (ObjectName.toString name) = (db, table))
    (hMade : createTarget dbName name = (db, table))
    (hAnswer : select (e.env now) dbName q = .ok answer) (rest : Str) :
    ∃ whole, select (e.env now) dbName (derivedQuery q rest none) = .ok whole ∧
      (asTextRows whole = asTextRows answer ↔
        ∀ cols lines, asTextRows answer = .ok (cols, lines) → ∀ texts ∈ lines, ComesThrough cols texts) ∧
      ∀ cols lines e' w w' fromTable fromDerived, asTextRows answer = .ok (cols, lines) →
        (createTableAs now dbName (asQuery name q) q).exec e = (.ok (.ok 0 0), e') →
        resolveInSubqueries (e'.env now) db w = .ok w' →
        select (e'.env now) dbName (tableQuery name none [.wildcard "*"] (some w) (.expressions []) none
          none none none) = .ok fromTable →
        select (e.env now) dbName (derivedQuery q rest (some w)) = .ok fromDerived →
        (asTextRows whole = asTextRows answer ∧ fromTable.shownRows = fromDerived.shownRows ↔
          ∀ texts ∈ lines, ComesThrough cols texts ∧
            AskedAlike now (newTable dbName name q cols lines) w' cols w texts) := by
  rw [select_derivedQuery hAnswer]
  cases hRows : asTextRows answer with
  | error other =>
    obtain rfl := eq_of_asTextRows_error hRows
    refine ⟨other, ?_, iff_of_true hRows nofun, nofun⟩
    rw [selectDerived, hRows]
    rfl
  | ok shown =>
    obtain ⟨cols, lines⟩ := shown
    have hSame : asTextRows (.rows cols ((lines.map (List.map retype)).map (shownAgain cols))) =
        .ok (cols, lines) ↔ ∀ texts ∈ lines, ComesThrough cols texts := by
      rw [asTextRows, Except.ok.injEq, Prod.mk.injEq, eq_self_iff_true, true_and, List.map_map]
      constructor
      · intro hMap texts hLine
        exact shownAgain_iff.1 (List.map_inj_left.1 (hMap.trans (List.map_id lines).symm) texts hLine)
      · intro hAll
        exact (List.map_congr_left fun texts hLine => shownAgain_iff.2 (hAll texts hLine)).trans
          (List.map_id lines)
    refine ⟨_, selectDerived_star hRows none, ?_, ?_⟩
    · rw [hSame]
      constructor
      · rintro hAll cols' lines' ⟨⟩
        exact hAll
      · intro hAll
        exact hAll cols lines rfl
    · rintro cols' lines' e' w w' fromTable fromDerived ⟨⟩ hCreate hResolve hTable hDerived
      have hAlike : (∀ texts ∈ lines, ComesThrough cols texts) →
          (fromTable.shownRows = fromDerived.shownRows ↔
            ∀ texts ∈ lines, AskedAlike now (newTable dbName name q cols lines) w' cols w texts) := by
        intro hThrough
        have hFound := findTable_createTableAs hMade hAnswer hRows hCreate
        rw [select_derivedQuery hAnswer] at hDerived
        rw [shownRows_newTable hTarget hFound (fun texts hLine => (hThrough texts hLine).width) hResolve
          hTable, shownRows_derived hRows hThrough hDerived,
          map_filter_eq_filter_iff (f := fun texts => displayRow (typedRow _ texts))
            (fun texts => congrArg displayRow (typedRow_display _ hRound texts))
            (fun texts => by rw [keptTyped, keptTyped, typedRow_display _ hRound])]
        exact forall₂_congr fun texts hLine => askedAlike_iff (hThrough texts hLine).itself
      rw [hSame]
      constructor
      · rintro ⟨hThrough, hEq⟩ texts hLine
        exact ⟨hThrough texts hLine, (hAlike hThrough).1 hEq texts hLine⟩
      · intro hAll
        have hThrough : ∀ texts ∈ lines, ComesThrough cols texts := fun texts hLine => (hAll texts hLine).1
        exact ⟨hThrough, (hAlike hThrough).2 fun texts hLine => (hAll texts hLine).2⟩

end DerivedTables

-- ---------------------------------------------------------------------------
-- One row
-- ---------------------------------------------------------------------------

section OneRow

local instance derivedPlatform : Platform := tablePlatform []

/-- `SELECT a FROM t`. -/
def plainA : Query :=
  tableQuery nameT none [.unnamedExpr (.identifier ⟨"a", none⟩)] none (.expressions []) none none none
    none

def nameU : ObjectName := [⟨"u", none⟩]

/-- After `CREATE TABLE u AS SELECT a FROM t`, t holding 1. -/
def withU : Engine :=
  ((createTableAs 0 "test" (asQuery nameU plainA) plainA).exec (oneTable [[.int 1]])).2

theorem printsFloats_derived : PrintsFloats := by
  intro s f h
  cases h

/-- `0 < a`. -/
def positiveA : Expr := .binaryOp (.value (.number "0" false)) .lt (.identifier ⟨"a", none⟩)

theorem comesThrough_one : ComesThrough ["a"] [some "1"] := by
  refine ⟨rfl, ?_, ?_⟩
  · intro s hs
    obtain rfl := Option.some.inj (List.mem_singleton.1 hs)
    exact (comesBackAs_of_int (n := 1) (by decide +kernel)).2 (by decide +kernel)
  · intro i j n m hi hj _
    obtain ⟨hLi, -⟩ := List.getElem?_eq_some_iff.1 hi
    obtain ⟨hLj, -⟩ := List.getElem?_eq_some_iff.1 hj
    obtain rfl := Nat.lt_one_iff.1 hLi
    obtain rfl := Nat.lt_one_iff.1 hLj
    rfl

theorem askedAlike_positive : AskedAlike 0 (newTable "test" nameU plainA ["a"] [[some "1"]]) positiveA
    ["a"] positiveA [some "1"] := by
  refine ⟨fun _ => by decide +kernel, fun _ => by decide +kernel, fun _ ci c s f hCol hFloat _ _ => ?_⟩
  obtain ⟨hLt, hGet⟩ := List.getElem?_eq_some_iff.1 hCol
  obtain rfl := Nat.lt_one_iff.1 hLt
  rw [← hGet] at hFloat
  cases hFloat

/-- `SELECT * FROM u WHERE w` and `SELECT * FROM (SELECT a FROM t) AS d WHERE w`. -/
def fromU (w : Expr) : Rust QueryResult :=
  select (withU.env 0) "test"
    (tableQuery nameU none [.wildcard "*"] (some w) (.expressions []) none none none none)

def fromD (w : Option Expr) : Rust QueryResult :=
  select ((oneTable [[.int 1]]).env 0) "test" (derivedQuery plainA " AS d" w)

theorem targetU : resolveName "test" (ObjectName.toString nameU) = (("test" : Str), ("u" : Str)) := by
  decide +kernel

theorem madeU : createTarget "test" nameU = (("test" : Str), ("u" : Str)) := by
  decide +kernel

theorem select_plainA : select ((oneTable [[.int 1]]).env 0) "test" plainA =
    .ok (.valueRows ["a"] [[.int 1]]) := by
  decide +kernel

/-- Where `0 < a`, both show the row. -/
theorem derivedTables_iff_positive : ∃ whole, fromD none = .ok whole ∧
    ∀ fromTable fromDerived, fromU positiveA = .ok fromTable → fromD (some positiveA) = .ok fromDerived →
      asTextRows whole = .ok (["a"], [[some "1"]]) ∧ fromTable.shownRows = fromDerived.shownRows := by
  obtain ⟨whole, hWhole, -, hTable⟩ := derivedTables_iff printsFloats_derived targetU madeU
    select_plainA " AS d"
  refine ⟨whole, hWhole, fun fromTable fromDerived hFromU hFromD => ?_⟩
  refine (hTable ["a"] [[some "1"]] withU positiveA positiveA fromTable fromDerived rfl (by rfl) rfl
    hFromU hFromD).2 fun texts hLine => ?_
  obtain rfl := List.mem_singleton.1 hLine
  exact ⟨comesThrough_one, askedAlike_positive⟩

/-- `a = 1`. -/
def equalsOneA : Expr := .binaryOp (.identifier ⟨"a", none⟩) .eq (.value (.number "1" false))

/-- Where `a = 1`, the new table shows nothing. -/
theorem not_derivedTables : ¬ ∀ (e : Engine) (now : Nat) (dbName db table : Str) (name : ObjectName)
    (q : Query) (answer : QueryResult) (rest : Str) (cols : List Str) (lines : List TextRow)
    (e' : Engine) (w w' : Expr) (whole fromTable fromDerived : QueryResult),
    resolveName dbName (ObjectName.toString name) = (db, table) →
    createTarget dbName name = (db, table) →
    select (e.env now) dbName q = .ok answer →
    select (e.env now) dbName (derivedQuery q rest none) = .ok whole →
    asTextRows answer = .ok (cols, lines) →
    (createTableAs now dbName (asQuery name q) q).exec e = (.ok (.ok 0 0), e') →
    resolveInSubqueries (e'.env now) db w = .ok w' →
    select (e'.env now) dbName (tableQuery name none [.wildcard "*"] (some w) (.expressions []) none
      none none none) = .ok fromTable →
    select (e.env now) dbName (derivedQuery q rest (some w)) = .ok fromDerived →
    asTextRows whole = asTextRows answer ∧ fromTable.shownRows = fromDerived.shownRows := by
  intro hAll
  have hWhole : fromD none = .ok (.rows ["a"] [[some "1"]]) := by decide +kernel
  have hFromU : fromU equalsOneA = .ok (.valueRows ["a"] []) := by decide +kernel
  have hFromD : fromD (some equalsOneA) = .ok (.rows ["a"] [[some "1"]]) := by decide +kernel
  obtain ⟨-, hSame⟩ := hAll (oneTable [[.int 1]]) 0 "test" "test" "u" nameU plainA _ " AS d" ["a"]
    [[some "1"]] withU equalsOneA equalsOneA _ _ _ targetU madeU select_plainA hWhole rfl (by rfl) rfl
    hFromU hFromD
  revert hSame
  decide

end OneRow

end RunAlexDb
