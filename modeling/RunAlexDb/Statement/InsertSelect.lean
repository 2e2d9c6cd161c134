import RunAlexDb.Model.Concrete
import RunAlexDb.Statement.StringParams

/-!
# InsertSelect — INSERT INTO t (c1, ..., cn) SELECT ...

The texts of the selected rows are read back as values by the column types of the
table, value `i` by the type of the table's column `i`; only then the column list
says which column takes it. A value comes to its column as it was selected exactly
when the two columns are read the same way.

Main result: `insertSelect_iff`.
-/

namespace RunAlexDb

open Text Platform

-- ---------------------------------------------------------------------------
-- Values and types
-- ---------------------------------------------------------------------------

/-- The value has the type: integers, texts, and NULL of any. -/
def Value.HasType : Value → ColumnType → Prop
  | .null, _ => True
  | .int _, .int => True
  | .int _, .bigInt => True
  | .text _, .varChar _ => True
  | .text _, .text => True
  | _, _ => False

/-- What a text is read as. -/
inductive Reading
  | int
  | float
  | text
deriving DecidableEq

/-- The reading for a place of the table, `text` behind its last column. -/
def readingOf : Option ColumnType → Reading
  | some .int => .int
  | some .bigInt => .int
  | some .float => .float
  | _ => .text

section Coercion

variable [Platform]

/-- A displayed value of a type comes back exactly when it is read as that type. -/
theorem coerceTo_iff {v : Value} {colType : ColumnType} (h : v.HasType colType)
    (place : Option ColumnType) :
    coerceTo place v.toDisplay = v ↔ v = .null ∨ readingOf place = readingOf (some colType) := by
  cases v with
  | null => exact iff_of_true rfl (.inl rfl)
  | float f => exact absurd h (by cases colType <;> exact id)
  | bytes b => exact absurd h (by cases colType <;> exact id)
  | int n =>
    have hInt : readingOf (some colType) = .int := by
      cases colType <;> first | rfl | exact absurd h id
    have hParse : Value.int ((parseI64 (i64ToString n)).getD 0) = .int n := by
      rw [parseI64_i64ToString]
      rfl
    rw [hInt]
    rcases place with _ | (_ | _ | _ | _ | _ | _ | _)
    · exact iff_of_false nofun (by rintro (hNull | hRead) <;> contradiction)
    · exact iff_of_true hParse (.inr rfl)
    · exact iff_of_true hParse (.inr rfl)
    all_goals exact iff_of_false nofun (by rintro (hNull | hRead) <;> contradiction)
  | text s =>
    have hText : readingOf (some colType) = .text := by
      cases colType <;> first | rfl | exact absurd h id
    rw [hText]
    rcases place with _ | (_ | _ | _ | _ | _ | _ | _)
    · exact iff_of_true rfl (.inr rfl)
    · exact iff_of_false nofun (by rintro (hNull | hRead) <;> contradiction)
    · exact iff_of_false nofun (by rintro (hNull | hRead) <;> contradiction)
    · exact iff_of_false nofun (by rintro (hNull | hRead) <;> contradiction)
    all_goals exact iff_of_true rfl (.inr rfl)

end Coercion

-- ---------------------------------------------------------------------------
-- The column list
-- ---------------------------------------------------------------------------

/-- Value `i` of the selected row is for the column `c` in place `j` of the table. -/
structure GoesTo (names : List Str) (cols : List Column) (i j : Nat) (c : Column) : Prop where
  named : ∃ n, names[i]? = some n ∧ eqIgnoreAsciiCase n c.name = true
  column : cols[j]? = some c

/-- The new row has the selected values in their columns, as far as they have the
columns' types. -/
def Holds (names : List Str) (cols : List Column) (selected row : Row) : Prop :=
  ∀ i j c v, GoesTo names cols i j c → selected[i]? = some v → v.HasType c.colType → row[j]? = some v

/-- Each selected value that has the type of its column is NULL or stands in a place
whose column is read as its own column is. -/
def ReadAlike (names : List Str) (cols : List Column) (selected : Row) : Prop :=
  ∀ i j c v, GoesTo names cols i j c → selected[i]? = some v → v.HasType c.colType →
    v = .null ∨ readingOf (cols[i]?.map Column.colType) = readingOf (some c.colType)

/-- No column is named twice. -/
def DistinctNames (names : List Str) : Prop :=
  names.Pairwise fun n m => eqIgnoreAsciiCase n m = false

instance (names : List Str) : Decidable (DistinctNames names) :=
  inferInstanceAs (Decidable (List.Pairwise _ _))

theorem findIdx?_named {names : List Str} {cols : List Column} {i j : Nat} {c : Column}
    (hDistinct : DistinctNames names) (h : GoesTo names cols i j c) :
    (names.findIdx? fun n => eqIgnoreAsciiCase n c.name) = some i := by
  obtain ⟨n, hAt, hName⟩ := h.named
  obtain ⟨hLt, hGet⟩ := List.getElem?_eq_some_iff.1 hAt
  rw [List.findIdx?_eq_some_iff_getElem]
  refine ⟨hLt, by rw [hGet]; exact hName, fun k hk => ?_⟩
  -- an earlier name of the column would be the same name
  intro hEarlier
  have hOther := (List.pairwise_iff_getElem.1 hDistinct) k i (hk.trans hLt) hLt hk
  rw [hGet] at hOther
  have hSame : eqIgnoreAsciiCase names[k] n = true := by
    unfold eqIgnoreAsciiCase at hEarlier hName ⊢
    rw [beq_iff_eq] at hEarlier hName ⊢
    rw [hEarlier, hName]
  rw [hSame] at hOther
  exact Bool.noConfusion hOther

/-- The cell of a column that is named. -/
theorem getElem?_mapRow {names : List Str} {src : Row} {i j : Nat} {c : Column} {cols : List Column}
    (hAt : cols[j]? = some c) (hNamed : (names.findIdx? fun n => eqIgnoreAsciiCase n c.name) = some i)
    (auto : Int64) : (mapRow names src cols auto).1[j]? = some (src.getD i .null) := by
  induction cols generalizing j auto with
  | nil => exact nomatch hAt
  | cons d cols ih =>
    rw [mapRow]
    cases j with
    | zero =>
      obtain rfl : d = c := Option.some.inj hAt
      rw [hNamed]
      rfl
    | succ j =>
      have hRest : ∀ auto, (mapRow names src cols auto).1[j]? = some (src.getD i .null) := ih hAt
      split
      · exact hRest auto
      · split_ifs
        · exact hRest (auto + 1)
        · exact hRest auto

/-- Rows laid out by a column list are made one by one. -/
theorem forall₂_layOut {names : List Str} (hNames : names ≠ []) {cols : List Column}
    (hCols : cols ≠ []) (pk : Option Nat) (auto : Int64) (srcs : List Row) :
    List.Forall₂ (fun src row => ∃ auto, row = (mapRow names src cols auto).1) srcs
      (layOut names cols pk auto srcs).1 := by
  have hListed : (names.isEmpty || cols.isEmpty) = false := by simp [hNames, hCols]
  induction srcs generalizing auto with
  | nil => exact .nil
  | cons src srcs ih =>
    rw [layOut, hListed]
    exact .cons ⟨auto, rfl⟩ (ih _)

section Rows

variable [Platform]

/-- The source row of a selected row, for a table with the columns. -/
def readBack (cols : List Column) (selected : Row) : Row :=
  (displayRow selected).mapIdx fun i v => coerceTo (cols.map Column.colType)[i]? v

theorem getD_readBack {cols : List Column} {selected : Row} {i : Nat} {v : Value}
    (h : selected[i]? = some v) :
    (readBack cols selected).getD i .null = coerceTo (cols[i]?.map Column.colType) v.toDisplay := by
  unfold readBack displayRow
  rw [List.getD_eq_getElem?_getD, List.getElem?_mapIdx, List.getElem?_map, List.getElem?_map, h]
  rfl

/-- One row: the selected values arrive exactly when they are read alike. -/
theorem holds_iff {names : List Str} (hDistinct : DistinctNames names) (cols : List Column)
    (selected : Row) (auto : Int64) :
    Holds names cols selected (mapRow names (readBack cols selected) cols auto).1 ↔
      ReadAlike names cols selected := by
  refine forall_congr' fun i => forall_congr' fun j => forall_congr' fun c => forall_congr' fun v =>
    forall_congr' fun hGoes => forall_congr' fun hAt => forall_congr' fun hType => ?_
  rw [getElem?_mapRow hGoes.column (findIdx?_named hDistinct hGoes), getD_readBack hAt,
    Option.some.injEq]
  exact coerceTo_iff hType _

omit [Platform] in
theorem not_goesTo_nil {names : List Str} {i j : Nat} {c : Column} : ¬GoesTo names [] i j c :=
  fun h => nomatch h.column

omit [Platform] in
/-- Without columns nothing is asked of a row. -/
theorem holds_nil (names : List Str) (selected row : Row) :
    Holds names [] selected row ∧ ReadAlike names [] selected :=
  ⟨fun _ _ _ _ hGoes => absurd hGoes not_goesTo_nil, fun _ _ _ _ hGoes => absurd hGoes not_goesTo_nil⟩

theorem forall₂_holds_iff {names : List Str} (hNames : names ≠ []) (hDistinct : DistinctNames names)
    (cols : List Column) (pk : Option Nat) (auto : Int64) (selected : List Row) :
    List.Forall₂ (Holds names cols) selected
        (layOut names cols pk auto (selected.map (readBack cols))).1 ↔
      ∀ row ∈ selected, ReadAlike names cols row := by
  rcases eq_or_ne cols [] with rfl | hCols
  · refine iff_of_true ?_ fun row _ => (holds_nil names row []).2
    have hLength : ∀ (auto : Int64) (rows : List Row),
        List.Forall₂ (Holds names []) rows
          (layOut names [] pk auto (rows.map (readBack []))).1 := by
      intro auto rows
      induction rows generalizing auto with
      | nil => exact .nil
      | cons row rows ih => exact .cons (holds_nil names row _).1 (ih _)
    exact hLength auto selected
  · have hMade := forall₂_layOut hNames hCols pk auto (selected.map (readBack cols))
    generalize (layOut names cols pk auto (selected.map (readBack cols))).1 = rows at hMade
    induction selected generalizing rows with
    | nil =>
      obtain rfl := List.forall₂_nil_left_iff.1 hMade
      exact iff_of_true .nil fun _ hIn => nomatch hIn
    | cons row selected ih =>
      obtain ⟨made, rest, ⟨auto', hRow⟩, hRest, rfl⟩ := List.forall₂_cons_left_iff.1 hMade
      rw [List.forall₂_cons, hRow, holds_iff hDistinct, List.forall_mem_cons]
      exact and_congr_right fun _ => ih rest hRest

end Rows

-- ---------------------------------------------------------------------------
-- The statement
-- ---------------------------------------------------------------------------

section Results

variable [Platform]

/-- The INSERT succeeds and the table ends in a new row for each selected one, in
order, that has the selected values in the named columns. -/
def InsertsSelected (now : Nat) (dbName tableName : Str) (source : Query) (names : List Str)
    (e : Engine) (t : Table) (selected : List Row) : Prop :=
  ∃ (count key : UInt64) (e' : Engine) (t' : Table) (new : List Row),
    (insert now dbName tableName (some source) false names).exec e = (.ok (.ok count key), e') ∧
      Store.table? e'.databases (insertTarget dbName tableName).1 (insertTarget dbName tableName).2 =
        some t' ∧ t'.rows = t.rows ++ new ∧ List.Forall₂ (Holds names t.columns) selected new

omit [Platform] in
theorem columnTypes_found {s : Store} {db table : Str} {t : Table} (h : s.table? db table = some t) :
    columnTypes s db table = t.columns.map Column.colType := by
  unfold Store.table? at h
  obtain ⟨d, hDb, hTable⟩ := Option.bind_eq_some_iff.1 h
  unfold columnTypes findTable
  rw [hDb]
  dsimp only
  rw [hTable]

/-- Rows of an INSERT without REPLACE are all pushed. -/
theorem exec_insertRows_plain (names : List Str) (srcs : List Row) (t : Table) :
    ∃ count key t', (insertRows false names srcs).exec t = (.ok (.ok count key), t') ∧
      t'.rows = t.rows ++ (layOut names t.columns t.pkColIdx t.nextAuto srcs).1 := by
  have hAlong : ∀ t, Trace.Along (insertStep false names) (GoesIn false names) t srcs := by
    induction srcs with
    | nil => exact fun t => trivial
    | cons src srcs ih => exact fun t => ⟨rfl, ih _⟩
  have hRun := exec_insertRows_goesIn (hAlong t)
  generalize hTable : { Trace.run Table.push t (layOut names t.columns t.pkColIdx t.nextAuto srcs).1 with
    nextAuto := (layOut names t.columns t.pkColIdx t.nextAuto srcs).2 } = t' at hRun
  refine ⟨UInt64.ofNat srcs.length, t'.lastKey, t', ?_, ?_⟩
  · rw [insertRows, Prog.exec_bind_ok hRun]
    rfl
  · rw [← hTable]
    exact rows_run_push _ t

/-- What an INSERT ... SELECT does on a table that is there. -/
theorem exec_insertSelect {now : Nat} {dbName tableName : Str} {source : Query} {names : List Str}
    {e : Engine} {t : Table} {result : QueryResult} {columns : List Str} {selected : List Row}
    (hBody : ∀ rows, source.body ≠ .values rows)
    (hTable : Store.table? e.databases (insertTarget dbName tableName).1 (insertTarget dbName tableName).2 =
      some t)
    (hSelect : select (e.env now) (insertTarget dbName tableName).1 source = .ok result)
    (hTexts : asTextRows result = .ok (columns, selected.map displayRow)) :
    ∃ (count key : UInt64) (e' : Engine) (t' : Table),
      (insert now dbName tableName (some source) false names).exec e = (.ok (.ok count key), e') ∧
        Store.table? e'.databases (insertTarget dbName tableName).1 (insertTarget dbName tableName).2 =
          some t' ∧
        t'.rows = t.rows ++ (layOut names t.columns t.pkColIdx t.nextAuto
          (selected.map (readBack t.columns))).1 := by
  rw [insert]
  generalize insertTarget dbName tableName = target at hTable hSelect
  obtain ⟨db, table⟩ := target
  have hSource : (sourceRows now db table source).exec e =
      (.ok (.ok (selected.map (readBack t.columns))), e) := by
    have hRun : (runQuery now db source).exec e = (.ok result, e) := by
      rw [runQuery, Prog.exec_get_bind, Prog.exec_ofExcept, hSelect]
    have hRead : (asTextRows result).map (fun r => r.2.map fun row =>
        row.mapIdx fun i v => coerceTo (columnTypes e.databases db table)[i]? v) =
          .ok (selected.map (readBack t.columns)) := by
      rw [hTexts, columnTypes_found hTable]
      show Except.ok ((selected.map displayRow).map _) = _
      rw [List.map_map]
      rfl
    rw [sourceRows]
    split
    · rename_i rows hValues
      exact absurd hValues (hBody rows)
    · rw [Prog.exec_get_bind, Prog.exec_bind_ok hRun, hRead]
      rfl
  obtain ⟨count, key, t', hRows, hNew⟩ := exec_insertRows_plain names (selected.map (readBack t.columns)) t
  dsimp only
  rw [Prog.exec_bind_ok hSource]
  dsimp only
  rw [Prog.exec_bind, exec_withTable, actOn_found hTable, hRows]
  refine ⟨count, key, _, t', rfl, ?_, hNew⟩
  show Store.table? (Store.modifyTables e.databases db fun tables =>
    tables.modify table fun _ => t') db table = _
  rw [table?_modifyTables, hTable, if_pos ⟨rfl, rfl⟩]
  rfl

/-- The selected values arrive exactly when each is read as its own column is. -/
theorem insertSelect_iff {now : Nat} {dbName tableName : Str} {source : Query} {names : List Str}
    {e : Engine} {t : Table} {result : QueryResult} {columns : List Str} {selected : List Row}
    (hNames : names ≠ []) (hDistinct : DistinctNames names)
    (hBody : ∀ rows, source.body ≠ .values rows)
    (hTable : Store.table? e.databases (insertTarget dbName tableName).1 (insertTarget dbName tableName).2 =
      some t)
    (hSelect : select (e.env now) (insertTarget dbName tableName).1 source = .ok result)
    (hTexts : asTextRows result = .ok (columns, selected.map displayRow)) :
    InsertsSelected now dbName tableName source names e t selected ↔
      ∀ row ∈ selected, ReadAlike names t.columns row := by
  obtain ⟨count, key, e', t', hRun, hThere, hRows⟩ :=
    @exec_insertSelect _ now dbName tableName source names e t result columns selected hBody hTable
      hSelect hTexts
  rw [← forall₂_holds_iff hNames hDistinct t.columns t.pkColIdx t.nextAuto selected]
  constructor
  · rintro ⟨count', key', e₁, t₁, new, hRun', hThere', hRows', hHolds⟩
    obtain ⟨-, rfl⟩ := Prod.ext_iff.1 (hRun.symm.trans hRun')
    obtain rfl := Option.some.inj (hThere.symm.trans hThere')
    obtain rfl := List.append_cancel_left (hRows.symm.trans hRows')
    exact hHolds
  · intro hHolds
    exact ⟨count, key, e', t', _, hRun, hThere, hRows, hHolds⟩

end Results

local instance insertSelectPlatform : Platform := tablePlatform []

/-- `t (a INT, b VARCHAR(255))` -/
def intAndText : Table :=
  Table.create "test" "t" [⟨"a", .int, true, false⟩, ⟨"b", .varChar 255, true, false⟩] []

/-- `SELECT values` -/
def selectValues (values : List SqlValue) : Query :=
  .mk (.select (.mk none (values.map fun v => .unnamedExpr (.value v)) [] none (.expressions []) none))
    none none none

/-- The list in the order of the table. -/
theorem insertSelect_iff_ab :
    InsertsSelected 0 "test" "t" (selectValues [.number "1" false, .singleQuotedString "x"])
        [("a" : Str), ("b" : Str)] (Engine.ofTable intAndText) intAndText [[.int 1, .text "x"]] ↔
      ∀ row ∈ ([[.int 1, .text "x"]] : List Row), ReadAlike [("a" : Str), ("b" : Str)] intAndText.columns row :=
  @insertSelect_iff _ 0 "test" "t" (selectValues [.number "1" false, .singleQuotedString "x"])
    [("a" : Str), ("b" : Str)] (Engine.ofTable intAndText) intAndText
    (.rows [("1" : Str), ("'x'" : Str)] [[some "1", some "x"]]) [("1" : Str), ("'x'" : Str)]
    [[.int 1, .text "x"]] (by decide) (by decide) (fun _ h => nomatch h) rfl rfl rfl

/-- The list in the other order: both values are read as the other one's type. -/
theorem not_insertSelect :
    ¬∀ (now : Nat) (dbName tableName : Str) (source : Query) (names : List Str) (e : Engine) (t : Table)
      (result : QueryResult) (columns : List Str) (selected : List Row), names ≠ [] →
      DistinctNames names → (∀ rows, source.body ≠ .values rows) →
      Store.table? e.databases (insertTarget dbName tableName).1 (insertTarget dbName tableName).2 =
        some t →
      select (e.env now) (insertTarget dbName tableName).1 source = .ok result →
      asTextRows result = .ok (columns, selected.map displayRow) →
      InsertsSelected now dbName tableName source names e t selected := by
  intro hAll
  obtain ⟨count, key, e', t', new, hRun, hThere, hRows, hHolds⟩ := hAll 0 "test" "t"
    (selectValues [.singleQuotedString "x", .number "1" false]) [("b" : Str), ("a" : Str)]
    (Engine.ofTable intAndText) intAndText
    (.rows [("'x'" : Str), ("1" : Str)] [[some "x", some "1"]]) [("'x'" : Str), ("1" : Str)]
    [[.text "x", .int 1]] (by decide) (by decide) (fun _ h => nomatch h) rfl rfl rfl
  have hStored : (Store.table? ((insert 0 "test" "t"
      (some (selectValues [.singleQuotedString "x", .number "1" false])) false
      [("b" : Str), ("a" : Str)]).exec (Engine.ofTable intAndText)).2.databases "test" "t").map
        Table.rows = some [[.text "1", .int 0]] := by decide +kernel
  rw [hRun, show Store.table? e'.databases "test" "t" = some t' from hThere] at hStored
  have hNew : new = [[.text "1", .int 0]] := hRows.symm.trans (Option.some.inj hStored)
  subst hNew
  have hCell := (List.forall₂_cons.1 hHolds).1 0 1 ⟨"b", .varChar 255, true, false⟩ (.text "x")
    ⟨⟨"b", rfl, rfl⟩, rfl⟩ rfl trivial
  exact absurd hCell (by decide)

end RunAlexDb
