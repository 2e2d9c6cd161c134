import RunAlexDb.Query.KeyLookup
import RunAlexDb.Statement.Effects

/-!
# RowSelection — the rows SELECT finds, DELETE removes and UPDATE changes

SELECT replaces the subqueries of its WHERE clause by their values, may answer
from the index or a column store, and applies ORDER BY and LIMIT. DELETE and
UPDATE evaluate the clause as it is written, and DELETE knows no ORDER BY and no
LIMIT.

Main results: `select_star`, the rows a SELECT takes, and `selectionAgrees_iff`,
when the three work on the same rows.
-/

set_option linter.unusedSectionVars false

namespace RunAlexDb

open Text Platform

-- ---------------------------------------------------------------------------
-- Elements at positions
-- ---------------------------------------------------------------------------

section Positions

variable {α : Type}

/-- The elements at some positions. -/
def elemsAt (l : List α) (idx : List Nat) : List α := idx.filterMap (l[·]?)

theorem elemsAt_scanWhere (p : α → Bool) (l : List α) : elemsAt l (scanWhere p l) = l.filter p := by
  have hGet : ∀ x ∈ l.zipIdx.filter (fun x => p x.1), l[x.2]? = some x.1 := by
    rintro ⟨x, i⟩ hx
    exact List.mem_zipIdx_iff_getElem?.1 (List.mem_filter.1 hx).1
  have hFst : (l.zipIdx.filter fun x => p x.1).map Prod.fst = l.filter p := by
    calc (l.zipIdx.filter fun x => p x.1).map Prod.fst
        = (l.zipIdx.map Prod.fst).filter p := by rw [List.filter_map]; rfl
      _ = l.filter p := by rw [List.zipIdx_map_fst]
  rw [elemsAt, scanWhere, List.filterMap_map, ← hFst]
  exact List.filterMap_eq_map_iff_forall_eq_some.2 hGet

theorem elemsAt_range (l : List α) : elemsAt l (List.range l.length) = l := by
  have hAll : scanWhere (fun _ => true) l = List.range l.length := by
    rw [scanWhere, List.filter_eq_self.2 fun _ _ => rfl, List.zipIdx_map_snd, List.range_eq_range']
  rw [← hAll, elemsAt_scanWhere, List.filter_eq_self.2 fun _ _ => rfl]

theorem length_elemsAt {l : List α} {idx : List Nat} (hIn : ∀ i ∈ idx, i < l.length) :
    (elemsAt l idx).length = idx.length := by
  rw [elemsAt, List.length_filterMap_eq_countP, List.countP_eq_length]
  intro i hi
  rw [List.getElem?_eq_getElem (hIn i hi)]
  rfl

variable [DecidableEq α]

/-- **What is found and what is left.** The elements at some positions together
with those that fail `p` make up the list exactly when the positions are those
of the elements that meet `p`. -/
theorem elemsAt_perm_iff {l : List α} {p : α → Bool} {idx : List Nat} (hNodup : idx.Nodup)
    (hIn : ∀ i ∈ idx, i < l.length) :
    (elemsAt l idx ++ l.filter fun x => !p x).Perm l ↔
      ∀ i x, l[i]? = some x → (i ∈ idx ↔ p x = true) := by
  have hSplit : (l.filter p ++ l.filter fun x => !p x).Perm l := List.filter_append_perm p l
  have hFound : (elemsAt l idx ++ l.filter fun x => !p x).Perm l ↔
      (elemsAt l idx).Perm (l.filter p) := by
    constructor
    · exact fun h => (List.perm_append_right_iff _).1 (h.trans hSplit.symm)
    · exact fun h => (h.append_right _).trans hSplit
  rw [hFound]
  constructor
  · intro hPerm i x hGet
    have hx : x ∈ l := List.mem_of_getElem? hGet
    constructor
    · intro hi
      have hMem : x ∈ elemsAt l idx := List.mem_filterMap.2 ⟨i, hi, hGet⟩
      exact (List.mem_filter.1 (hPerm.mem_iff.1 hMem)).2
    · intro hp
      by_contra hi
      -- one more occurrence of x in l than among the elements found
      have hSub : (i :: idx).Subperm (List.range l.length) := by
        refine List.subperm_of_subset (List.nodup_cons.2 ⟨hi, hNodup⟩) fun j hj => ?_
        rw [List.mem_range]
        rcases List.mem_cons.1 hj with rfl | hj
        · exact (List.getElem?_eq_some_iff.1 hGet).1
        · exact hIn j hj
      have hSub' : (x :: elemsAt l idx).Subperm l := by
        obtain ⟨js, hPermJs, hSubJs⟩ := hSub
        have hMap := hPermJs.filterMap (l[·]?)
        rw [List.filterMap_cons_some hGet] at hMap
        refine ⟨elemsAt l js, hMap, ?_⟩
        have hSubEl := hSubJs.filterMap (l[·]?)
        rwa [← elemsAt, ← elemsAt, elemsAt_range] at hSubEl
      have hMore := hSub'.count_le x
      rw [List.count_cons_self, hPerm.count_eq, List.count_filter hp] at hMore
      omega
  · intro hAgree
    have hIdx : idx.Perm (scanWhere p l) := by
      refine (List.perm_ext_iff_of_nodup hNodup ?_).2 fun i => ?_
      · exact (scanWhere_sorted p l).imp fun h => Nat.ne_of_lt h
      · rw [mem_scanWhere]
        constructor
        · intro hi
          have hGet := List.getElem?_eq_getElem (hIn i hi)
          exact ⟨_, hGet, (hAgree i _ hGet).1 hi⟩
        · rintro ⟨x, hGet, hp⟩
          exact (hAgree i x hGet).2 hp
    rw [← elemsAt_scanWhere]
    exact hIdx.filterMap _

end Positions

section RowSelection

variable [Platform]

-- ---------------------------------------------------------------------------
-- SELECT *
-- ---------------------------------------------------------------------------

/-- The positions of the rows a SELECT finds, by the index, by a scan of a store
or by its condition. -/
def foundPositions (now : Nat) (t : Table) (w : Expr) : Rust (List Nat) := do
  match ← lookupKey t w with
  | some key => return ((t.pkIndex.get key).filter (· < t.rows.length)).toList
  | none =>
    match trySimdScan t w with
    | some idx => return idx.filter (· < t.rows.length)
    | none => (t.rows.zipIdx.filterM fun x => evalWhere now x.1 t.columns w).map (List.map Prod.snd)

/-- The rows a SELECT takes; an answer of the index has no ORDER BY and LIMIT. -/
def starRows (now : Nat) (t : Table) (w : Expr) (orderBy : Option OrderByKind) (limit : Option Expr) :
    Rust (List Row) := do
  let found := elemsAt t.rows (← foundPositions now t w)
  match ← lookupKey t w with
  | some _ => return found
  | none => return applyLimit (literalOf limit) (sortSource t.columns orderBy found)

/-- `SELECT * FROM name WHERE w ORDER BY .. LIMIT ..`. -/
def starQuery (name : ObjectName) (w : Expr) (orderBy : Option OrderByKind) (limit : Option Expr) :
    Query :=
  .mk (.select (.mk none [.wildcard "*"] [.mk (.table name []) []] (some w) (.expressions []) none))
    orderBy limit none

theorem elemsAt_filter_length {α : Type} (l : List α) (idx : List Nat) :
    elemsAt l (idx.filter (· < l.length)) = elemsAt l idx := by
  rw [elemsAt, elemsAt, List.filterMap_filter]
  refine List.filterMap_congr fun i _ => ?_
  by_cases hIn : i < l.length
  · simp [hIn]
  · simp [hIn]

theorem pkRow_eq_elemsAt (t : Table) (key : Str) :
    (pkRow t key).toList = elemsAt t.rows ((t.pkIndex.get key).filter (· < t.rows.length)).toList := by
  rw [pkRow]
  cases t.pkIndex.get key with
  | none => rfl
  | some i =>
    rw [Option.bind_some]
    by_cases hIn : i < t.rows.length
    · rw [Option.filter_some_pos (by simpa using hIn)]
      simp [elemsAt, List.getElem?_eq_getElem hIn]
    · rw [Option.filter_some_neg (by simpa using hIn), List.getElem?_eq_none (by omega)]
      rfl

/-- What a filter keeps, told by the positions. -/
theorem filterM_elemsAt (f : Row → Rust Bool) (rows : List Row) :
    rows.filterM f =
      ((rows.zipIdx.filterM fun x => f x.1).map (List.map Prod.snd)).map (elemsAt rows) := by
  have hRows := Prog.filterM_map Prod.fst f rows.zipIdx
  rw [List.zipIdx_map_fst] at hRows
  rw [hRows]
  cases hRun : rows.zipIdx.filterM fun x => f x.1 with
  | error fault => rfl
  | ok res =>
    -- what is kept has its positions with it
    obtain rfl := Prog.eq_of_filterM hRun
    refine congrArg Except.ok ?_
    rw [elemsAt, List.filterMap_map]
    refine (List.filterMap_eq_map_iff_forall_eq_some.2 ?_).symm
    rintro ⟨x, i⟩ hx
    exact List.mem_zipIdx_iff_getElem?.1 (List.mem_filter.1 hx).1

/-- The rows of the scan path. -/
theorem selectedRows_eq {now : Nat} {t : Table} {w : Expr} (hKey : lookupKey t w = .ok none) :
    selectedRows now t (some w) = (foundPositions now t w).map (elemsAt t.rows) := by
  rw [selectedRows, foundPositions, hKey, Option.bind_some]
  show _ = Except.map _ (match trySimdScan t w with
    | some idx => pure (idx.filter (· < t.rows.length))
    | none => (t.rows.zipIdx.filterM fun x => evalWhere now x.1 t.columns w).map (List.map Prod.snd))
  cases trySimdScan t w with
  | some idx => exact congrArg Except.ok (elemsAt_filter_length t.rows idx).symm
  | none => exact filterM_elemsAt (fun r => evalWhere now r t.columns w) t.rows

/-- The columns of `SELECT *`. -/
def starProj (t : Table) : List (Str × Nat) := projCols t.columns [.wildcard "*"]

theorem selectPlain_star (now : Nat) (t : Table) (w : Expr) (orderBy : Option OrderByKind)
    (limit : Option Expr) :
    (selectPlain now t none [.wildcard "*"] (some w) orderBy limit none).map asTextRows =
      (starRows now t w orderBy limit).map fun rows =>
        .ok ((starProj t).map Prod.fst, rows.map (projectText (starProj t))) := by
  rw [starRows]
  cases hKey : lookupKey t w with
  | error fault => rw [selectPlain_error hKey, foundPositions, hKey]; rfl
  | ok pkKey =>
    cases pkKey with
    | some key =>
      rw [selectPlain_key hKey, foundPositions, hKey]
      simp only [bind, Except.bind, pure, Except.pure, Except.map, asTextRows, pkRow_eq_elemsAt]
      rfl
    | none =>
      rw [selectPlain_scan hKey, selectedRows_eq hKey]
      cases foundPositions now t w with
      | error fault => rfl
      | ok idx =>
        simp only [Except.map, bind, Except.bind, pure, Except.pure, literalOf, Option.getD_none,
          List.drop_zero, applyLimit_map]
        rfl

/-- **What a SELECT takes.** The answer of `SELECT *` is made of the rows found
for the condition with its subqueries replaced. -/
theorem select_star {env : QueryEnv} {dbName db table : Str} {name : ObjectName} {t : Table}
    (hTarget : resolveName dbName (ObjectName.toString name) = (db, table))
    (hTable : findTable env.databases db table [] [] = .ok t) (w : Expr)
    (orderBy : Option OrderByKind) (limit : Option Expr) :
    (select env dbName (starQuery name w orderBy limit)).map asTextRows =
      (resolveInSubqueries env db w >>= fun w' => starRows env.now t w' orderBy limit).map fun rows =>
        .ok ((starProj t).map Prod.fst, rows.map (projectText (starProj t))) := by
  have hName : TableFactor.toString (.table name []) = ObjectName.toString name :=
    List.append_nil _
  have hFound : findTable env.databases db table (unknownDatabase db)
      (unknownTable (db ++ "." ++ table)) = .ok t := findTable_ok_iff.2 hTable
  simp only [starQuery, select, selectBody, selectFrom, derivedSource, resolveSelection,
    TableWithJoins.relation, TableWithJoins.joins, hName, hTarget, hFound, bind, Except.bind, pure,
    Except.pure]
  cases resolveInSubqueries env db w with
  | error fault => rfl
  | ok w' => exact selectPlain_star env.now t w' orderBy limit

/-- SELECT takes row `i`: the entry of the index, the scan of the store or the
condition says so. -/
def takes (now : Nat) (t : Table) (w : Expr) (i : Nat) (r : Row) : Prop :=
  match lookupKey t w, trySimdScan t w with
  | .ok (some key), _ => t.pkIndex.get key = some i
  | .ok none, some idx => i ∈ idx
  | .ok none, none => evalWhere now r t.columns w = .ok true
  | .error _, _ => False

theorem trySimdScan_sorted {t : Table} {w : Expr} {idx : List Nat} (h : trySimdScan t w = some idx) :
    idx.Pairwise (· < ·) := by
  cases w with
  | binaryOp left op right =>
    simp only [trySimdScan, Option.bind_eq_bind, Option.bind_eq_some_iff] at h
    obtain ⟨name, _, ci, _, h⟩ := h
    split at h
    · split at h
      case h_2 => cases h
      obtain ⟨target, _, h⟩ := Option.bind_eq_some_iff.1 h
      split at h <;> cases h <;> exact scanWhere_sorted ..
    · split at h
      · cases h
        exact scanWhere_sorted ..
      · cases h
  | _ => cases h

theorem foundPositions_spec {now : Nat} {t : Table} {w : Expr} {idx : List Nat}
    (h : foundPositions now t w = .ok idx) :
    idx.Nodup ∧ (∀ i ∈ idx, i < t.rows.length) ∧
      ∀ i r, t.rows[i]? = some r → (i ∈ idx ↔ takes now t w i r) := by
  rw [foundPositions] at h
  cases hKey : lookupKey t w with
  | error fault => rw [hKey] at h; cases h
  | ok pkKey =>
    rw [hKey] at h
    cases pkKey with
    | some key =>
      obtain rfl : ((t.pkIndex.get key).filter (· < t.rows.length)).toList = idx := Except.ok.inj h
      refine ⟨?_, ?_, fun i r hGet => ?_⟩
      · cases (t.pkIndex.get key).filter (· < t.rows.length) <;> simp
      · intro i hi
        rw [Option.mem_toList, Option.filter_eq_some_iff] at hi
        simpa using hi.2
      · rw [Option.mem_toList, Option.filter_eq_some_iff]
        simp only [takes, hKey]
        have hIn := (List.getElem?_eq_some_iff.1 hGet).1
        exact and_iff_left (by simpa using hIn)
    | none =>
      cases hScan : trySimdScan t w with
      | some found =>
        simp only [hScan, bind, Except.bind, pure, Except.pure] at h
        obtain rfl := Except.ok.inj h
        refine ⟨?_, ?_, fun i r hGet => ?_⟩
        · exact ((trySimdScan_sorted hScan).imp fun h => Nat.ne_of_lt h).filter _
        · intro i hi
          simpa using (List.mem_filter.1 hi).2
        · simp only [takes, hKey, hScan, List.mem_filter, decide_eq_true_eq]
          exact and_iff_left (List.getElem?_eq_some_iff.1 hGet).1
      | none =>
        simp only [hScan, bind, Except.bind] at h
        cases hRun : t.rows.zipIdx.filterM fun x => evalWhere now x.1 t.columns w with
        | error fault => rw [hRun] at h; cases h
        | ok res =>
          rw [hRun] at h
          have hIdx : idx = scanWhere (fun r => decide (evalWhere now r t.columns w = .ok true)) t.rows := by
            rw [← Except.ok.inj h, Prog.eq_of_filterM hRun, scanWhere]
          subst hIdx
          refine ⟨?_, ?_, fun i r hGet => ?_⟩
          · exact (scanWhere_sorted _ _).imp fun h => Nat.ne_of_lt h
          · intro i hi
            obtain ⟨r, hGet, _⟩ := mem_scanWhere.1 hi
            exact (List.getElem?_eq_some_iff.1 hGet).1
          · simp only [takes, hKey, hScan, mem_scanWhere, hGet, Option.some.injEq, exists_eq_left',
              decide_eq_true_eq]

-- ---------------------------------------------------------------------------
-- DELETE
-- ---------------------------------------------------------------------------

theorem pkColIdx_of_lookupKey {t : Table} {w : Expr} {key : Str}
    (h : lookupKey t w = .ok (some key)) : ∃ p, t.pkColIdx = some p := by
  rw [lookupKey] at h
  cases hPk : t.pkColIdx with
  | none => rw [hPk] at h; cases h
  | some p => exact ⟨p, rfl⟩

/-- DELETE through the index removes the row the index has. -/
theorem exec_deleteTable_lookup (now : Nat) {t : Table} {w : Expr} {key : Str}
    (hKey : lookupKey t w = .ok (some key)) :
    ∃ n t', (deleteTable now (some w)).exec t = (.ok (.ok n 0), t') ∧
      (elemsAt t.rows ((t.pkIndex.get key).filter (· < t.rows.length)).toList ++ t'.rows).Perm
        t.rows := by
  obtain ⟨p, hPk⟩ := pkColIdx_of_lookupKey hKey
  refine ⟨UInt64.ofNat (t.rows.length - (t.deleteKey p key).rows.length), t.deleteKey p key, ?_, ?_⟩
  · rw [deleteTable, Prog.exec_get_bind, Prog.exec_bind, exec_pkCondition, hKey, hPk]
    rfl
  · rw [Table.deleteKey]
    cases t.pkIndex.get key with
    | none => exact List.Perm.refl _
    | some i =>
      by_cases hIn : i < t.rows.length
      · have hGet := List.getElem?_eq_getElem hIn
        rw [Option.filter_some_pos (by simpa using hIn)]
        simp only [hIn, if_true, elemsAt, Option.toList_some, List.filterMap_cons, List.filterMap_nil,
          hGet, List.cons_append, List.nil_append]
        exact swapRemove_perm hGet
      · rw [Option.filter_some_neg (by simpa using hIn)]
        simp only [hIn, if_false]
        exact List.Perm.refl _

/-- DELETE by its condition: the rows for which it fails stay. -/
theorem exec_deleteTable_scan {now : Nat} {t : Table} {w : Expr} (hKey : lookupKey t w = .ok none)
    {b : Row → Bool} (hRows : ∀ r ∈ t.rows, evalWhere now r t.columns w = .ok (b r)) :
    ∃ n t', (deleteTable now (some w)).exec t = (.ok (.ok n 0), t') ∧
      t'.rows = t.rows.filter fun r => !b r := by
  have hKeep : ∀ r ∈ t.rows,
      rowKept (fun w r => evalWhere now r t.columns w) (some w) r = .ok (!b r) := by
    intro r hr
    simp only [rowKept, Option.elim_some, hRows r hr]
    rfl
  refine ⟨UInt64.ofNat (t.rows.length - (t.rows.filter fun r => !b r).length),
    Table.rebuild { t with rows := t.rows.filter fun r => !b r }, ?_, rfl⟩
  rw [deleteTable, Prog.exec_get_bind, Prog.exec_bind, exec_pkCondition, hKey]
  simp only
  rw [Prog.exec_bind, deleteScan, Prog.exec_bind, onRows, Prog.zoom, Prog.exec_mk,
    Prog.exec_retain_ok hKeep]
  rfl

/-- A DELETE that succeeds has decided its condition on every row. -/
theorem decided_of_deleteTable {now : Nat} {t : Table} {w : Expr} (hKey : lookupKey t w = .ok none)
    {res : QueryResult} (h : ((deleteTable now (some w)).exec t).1 = .ok res) :
    ∀ r ∈ t.rows, ∃ b, evalWhere now r t.columns w = .ok b := by
  rw [deleteTable, Prog.exec_get_bind, Prog.exec_bind, exec_pkCondition, hKey] at h
  simp only at h
  rw [Prog.exec_bind, deleteScan, Prog.exec_bind, onRows, Prog.zoom, Prog.exec_mk] at h
  have hRetain : ((Prog.retain (rowKept (fun w r => evalWhere now r t.columns w) (some w))).exec
      t.rows).1 = .ok () := by
    cases hRun : ((Prog.retain (rowKept (fun w r => evalWhere now r t.columns w) (some w))).exec
        t.rows).1 with
    | error fault => rw [hRun] at h; cases h
    | ok _ => rfl
  intro r hr
  obtain ⟨keep, hKeep⟩ := Prog.decided_of_retain hRetain r hr
  simp only [rowKept, Option.elim_some] at hKeep
  cases hWhere : evalWhere now r t.columns w with
  | error fault => rw [hWhere] at hKeep; cases hKeep
  | ok b => exact ⟨b, rfl⟩

-- ---------------------------------------------------------------------------
-- UPDATE
-- ---------------------------------------------------------------------------

/-- The assignments of an UPDATE on one row. -/
def assignAll (now : Nat) (cols : List Column) (assignments : List Assignment) : Prog Row Fault Unit :=
  Prog.forEach (assignRow cols fun row e => evalRowExpr now row cols e) assignments

/-- The row the assignments make of a row. -/
def assigned (now : Nat) (cols : List Column) (assignments : List Assignment) (r : Row) : Row :=
  ((assignAll now cols assignments).exec r).2

/-- UPDATE through the index assigns on the row the index has. -/
theorem exec_updateTable_lookup (now : Nat) {t : Table} {w : Expr} {key : Str}
    (hKey : lookupKey t w = .ok (some key)) (assignments : List Assignment) :
    ((∃ res, ((updateTable now assignments (some w)).exec t).1 = .ok res) ↔
        ∀ i r, t.rows[i]? = some r → t.pkIndex.get key = some i →
          ((assignAll now t.columns assignments).exec r).1 = .ok ()) ∧
      ((updateTable now assignments (some w)).exec t).2.rows = t.rows.mapIdx fun i r =>
        if t.pkIndex.get key = some i then assigned now t.columns assignments r else r := by
  have hFast : (updateTable now assignments (some w)).exec t =
      (updateKey key (fun r e => evalRowExpr now r t.columns e) assignments).exec t := by
    rw [updateTable, Prog.exec_get_bind]
    simp only
    rw [Prog.exec_bind, exec_pkCondition, hKey]
  have hQuiet : (∀ i, t.pkIndex.get key = some i → t.rows.length ≤ i) →
      (t.rows.mapIdx fun i r =>
        if t.pkIndex.get key = some i then assigned now t.columns assignments r else r) = t.rows := by
    intro hOut
    refine List.ext_getElem? fun i => ?_
    rw [List.getElem?_mapIdx]
    cases hGet : t.rows[i]? with
    | none => rfl
    | some r =>
      rw [Option.map_some, if_neg]
      intro hEntry
      have hLt := (List.getElem?_eq_some_iff.1 hGet).1
      have hLe := hOut i hEntry
      omega
  rw [hFast, updateKey, Prog.exec_get_bind]
  cases hEntry : t.pkIndex.get key with
  | none =>
    rw [hEntry] at hQuiet
    refine ⟨iff_of_true ⟨_, rfl⟩ fun i r _ hNone => ?_, ?_⟩
    · cases hNone
    · exact (hQuiet fun i hNone => by cases hNone).symm
  | some ri =>
    rw [hEntry] at hQuiet
    simp only
    by_cases hIn : ri < t.rows.length
    · have hRow := List.getElem?_eq_getElem hIn
      obtain ⟨hOut, hSet⟩ := exec_assignAll hRow (fun r e => evalRowExpr now r t.columns e) assignments
      have hMap : (t.rows.mapIdx fun i r =>
          if some ri = some i then assigned now t.columns assignments r else r) =
            t.rows.set ri (assigned now t.columns assignments t.rows[ri]) := by
        refine List.ext_getElem? fun i => ?_
        rw [List.getElem?_mapIdx, List.getElem?_set]
        by_cases hi : ri = i
        · subst hi
          rw [hRow, Option.map_some, if_pos rfl, if_pos rfl, if_pos hIn]
        · cases t.rows[i]? <;> simp [hi]
      rw [if_pos hIn, Prog.exec_bind, hMap]
      rcases hRun : (Prog.forEach (assignAt ri fun r e => evalRowExpr now r t.columns e)
        assignments).exec t with ⟨out, t'⟩
      rw [hRun] at hOut hSet
      refine ⟨?_, ?_⟩
      · have hAll : (∀ i r, t.rows[i]? = some r → some ri = some i →
            ((assignAll now t.columns assignments).exec r).1 = .ok ()) ↔ out = .ok () := by
          constructor
          · exact fun h => hOut.trans (h ri _ hRow rfl)
          · rintro h i r hGet hEq
            obtain rfl := Option.some.inj hEq
            obtain rfl := Option.some.inj (hRow.symm.trans hGet)
            exact hOut.symm.trans h
        rw [hAll]
        cases out with
        | error fault =>
          refine iff_of_false ?_ (by intro h; cases h)
          rintro ⟨res, hOk⟩
          cases hOk
        | ok _ => exact iff_of_true ⟨_, rfl⟩ rfl
      · cases out <;> exact hSet
    · rw [if_neg hIn]
      refine ⟨iff_of_true ⟨_, rfl⟩ ?_, ?_⟩
      · rintro i r hGet hEq
        obtain rfl := Option.some.inj hEq
        exact absurd (List.getElem?_eq_some_iff.1 hGet).1 hIn
      · refine (hQuiet ?_).symm
        rintro i hEq
        obtain rfl := Option.some.inj hEq
        omega

/-- UPDATE by its condition assigns on the rows for which it holds. -/
theorem exec_updateTable_scan {now : Nat} {t : Table} {w : Expr} (hKey : lookupKey t w = .ok none)
    {b : Row → Bool} (hRows : ∀ r ∈ t.rows, evalWhere now r t.columns w = .ok (b r))
    (assignments : List Assignment) :
    ((∃ res, ((updateTable now assignments (some w)).exec t).1 = .ok res) ↔
        ∀ r ∈ t.rows, b r = true → ((assignAll now t.columns assignments).exec r).1 = .ok ()) ∧
      ((∃ res, ((updateTable now assignments (some w)).exec t).1 = .ok res) →
        ((updateTable now assignments (some w)).exec t).2.rows = t.rows.map fun r =>
          if b r = true then assigned now t.columns assignments r else r) := by
  have hScan : (updateTable now assignments (some w)).exec t =
      (updateScan (rowSelected now t.columns (some w)) (fun r e => evalRowExpr now r t.columns e)
        assignments).exec t := by
    rw [updateTable, Prog.exec_get_bind]
    simp only
    rw [Prog.exec_bind, exec_pkCondition, hKey]
  have hBody : ∀ r ∈ t.rows, (updateRow t.columns (rowSelected now t.columns (some w))
      (fun r e => evalRowExpr now r t.columns e) assignments).exec r =
        if b r = true then
          (((assignAll now t.columns assignments).exec r).1.map (fun _ => 1),
            assigned now t.columns assignments r)
        else (.ok 0, r) := by
    intro r hr
    rw [updateRow, Prog.exec_get_bind, rowSelected, Option.elim_some, hRows r hr]
    cases b r with
    | false => rfl
    | true =>
      rw [Prog.exec_bind, Prog.exec_ofExcept]
      simp only [if_true]
      rw [Prog.exec_bind, assigned, assignAll]
      rcases (Prog.forEach (assignRow t.columns fun r e => evalRowExpr now r t.columns e)
        assignments).exec r with ⟨_ | _, r'⟩ <;> rfl
  have hOut : ((∃ res, ((updateTable now assignments (some w)).exec t).1 = .ok res) →
      ∀ r ∈ t.rows, b r = true → ((assignAll now t.columns assignments).exec r).1 = .ok ()) := by
    rintro ⟨res, hRes⟩ r hr hb
    rw [hScan, updateScan, Prog.exec_get_bind, Prog.exec_bind, onRows, Prog.zoom, Prog.exec_mk] at hRes
    cases hIter : ((Prog.iterMut (updateRow t.columns (rowSelected now t.columns (some w))
        (fun r e => evalRowExpr now r t.columns e) assignments)).exec t.rows).1 with
    | error fault => rw [hIter] at hRes; cases hRes
    | ok k =>
      obtain ⟨n, hn⟩ := Prog.ok_of_iterMut hIter r hr
      rw [hBody r hr, if_pos hb] at hn
      cases hAssign : ((assignAll now t.columns assignments).exec r).1 with
      | error fault => rw [hAssign] at hn; cases hn
      | ok _ => rfl
  have hRun : (∀ r ∈ t.rows, b r = true → ((assignAll now t.columns assignments).exec r).1 = .ok ()) →
      ∃ n, (updateTable now assignments (some w)).exec t = (.ok (.ok n 0), { t with
        rows := t.rows.map (fun r => if b r = true then assigned now t.columns assignments r else r) }) := by
    intro hAssign
    have hBody' : ∀ r ∈ t.rows, (updateRow t.columns (rowSelected now t.columns (some w))
        (fun r e => evalRowExpr now r t.columns e) assignments).exec r =
          (.ok (if b r = true then 1 else 0),
            if b r = true then assigned now t.columns assignments r else r) := by
      intro r hr
      rw [hBody r hr]
      by_cases hb : b r = true
      · simp only [hb, if_true, hAssign r hr hb, Except.map]
      · simp only [hb]
        rfl
    have hIter := Prog.exec_iterMut_map hBody'
    refine ⟨UInt64.ofNat (t.rows.map fun r => if b r = true then 1 else 0).sum, ?_⟩
    rw [hScan, updateScan, Prog.exec_get_bind, Prog.exec_bind, onRows, Prog.zoom, Prog.exec_mk, hIter]
    rfl
  refine ⟨⟨hOut, fun hAssign => ?_⟩, fun hOk => ?_⟩
  · obtain ⟨n, hExec⟩ := hRun hAssign
    exact ⟨_, congrArg Prod.fst hExec⟩
  · obtain ⟨n, hExec⟩ := hRun (hOut hOk)
    rw [hExec]

-- ---------------------------------------------------------------------------
-- The three statements
-- ---------------------------------------------------------------------------

/-- `DELETE FROM name WHERE w ORDER BY .. LIMIT ..`. -/
def deleteFrom (name : ObjectName) (w : Expr) (orderBy : List OrderByExpr) (limit : Option Expr) :
    Statement :=
  .delete { from_ := [.mk (.table name []) []], selection := some w, orderBy := orderBy, limit := limit }

/-- `UPDATE name SET .. WHERE w`. -/
def updateWhere (name : ObjectName) (assignments : List Assignment) (w : Expr) : Statement :=
  .update (.mk (.table name []) []) assignments (some w)

/-- A statement succeeds and leaves a table like this. -/
def Leaves (now : Nat) (currentDb : Option Str) (e : Engine) (stmt : Statement) (db table : Str)
    (t' : Table) : Prop :=
  (∃ r, ((execStmt now currentDb stmt).exec e).1 = .ok r) ∧
    findTable ((execStmt now currentDb stmt).exec e).2.databases db table [] [] = .ok t'

/-- A program on a table leaves what it makes of the table. -/
theorem findTable_withTable {e : Engine} {db table : Str} {t : Table}
    (hTable : findTable e.databases db table [] [] = .ok t) (noDb noTable : Str)
    (act : TableM QueryResult) :
    ((withTable db table noDb noTable act).exec e).1 = (act.exec t).1 ∧
      findTable ((withTable db table noDb noTable act).exec e).2.databases db table [] [] =
        .ok (act.exec t).2 := by
  obtain ⟨d, hDb, hGet⟩ := findTable_ok hTable
  have hFound : findTable e.databases db table noDb noTable = .ok t := findTable_ok_iff.2 hTable
  rw [withTable, Prog.exec_mk, hFound]
  refine ⟨rfl, ?_⟩
  simp only [findTable, Engine.modifyTables, HashMap.get_modify, if_true, hDb, Option.map_some, hGet]

variable {now : Nat} {currentDb : Option Str} {e : Engine} {name : ObjectName} {db table : Str}
  {t : Table}

theorem leaves_deleteFrom
    (hTarget : resolveName (dbOrTest currentDb) (ObjectName.toString name) = (db, table))
    (hTable : findTable e.databases db table [] [] = .ok t) (w : Expr) (orderBy : List OrderByExpr)
    (limit : Option Expr) (t' : Table) :
    Leaves now currentDb e (deleteFrom name w orderBy limit) db table t' ↔
      (∃ r, ((deleteTable now (some w)).exec t).1 = .ok r) ∧
        ((deleteTable now (some w)).exec t).2 = t' := by
  have hName : resolveName (dbOrTest currentDb) (TableFactor.toString (.table name [])) = (db, table) := by
    rw [TableFactor.toString, List.append_nil, hTarget]
  obtain ⟨hOut, hLeft⟩ := findTable_withTable hTable (unknownDatabase db)
    (unknownTable (db ++ "." ++ table)) (deleteTable now (some w))
  simp only [Leaves, deleteFrom, execStmt, Delete.tableName, List.head?_cons, Option.map_some,
    Option.getD_some, TableWithJoins.relation, delete, hName, hOut, hLeft, Except.ok.injEq]

theorem leaves_updateWhere
    (hTarget : resolveName (dbOrTest currentDb) (ObjectName.toString name) = (db, table))
    (hTable : findTable e.databases db table [] [] = .ok t) (assignments : List Assignment) (w : Expr)
    (t' : Table) :
    Leaves now currentDb e (updateWhere name assignments w) db table t' ↔
      (∃ r, ((updateTable now assignments (some w)).exec t).1 = .ok r) ∧
        ((updateTable now assignments (some w)).exec t).2 = t' := by
  have hName : resolveName (dbOrTest currentDb) (TableFactor.toString (.table name [])) = (db, table) := by
    rw [TableFactor.toString, List.append_nil, hTarget]
  obtain ⟨hOut, hLeft⟩ := findTable_withTable hTable (unknownDatabase db)
    (unknownTable (db ++ "." ++ table)) (updateTable now assignments (some w))
  simp only [Leaves, updateWhere, execStmt, TableWithJoins.relation, update, hName, hOut, hLeft,
    Except.ok.injEq]

-- ---------------------------------------------------------------------------
-- When the three agree
-- ---------------------------------------------------------------------------

/-- The three statements work on the same rows: DELETE removes those that SELECT
takes, with and without ORDER BY and LIMIT, and UPDATE assigns on them and on no
others. -/
structure SelectionAgrees (now : Nat) (currentDb : Option Str) (e : Engine) (name : ObjectName)
    (db table : Str) (t : Table) (w : Expr) (assignments : List Assignment)
    (orderBy : List OrderByExpr) (limit : Option Expr) : Prop where
  delete : ∃ w' rows t', resolveInSubqueries (e.env now) db w = .ok w' ∧
    starRows now t w' none none = .ok rows ∧
      Leaves now currentDb e (deleteFrom name w [] none) db table t' ∧ (rows ++ t'.rows).Perm t.rows
  deleteLimit : ∃ w' rows t', resolveInSubqueries (e.env now) db w = .ok w' ∧
    starRows now t w' (some (.expressions orderBy)) limit = .ok rows ∧
      Leaves now currentDb e (deleteFrom name w orderBy limit) db table t' ∧
        (rows ++ t'.rows).Perm t.rows
  update : ∃ w' idx t', resolveInSubqueries (e.env now) db w = .ok w' ∧
    foundPositions now t w' = .ok idx ∧
      Leaves now currentDb e (updateWhere name assignments w) db table t' ∧
        t'.rows = t.rows.mapIdx fun i r => if i ∈ idx then assigned now t.columns assignments r else r

/-- SELECT finds its rows without a panic, in a table whose condition has no key
to look up the condition as it is written holds for the rows SELECT takes and
for no others, an effective LIMIT lets them all through, and no assignment
panics on one of them. -/
def SameSelection (now : Nat) (e : Engine) (db : Str) (t : Table) (w : Expr)
    (assignments : List Assignment) (limit : Option Expr) : Prop :=
  ∃ w' idx, resolveInSubqueries (e.env now) db w = .ok w' ∧ foundPositions now t w' = .ok idx ∧
    (lookupKey t w = .ok none → ∀ i r, t.rows[i]? = some r →
      ∃ b, evalWhere now r t.columns w = .ok b ∧ (b = true ↔ takes now t w' i r)) ∧
    (lookupKey t w' = .ok none → ∀ n, literalOf limit = some n → idx.length ≤ n) ∧
    ∀ i r, t.rows[i]? = some r → takes now t w' i r →
      ((assignAll now t.columns assignments).exec r).1 = .ok ()

/-- A condition with a key has no subqueries. -/
theorem resolveInSubqueries_lookup {env : QueryEnv} {w : Expr} {key : Str}
    (hKey : lookupKey t w = .ok (some key)) : resolveInSubqueries env db w = .ok w := by
  have hExtract : ∃ c : Column, extractPkEq c.name w = some key := by
    rw [lookupKey] at hKey
    cases hPk : t.pkColIdx with
    | none => rw [hPk] at hKey; cases hKey
    | some p =>
      rw [hPk] at hKey
      cases hCol : t.columns[p]? with
      | none => simp only [hCol] at hKey; cases hKey
      | some c =>
        simp only [hCol] at hKey
        exact ⟨c, Except.ok.inj hKey⟩
  obtain ⟨c, hKey'⟩ := hExtract
  obtain ⟨k, rfl, _⟩ := KeyEq.of_extractPkEq hKey'
  have hColumn : resolveInSubqueries env db k.column = .ok k.column := by
    have hIs := k.isColumn
    cases hCol : k.column with
    | identifier id => rfl
    | compoundIdentifier parts => rfl
    | _ => rw [hCol] at hIs; cases hIs
  have hLit : resolveInSubqueries env db (.value k.lit) = .ok (.value k.lit) := rfl
  rw [KeyEq.expr]
  split
  · rw [resolveInSubqueries, hColumn, hLit]
    rfl
  · rw [resolveInSubqueries, hColumn, hLit]
    rfl

theorem perm_sortSource (cols : List Column) (orderBy : Option OrderByKind) (rows : List Row) :
    (sortSource cols orderBy rows).Perm rows := by
  unfold sortSource
  split
  · rename_i exprs
    generalize exprs.reverse = keys
    induction keys generalizing rows with
    | nil => exact List.Perm.refl _
    | cons oe keys ih =>
      rw [List.foldl_cons]
      refine (ih _).trans ?_
      split
      · exact List.perm_insertionSort ..
      · exact List.Perm.refl _
  · exact List.Perm.refl _

/-- The lookup panics on the table, not on the condition. -/
theorem lookupKey_error {w : Expr} {fault : Fault} (h : lookupKey t w = .error fault) (w' : Expr) :
    lookupKey t w' = .error fault := by
  rw [lookupKey] at h ⊢
  cases hPk : t.pkColIdx with
  | none => rw [hPk] at h; cases h
  | some p =>
    rw [hPk] at h
    cases hCol : t.columns[p]? with
    | none => simp only [hCol] at h ⊢; exact h
    | some c => simp only [hCol] at h; cases h

theorem lookupKey_of_found {w : Expr} {idx : List Nat} (h : foundPositions now t w = .ok idx) :
    ∃ pkKey, lookupKey t w = .ok pkKey := by
  rw [foundPositions] at h
  cases hKey : lookupKey t w with
  | error fault => rw [hKey] at h; cases h
  | ok pkKey => exact ⟨pkKey, rfl⟩

theorem starRows_found {w : Expr} {idx : List Nat} (h : foundPositions now t w = .ok idx)
    (orderBy : Option OrderByKind) (limit : Option Expr) :
    starRows now t w orderBy limit = .ok (if lookupKey t w = .ok none then
      applyLimit (literalOf limit) (sortSource t.columns orderBy (elemsAt t.rows idx))
        else elemsAt t.rows idx) := by
  obtain ⟨pkKey, hKey⟩ := lookupKey_of_found h
  rw [starRows, h, hKey]
  cases pkKey with
  | none => simp only [if_true]; rfl
  | some key => rw [if_neg (by simp)]; rfl

theorem starRows_plain (w : Expr) :
    starRows now t w none none = (foundPositions now t w).map (elemsAt t.rows) := by
  cases hFound : foundPositions now t w with
  | error fault => rw [starRows, hFound]; rfl
  | ok idx =>
    rw [starRows_found hFound]
    split <;> rfl

/-- An effective LIMIT that is long enough. -/
theorem starRows_perm {w : Expr} {idx : List Nat} (h : foundPositions now t w = .ok idx)
    {limit : Option Expr}
    (hLimit : lookupKey t w = .ok none → ∀ n, literalOf limit = some n → idx.length ≤ n)
    (orderBy : Option OrderByKind) :
    ∃ rows, starRows now t w orderBy limit = .ok rows ∧ rows.Perm (elemsAt t.rows idx) := by
  refine ⟨_, starRows_found h orderBy limit, ?_⟩
  split
  · rename_i hKey
    have hAll : applyLimit (literalOf limit) (sortSource t.columns orderBy (elemsAt t.rows idx)) =
        sortSource t.columns orderBy (elemsAt t.rows idx) := by
      cases hLit : literalOf limit with
      | none => rfl
      | some n =>
        refine List.take_of_length_le ?_
        rw [(perm_sortSource _ _ _).length_eq, length_elemsAt (foundPositions_spec h).2.1]
        exact hLimit hKey n hLit
    rw [hAll]
    exact perm_sortSource _ _ _
  · exact List.Perm.refl _

/-- What DELETE leaves when the condition holds for the rows found. -/
theorem deleted_of_same {w w' : Expr} {idx : List Nat}
    (hResolve : resolveInSubqueries (e.env now) db w = .ok w')
    (hFound : foundPositions now t w' = .ok idx)
    (hSame : lookupKey t w = .ok none → ∀ i r, t.rows[i]? = some r →
      ∃ b, evalWhere now r t.columns w = .ok b ∧ (b = true ↔ takes now t w' i r)) :
    ∃ res t', (deleteTable now (some w)).exec t = (.ok res, t') ∧
      (elemsAt t.rows idx ++ t'.rows).Perm t.rows := by
  obtain ⟨hNodup, hIn, hTakes⟩ := foundPositions_spec hFound
  cases hKey : lookupKey t w with
  | error fault =>
    obtain ⟨pkKey, hKey'⟩ := lookupKey_of_found hFound
    rw [lookupKey_error hKey w'] at hKey'
    cases hKey'
  | ok pkKey =>
    cases pkKey with
    | some key =>
      obtain rfl : w = w' := Except.ok.inj ((resolveInSubqueries_lookup hKey).symm.trans hResolve)
      have hIdx : ((t.pkIndex.get key).filter (· < t.rows.length)).toList = idx := by
        rw [foundPositions, hKey] at hFound
        exact Except.ok.inj hFound
      obtain ⟨n, t', hExec, hPerm⟩ := exec_deleteTable_lookup now hKey
      exact ⟨_, t', hExec, hIdx ▸ hPerm⟩
    | none =>
      have hRows : ∀ r ∈ t.rows, evalWhere now r t.columns w =
          .ok (decide (evalWhere now r t.columns w = .ok true)) := by
        intro r hr
        obtain ⟨i, hGet⟩ := List.mem_iff_getElem?.1 hr
        obtain ⟨b, hb, _⟩ := hSame hKey i r hGet
        rw [hb]
        cases b <;> rfl
      obtain ⟨n, t', hExec, hLeft⟩ := exec_deleteTable_scan hKey hRows
      refine ⟨_, t', hExec, ?_⟩
      rw [hLeft]
      refine (elemsAt_perm_iff hNodup hIn).2 fun i r hGet => ?_
      obtain ⟨b, hb, hIff⟩ := hSame hKey i r hGet
      rw [hTakes i r hGet, ← hIff, hb, decide_eq_true_eq, Except.ok.injEq]

/-- What UPDATE makes of the rows when the condition holds for the rows found. -/
theorem updated_of_same {w w' : Expr} {idx : List Nat} (assignments : List Assignment)
    (hResolve : resolveInSubqueries (e.env now) db w = .ok w')
    (hFound : foundPositions now t w' = .ok idx)
    (hSame : lookupKey t w = .ok none → ∀ i r, t.rows[i]? = some r →
      ∃ b, evalWhere now r t.columns w = .ok b ∧ (b = true ↔ takes now t w' i r)) :
    ((∃ res, ((updateTable now assignments (some w)).exec t).1 = .ok res) ↔
        ∀ i r, t.rows[i]? = some r → takes now t w' i r →
          ((assignAll now t.columns assignments).exec r).1 = .ok ()) ∧
      ((∃ res, ((updateTable now assignments (some w)).exec t).1 = .ok res) →
        ((updateTable now assignments (some w)).exec t).2.rows = t.rows.mapIdx fun i r =>
          if i ∈ idx then assigned now t.columns assignments r else r) := by
  obtain ⟨hNodup, hIn, hTakes⟩ := foundPositions_spec hFound
  cases hKey : lookupKey t w with
  | error fault =>
    obtain ⟨pkKey, hKey'⟩ := lookupKey_of_found hFound
    rw [lookupKey_error hKey w'] at hKey'
    cases hKey'
  | ok pkKey =>
    cases pkKey with
    | some key =>
      obtain rfl : w = w' := Except.ok.inj ((resolveInSubqueries_lookup hKey).symm.trans hResolve)
      have hEntry : ∀ i r, takes now t w i r ↔ t.pkIndex.get key = some i := by
        intro i r
        rw [takes, hKey]
      obtain ⟨hOut, hRows⟩ := exec_updateTable_lookup now hKey assignments
      refine ⟨?_, fun _ => ?_⟩
      · rw [hOut]
        simp only [hEntry]
      · rw [hRows]
        refine List.ext_getElem? fun i => ?_
        rw [List.getElem?_mapIdx, List.getElem?_mapIdx]
        cases hGet : t.rows[i]? with
        | none => rfl
        | some r => simp only [Option.map_some, hTakes i r hGet, hEntry]
    | none =>
      have hRows : ∀ r ∈ t.rows, evalWhere now r t.columns w =
          .ok (decide (evalWhere now r t.columns w = .ok true)) := by
        intro r hr
        obtain ⟨i, hGet⟩ := List.mem_iff_getElem?.1 hr
        obtain ⟨b, hb, _⟩ := hSame hKey i r hGet
        rw [hb]
        cases b <;> rfl
      have hHolds : ∀ i r, t.rows[i]? = some r →
          (decide (evalWhere now r t.columns w = .ok true) = true ↔ takes now t w' i r) := by
        intro i r hGet
        obtain ⟨b, hb, hIff⟩ := hSame hKey i r hGet
        rw [← hIff, hb, decide_eq_true_eq, Except.ok.injEq]
      obtain ⟨hOut, hLeft⟩ := exec_updateTable_scan hKey hRows assignments
      refine ⟨?_, fun hOk => ?_⟩
      · rw [hOut]
        constructor
        · intro hAssign i r hGet hTake
          exact hAssign r (List.mem_of_getElem? hGet) ((hHolds i r hGet).2 hTake)
        · intro hAssign r hr hb
          obtain ⟨i, hGet⟩ := List.mem_iff_getElem?.1 hr
          exact hAssign i r hGet ((hHolds i r hGet).1 hb)
      · rw [hLeft hOk]
        refine List.ext_getElem? fun i => ?_
        rw [List.getElem?_map, List.getElem?_mapIdx]
        cases hGet : t.rows[i]? with
        | none => rfl
        | some r =>
          have hIff := (hHolds i r hGet).trans (hTakes i r hGet).symm
          exact congrArg some (if_congr hIff rfl rfl)

/-- **One selection.** SELECT, DELETE and UPDATE with one WHERE clause work on
the same rows exactly when the clause as it is written holds for the rows that
SELECT takes and an effective LIMIT lets them all through. -/
theorem selectionAgrees_iff (now : Nat) (currentDb : Option Str) (e : Engine) (name : ObjectName)
    (db table : Str) (t : Table)
    (hTarget : resolveName (dbOrTest currentDb) (ObjectName.toString name) = (db, table))
    (hTable : findTable e.databases db table [] [] = .ok t) (w : Expr)
    (assignments : List Assignment) (orderBy : List OrderByExpr) (limit : Option Expr) :
    SelectionAgrees now currentDb e name db table t w assignments orderBy limit ↔
      SameSelection now e db t w assignments limit := by
  constructor
  · rintro ⟨⟨w', rows, t', hResolve, hRows, hLeaves, hPerm⟩,
      ⟨w₂, rows₂, t₂, hResolve₂, hRows₂, hLeaves₂, hPerm₂⟩,
      ⟨w₃, idx, t₃, hResolve₃, hFound, hLeaves₃, _⟩⟩
    obtain rfl : w' = w₂ := Except.ok.inj (hResolve.symm.trans hResolve₂)
    obtain rfl : w' = w₃ := Except.ok.inj (hResolve.symm.trans hResolve₃)
    obtain ⟨⟨res, hOut⟩, rfl⟩ := (leaves_deleteFrom hTarget hTable w [] none t').1 hLeaves
    obtain ⟨_, rfl⟩ := (leaves_deleteFrom hTarget hTable w orderBy limit t₂).1 hLeaves₂
    obtain ⟨hUpdated, _⟩ := (leaves_updateWhere hTarget hTable assignments w t₃).1 hLeaves₃
    obtain ⟨hNodup, hIn, hTakes⟩ := foundPositions_spec hFound
    rw [starRows_plain, hFound] at hRows
    obtain rfl : elemsAt t.rows idx = rows := Except.ok.inj hRows
    have hSame : lookupKey t w = .ok none → ∀ i r, t.rows[i]? = some r →
        ∃ b, evalWhere now r t.columns w = .ok b ∧ (b = true ↔ takes now t w' i r) := by
      intro hKey
      have hDecided := decided_of_deleteTable hKey hOut
      have hHolds : ∀ r ∈ t.rows, evalWhere now r t.columns w =
          .ok (decide (evalWhere now r t.columns w = .ok true)) := by
        intro r hr
        obtain ⟨b, hb⟩ := hDecided r hr
        rw [hb]
        cases b <;> rfl
      obtain ⟨n, t', hExec, hLeft⟩ := exec_deleteTable_scan hKey hHolds
      rw [hExec, hLeft] at hPerm
      intro i r hGet
      refine ⟨_, hHolds r (List.mem_of_getElem? hGet), ?_⟩
      rw [← (elemsAt_perm_iff hNodup hIn).1 hPerm i r hGet, hTakes i r hGet]
    refine ⟨w', idx, hResolve, hFound, hSame, fun hKey' n hLimit => ?_, ?_⟩
    · rw [starRows_found hFound, if_pos hKey', hLimit] at hRows₂
      have hLength := (hPerm₂.trans hPerm.symm).length_eq
      rw [List.length_append, List.length_append, length_elemsAt hIn, ← Except.ok.inj hRows₂,
        applyLimit, Option.elim_some, List.length_take, (perm_sortSource _ _ _).length_eq,
        length_elemsAt hIn] at hLength
      omega
    · exact (updated_of_same assignments hResolve hFound hSame).1.1 hUpdated
  · rintro ⟨w', idx, hResolve, hFound, hSame, hLimit, hAssign⟩
    obtain ⟨res, t', hExec, hPerm⟩ := deleted_of_same hResolve hFound hSame
    obtain ⟨hOut, hRows⟩ := updated_of_same assignments hResolve hFound hSame
    have hLeaves : ∀ orderBy limit, Leaves now currentDb e (deleteFrom name w orderBy limit) db table t' := by
      intro orderBy limit
      refine (leaves_deleteFrom hTarget hTable w orderBy limit t').2 ?_
      rw [hExec]
      exact ⟨⟨res, rfl⟩, rfl⟩
    obtain ⟨rows, hStar, hTaken⟩ := starRows_perm hFound hLimit (some (.expressions orderBy))
    refine ⟨⟨w', elemsAt t.rows idx, t', hResolve, ?_, hLeaves [] none, hPerm⟩,
      ⟨w', rows, t', hResolve, hStar, hLeaves orderBy limit, (hTaken.append_right _).trans hPerm⟩,
      ⟨w', idx, _, hResolve, hFound, ?_, hRows (hOut.2 hAssign)⟩⟩
    · rw [starRows_plain, hFound]
      rfl
    · exact (leaves_updateWhere hTarget hTable assignments w _).2 ⟨hOut.2 hAssign, rfl⟩

end RowSelection

-- ---------------------------------------------------------------------------
-- A subquery that DELETE does not replace
-- ---------------------------------------------------------------------------

section Subquery

local instance rowSelectionPlatform : Platform := tablePlatform []

/-- A table `t` with one column `a`. -/
def tableA (rows : List Row) : Table :=
  { Table.create "test" "t" [⟨"a", .float, true, false⟩] [] with rows := rows }

/-- An engine whose database `test` has that table. -/
def oneTable (rows : List Row) : Engine where
  databases := HashMap.ofList [("test", ⟨"test", HashMap.ofList [("t", tableA rows)]⟩)]
  users := HashMap.empty
  writeGen := 0
  lastInsertId := 0
  stmtCache := HashMap.empty

def nameT : ObjectName := [⟨"t", none⟩]

theorem findTable_oneTable (rows : List Row) :
    findTable (oneTable rows).databases "test" "t" [] [] = .ok (tableA rows) := rfl

theorem resolveName_nameT :
    resolveName (dbOrTest none) (ObjectName.toString nameT) = (("test" : Str), ("t" : Str)) := by
  decide +kernel

theorem selectionAgrees_iff_one :
    SelectionAgrees 0 none (oneTable [[.int 1], [.int 2]]) nameT "test" "t"
        (tableA [[.int 1], [.int 2]]) (cellEquals "1") [] [] none ↔
      SameSelection 0 (oneTable [[.int 1], [.int 2]]) "test" (tableA [[.int 1], [.int 2]])
        (cellEquals "1") [] none :=
  selectionAgrees_iff 0 none (oneTable [[.int 1], [.int 2]]) nameT "test" "t"
    (tableA [[.int 1], [.int 2]]) resolveName_nameT (findTable_oneTable _) (cellEquals "1") [] [] none

/-- `a IN (SELECT * FROM t WHERE a = 1)`. -/
def inSelect : Expr :=
  .inSubquery (.identifier ⟨"a", none⟩) (starQuery nameT (cellEquals "1") none none) false

/-- DELETE with an IN subquery removes every row. -/
theorem not_selectionAgrees :
    ¬ ∀ (now : Nat) (currentDb : Option Str) (e : Engine) (name : ObjectName) (db table : Str)
      (t : Table), resolveName (dbOrTest currentDb) (ObjectName.toString name) = (db, table) →
        findTable e.databases db table [] [] = .ok t → ∀ (w : Expr) (assignments : List Assignment)
          (orderBy : List OrderByExpr) (limit : Option Expr),
          SelectionAgrees now currentDb e name db table t w assignments orderBy limit := by
  intro hAll
  have hFound := findTable_oneTable [[.int 1], [.int 2]]
  obtain ⟨w', rows, t', hResolve, hRows, hLeaves, hPerm⟩ :=
    (hAll 0 none (oneTable [[.int 1], [.int 2]]) nameT "test" "t" _ resolveName_nameT hFound inSelect
      [] [] none).delete
  obtain ⟨_, rfl⟩ := (leaves_deleteFrom resolveName_nameT hFound inSelect [] none t').1 hLeaves
  have hSelected : ((resolveInSubqueries ((oneTable [[.int 1], [.int 2]]).env 0) "test" inSelect).bind
      fun w' => (starRows 0 (tableA [[.int 1], [.int 2]]) w' none none).map List.length) = .ok 1 := by
    decide +kernel
  have hLeft : ((deleteTable 0 (some inSelect)).exec (tableA [[.int 1], [.int 2]])).2.rows = [] := by
    decide +kernel
  rw [hResolve] at hSelected
  simp only [Except.bind, hRows] at hSelected
  have hLength := hPerm.length_eq
  rw [hLeft, List.append_nil, Except.ok.inj hSelected] at hLength
  cases hLength

end Subquery

end RunAlexDb
