import Mathlib.Data.List.Induction
import Mathlib.Data.List.Lookmap
import Mathlib.Data.List.Nodup

/-!
# Map — finite maps that remember an iteration order

`HashMap κ α` is a list of entries with pairwise different keys. A Rust
`HashMap` promises no iteration order; here the order is that of the entries: a
new key goes last, and an update in place moves nothing.

Main results: the value of every operation at every key (`get_insert`,
`get_remove`, `get_modify`, `get_mapValues`).
-/

/-- A finite map: entries with pairwise different keys. -/
structure HashMap (κ : Type) (α : Type) where
  entries : List (κ × α)
  nodup : (entries.map Prod.fst).Nodup

namespace HashMap

variable {κ α β : Type} [DecidableEq κ]

instance [DecidableEq α] : DecidableEq (HashMap κ α) := fun m n =>
  decidable_of_iff (m.entries = n.entries) ⟨fun h => by cases m; cases n; simp_all, fun h => by rw [h]⟩

def empty : HashMap κ α := ⟨[], by simp⟩

instance : Inhabited (HashMap κ α) := ⟨empty⟩

def keys (m : HashMap κ α) : List κ := m.entries.map Prod.fst

def values (m : HashMap κ α) : List α := m.entries.map Prod.snd

def size (m : HashMap κ α) : Nat := m.entries.length

def get (m : HashMap κ α) (k : κ) : Option α := (m.entries.find? fun p => p.1 = k).map Prod.snd

def containsKey (m : HashMap κ α) (k : κ) : Bool := (m.get k).isSome

/-- Apply `f` to the value of every entry, the key given. -/
def mapValues (f : κ → α → β) (m : HashMap κ α) : HashMap κ β :=
  ⟨m.entries.map fun p => (p.1, f p.1 p.2), by simpa [List.map_map, Function.comp_def] using m.nodup⟩

/-- Change the value at `k` in place; no effect when the key is absent. -/
def modify (m : HashMap κ α) (k : κ) (f : α → α) : HashMap κ α :=
  m.mapValues fun k' a => if k' = k then f a else a

omit [DecidableEq κ] in
theorem keys_nodup (m : HashMap κ α) : m.keys.Nodup := m.nodup

theorem get_eq_some_iff {m : HashMap κ α} {k : κ} {a : α} :
    m.get k = some a ↔ (k, a) ∈ m.entries := by
  constructor
  · intro h
    obtain ⟨p, hp, rfl⟩ := Option.map_eq_some_iff.mp h
    have hKey : p.1 = k := by simpa using List.find?_some hp
    have hMem := List.mem_of_find?_eq_some hp
    rwa [← hKey]
  · intro hMem
    have hSome : (m.entries.find? fun p => p.1 = k).isSome := by
      rw [List.find?_isSome]
      exact ⟨(k, a), hMem, by simp⟩
    obtain ⟨p, hp⟩ := Option.isSome_iff_exists.mp hSome
    have hKey : p.1 = k := by simpa using List.find?_some hp
    have hIn : (k, p.2) ∈ m.entries := by
      rw [← hKey]; exact List.mem_of_find?_eq_some hp
    have hEq : p.2 = a := by
      have := List.inj_on_of_nodup_map m.nodup hIn hMem rfl
      simpa using this
    simp [get, hp, hEq]

theorem containsKey_iff {m : HashMap κ α} {k : κ} : m.containsKey k = true ↔ k ∈ m.keys := by
  rw [containsKey, Option.isSome_iff_exists]
  simp only [get_eq_some_iff, keys, List.mem_map, Prod.exists, exists_and_right, exists_eq_right]

theorem get_eq_none_iff {m : HashMap κ α} {k : κ} : m.get k = none ↔ k ∉ m.keys := by
  rw [← containsKey_iff, containsKey]; simp

@[simp] theorem get_empty (k : κ) : (empty : HashMap κ α).get k = none := rfl

omit [DecidableEq κ] in
@[simp] theorem keys_mapValues (f : κ → α → β) (m : HashMap κ α) :
    (m.mapValues f).keys = m.keys := by
  simp [keys, mapValues, Function.comp_def]

@[simp] theorem get_mapValues (f : κ → α → β) (m : HashMap κ α) (k : κ) :
    (m.mapValues f).get k = (m.get k).map (f k) := by
  cases h : m.get k with
  | none =>
    rw [get_eq_none_iff] at h
    rw [Option.map_none, get_eq_none_iff, keys_mapValues]
    exact h
  | some a =>
    rw [get_eq_some_iff] at h
    rw [Option.map_some, get_eq_some_iff]
    exact List.mem_map.mpr ⟨(k, a), h, rfl⟩

@[simp] theorem get_modify (m : HashMap κ α) (k k' : κ) (f : α → α) :
    (m.modify k f).get k' = if k' = k then (m.get k').map f else m.get k' := by
  rw [modify, get_mapValues]
  split <;> simp_all

@[simp] theorem keys_modify (m : HashMap κ α) (k : κ) (f : α → α) : (m.modify k f).keys = m.keys :=
  keys_mapValues _ _

/-- `HashMap::insert`: replaces the value of a known key in place. -/
def insert (m : HashMap κ α) (k : κ) (a : α) : HashMap κ α :=
  if h : k ∈ m.keys then m.modify k fun _ => a
  else ⟨m.entries ++ [(k, a)], by
    rw [List.map_append, List.nodup_append]
    refine ⟨m.nodup, by simp, ?_⟩
    intro x hx y hy
    have hy : y = k := by simpa using hy
    intro hxy
    exact h (by rw [← hy, ← hxy]; exact hx)⟩

@[simp] theorem get_insert (m : HashMap κ α) (k k' : κ) (a : α) :
    (m.insert k a).get k' = if k' = k then some a else m.get k' := by
  rw [insert]
  split
  · next h =>
    rw [get_modify]
    split
    · next hk =>
      subst hk
      rw [← containsKey_iff, containsKey, Option.isSome_iff_exists] at h
      obtain ⟨b, hb⟩ := h
      simp [hb]
    · rfl
  · next h =>
    have hFind : ∀ l : List (κ × α), (l ++ [(k, a)]).find? (fun p => p.1 = k') =
        (l.find? fun p => p.1 = k').or (if k' = k then some (k, a) else none) := by
      intro l
      rw [List.find?_append]
      by_cases hk : k' = k
      · simp [hk]
      · simp [hk, Ne.symm hk]
    rw [get, hFind]
    by_cases hk : k' = k
    · subst hk
      have hNone := get_eq_none_iff.mpr h
      rw [get, Option.map_eq_none_iff] at hNone
      simp [hNone]
    · simp [hk, get]

@[simp] theorem mem_keys_insert {m : HashMap κ α} {k k' : κ} {a : α} :
    k' ∈ (m.insert k a).keys ↔ k' = k ∨ k' ∈ m.keys := by
  rw [← containsKey_iff, ← containsKey_iff, containsKey, containsKey, get_insert]
  split <;> simp_all

/-- `HashMap::remove`, without the value. -/
def remove (m : HashMap κ α) (k : κ) : HashMap κ α :=
  ⟨m.entries.filter fun p => p.1 ≠ k, by
    have hSub : ((m.entries.filter fun p => p.1 ≠ k).map Prod.fst).Sublist (m.entries.map Prod.fst) :=
      List.filter_sublist.map _
    exact hSub.nodup m.nodup⟩

@[simp] theorem get_remove (m : HashMap κ α) (k k' : κ) :
    (m.remove k).get k' = if k' = k then none else m.get k' := by
  by_cases hk : k' = k
  · rw [if_pos hk, get_eq_none_iff]
    simp [keys, remove, hk]
  · rw [if_neg hk]
    ext a
    rw [get_eq_some_iff, get_eq_some_iff]
    simp [remove, hk]

/-- `HashMap::retain`. -/
def retain (f : κ → α → Bool) (m : HashMap κ α) : HashMap κ α :=
  ⟨m.entries.filter fun p => f p.1 p.2, by
    have hSub : ((m.entries.filter fun p => f p.1 p.2).map Prod.fst).Sublist
        (m.entries.map Prod.fst) := List.filter_sublist.map _
    exact hSub.nodup m.nodup⟩

@[simp] theorem get_retain (f : κ → α → Bool) (m : HashMap κ α) (k : κ) :
    (m.retain f).get k = (m.get k).filter (f k) := by
  ext a
  rw [get_eq_some_iff, Option.filter_eq_some_iff, get_eq_some_iff]
  exact List.mem_filter

/-- Build a map entry by entry, later entries winning. -/
def ofList (l : List (κ × α)) : HashMap κ α := l.foldl (fun m p => m.insert p.1 p.2) empty

/-- A key of `l ++ [p]` has the value of `p` when it is the key of `p`, else that of `l`. -/
theorem get_ofList_append_one (l : List (κ × α)) (p : κ × α) (k : κ) :
    (ofList (l ++ [p])).get k = if k = p.1 then some p.2 else (ofList l).get k := by
  rw [ofList, List.foldl_append, List.foldl_cons, List.foldl_nil, get_insert]
  rfl

/-- An entry of the map comes from the list. -/
theorem mem_of_get_ofList {l : List (κ × α)} {k : κ} {a : α} (h : (ofList l).get k = some a) :
    (k, a) ∈ l := by
  induction l using List.reverseRecOn with
  | nil => cases h
  | append_singleton l p ih =>
    rw [get_ofList_append_one] at h
    split at h
    · rename_i hKey
      obtain rfl := Option.some.inj h
      rw [hKey]
      exact List.mem_append_right _ (List.mem_singleton_self _)
    · exact List.mem_append_left _ (ih h)

/-- The keys of the list are keys of the map. -/
theorem isSome_get_ofList {l : List (κ × α)} {k : κ} {a : α} (h : (k, a) ∈ l) :
    ((ofList l).get k).isSome = true := by
  induction l using List.reverseRecOn with
  | nil => cases h
  | append_singleton l p ih =>
    rw [get_ofList_append_one]
    split
    · rfl
    · rename_i hKey
      rcases List.mem_append.1 h with hOld | hNew
      · exact ih hOld
      · obtain rfl := List.mem_singleton.1 hNew
        exact absurd rfl hKey

omit [DecidableEq κ] in
/-- Two maps with the same entries are equal. -/
theorem ext_entries {m n : HashMap κ α} (h : m.entries = n.entries) : m = n := by
  cases m; cases n; simp_all

theorem mapValues_insert (f : κ → α → β) (m : HashMap κ α) (k : κ) (a : α) :
    (m.insert k a).mapValues f = (m.mapValues f).insert k (f k a) := by
  refine ext_entries ?_
  by_cases hIn : k ∈ m.keys
  · have hIn' : k ∈ (m.mapValues f).keys := by rwa [keys_mapValues]
    rw [insert, insert, dif_pos hIn, dif_pos hIn']
    show List.map _ (List.map _ _) = List.map _ (List.map _ _)
    rw [List.map_map, List.map_map]
    refine List.map_congr_left fun p _ => ?_
    by_cases hKey : p.1 = k
    · simp [hKey]
    · simp [hKey]
  · have hIn' : k ∉ (m.mapValues f).keys := by rwa [keys_mapValues]
    rw [insert, insert, dif_neg hIn, dif_neg hIn']
    show List.map _ (m.entries ++ [(k, a)]) = List.map _ m.entries ++ [(k, f k a)]
    rw [List.map_append]
    rfl

/-- A change that changes nothing. -/
theorem modify_eq_self {m : HashMap κ α} {k : κ} {f : α → α}
    (h : ∀ a, m.get k = some a → f a = a) : m.modify k f = m := by
  refine ext_entries ?_
  show m.entries.map _ = m.entries
  refine (List.map_congr_left fun p hp => ?_).trans (List.map_id _)
  by_cases hKey : p.1 = k
  · have hGet : m.get k = some p.2 := get_eq_some_iff.2 (by rw [← hKey]; exact hp)
    simp only [hKey, if_true, h _ hGet, id]
    rw [← hKey]
  · simp only [if_neg hKey, id]

/-- The removal of a missing key. -/
theorem remove_eq_self {m : HashMap κ α} {k : κ}
    (h : m.get k = none) : m.remove k = m := by
  refine ext_entries ?_
  show m.entries.filter _ = m.entries
  rw [List.filter_eq_self]
  intro p hp
  rw [get_eq_none_iff] at h
  have hNe : p.1 ≠ k := fun hKey => h (by rw [← hKey]; exact List.mem_map_of_mem hp)
  simpa using hNe

end HashMap

/-- A finite set, as a map to the one-point type. -/
abbrev HashSet (κ : Type) := HashMap κ Unit

namespace HashSet

variable {κ : Type} [DecidableEq κ]

def contains (s : HashSet κ) (k : κ) : Bool := HashMap.containsKey s k

def add (s : HashSet κ) (k : κ) : HashSet κ := HashMap.insert s k ()

end HashSet
