import Mathlib.Order.Lattice
import Mathlib.Data.List.Perm.Subperm
import Mathlib.Data.List.Pairwise

/-!
# Bounded sorted tables

A table keeps at most a fixed number of rows in the strict order of their keys, as a
vector searched by bisection does.  An insertion into a full table fails.
-/

namespace HnsDaneEngine.Data

universe u v

/-- Bounded rows in the order of their keys. -/
structure SortedTable (κ : Type u) [LinearOrder κ] (α : Type v) (capacity : Nat) where
  rows : List (κ × α)
  sorted : rows.Pairwise fun first second => first.1 < second.1
  bounded : rows.length ≤ capacity
  deriving DecidableEq

namespace SortedTable

variable {κ : Type u} [LinearOrder κ] {α : Type v} {capacity : Nat}

def empty : SortedTable κ α capacity :=
  ⟨[], List.Pairwise.nil, Nat.zero_le capacity⟩

/-- The value found by a search for the key. -/
def lookup (table : SortedTable κ α capacity) (key : κ) : Option α :=
  table.rows.lookup key

theorem lookup_cons_eq (key : κ) (row : κ × α) (rows : List (κ × α)) :
    (row :: rows).lookup key = if key = row.1 then some row.2 else rows.lookup key := by
  rcases row with ⟨other, value⟩
  rw [List.lookup_cons]
  by_cases equal : key = other
  · simp [equal]
  · rw [beq_false_of_ne equal, if_neg equal]

/-- The rows with one more in its place; an equal key is overwritten. -/
def insertRow (key : κ) (value : α) : List (κ × α) → List (κ × α)
  | [] => [(key, value)]
  | row :: rows =>
    if key < row.1 then (key, value) :: row :: rows
    else if key = row.1 then (key, value) :: rows
    else row :: insertRow key value rows

variable {key : κ} {value : α} {rows : List (κ × α)} {table : SortedTable κ α capacity}

theorem mem_insertRow {row : κ × α} (mem : row ∈ insertRow key value rows) :
    row = (key, value) ∨ row ∈ rows := by
  induction rows with
  | nil => exact .inl (List.mem_singleton.mp mem)
  | cons head rows ih =>
    unfold insertRow at mem
    split_ifs at mem with below equal
    · rcases List.mem_cons.mp mem with isNew | old
      · exact .inl isNew
      · exact .inr old
    · rcases List.mem_cons.mp mem with isNew | old
      · exact .inl isNew
      · exact .inr (List.mem_cons_of_mem head old)
    · rcases List.mem_cons.mp mem with rfl | deeper
      · exact .inr List.mem_cons_self
      · rcases ih deeper with isNew | old
        · exact .inl isNew
        · exact .inr (List.mem_cons_of_mem head old)

theorem sorted_insertRow (key : κ) (value : α)
    (sorted : rows.Pairwise fun first second => first.1 < second.1) :
    (insertRow key value rows).Pairwise fun first second => first.1 < second.1 := by
  induction rows with
  | nil => exact List.pairwise_singleton _ _
  | cons row rows ih =>
    rw [List.pairwise_cons] at sorted
    unfold insertRow
    split_ifs with below equal
    · rw [List.pairwise_cons]
      constructor
      · intro other mem
        rcases List.mem_cons.mp mem with rfl | inRest
        · exact below
        · exact below.trans (sorted.1 other inRest)
      · exact List.pairwise_cons.mpr sorted
    · rw [List.pairwise_cons]
      constructor
      · intro other mem
        rw [equal]
        exact sorted.1 other mem
      · exact sorted.2
    · rw [List.pairwise_cons]
      constructor
      · intro other mem
        rcases mem_insertRow mem with rfl | old
        · exact lt_of_le_of_ne (not_lt.mp below) (Ne.symm equal)
        · exact sorted.1 other old
      · exact ih sorted.2

theorem length_insertRow_le (key : κ) (value : α) (rows : List (κ × α)) :
    (insertRow key value rows).length ≤ rows.length + 1 := by
  induction rows with
  | nil => exact le_rfl
  | cons row rows ih =>
    unfold insertRow
    split_ifs
    · exact le_rfl
    · exact Nat.le_succ _
    · exact Nat.succ_le_succ ih

theorem lookup_insertRow (key : κ) (value : α) (rows : List (κ × α)) (other : κ) :
    (insertRow key value rows).lookup other =
      if other = key then some value else rows.lookup other := by
  induction rows with
  | nil => exact lookup_cons_eq other (key, value) []
  | cons row rows ih =>
    unfold insertRow
    split
    next => exact lookup_cons_eq other (key, value) (row :: rows)
    next =>
      split
      next equal =>
        rw [lookup_cons_eq, lookup_cons_eq, ← equal]
        split <;> rfl
      next ne =>
        rw [lookup_cons_eq, lookup_cons_eq, ih]
        by_cases isKey : other = key
        · rw [if_pos isKey, if_pos isKey, isKey, if_neg ne]
        · rw [if_neg isKey, if_neg isKey]

theorem length_insertRow_of_absent (absent : rows.lookup key = none) :
    (insertRow key value rows).length = rows.length + 1 := by
  induction rows with
  | nil => rfl
  | cons row rows ih =>
    rw [lookup_cons_eq] at absent
    by_cases equal : key = row.1
    · rw [if_pos equal] at absent
      cases absent
    rw [if_neg equal] at absent
    unfold insertRow
    rw [if_neg equal]
    split
    next => rfl
    next => rw [List.length_cons, List.length_cons, ih absent]

/-- A row more, unless the table is full. -/
def insert? (table : SortedTable κ α capacity) (key : κ) (value : α) :
    Option (SortedTable κ α capacity) :=
  if room : table.rows.length < capacity then
    some ⟨insertRow key value table.rows, sorted_insertRow key value table.sorted,
      (length_insertRow_le key value table.rows).trans room⟩
  else none

theorem lookup_insert? {inserted : SortedTable κ α capacity}
    (fits : table.insert? key value = some inserted) (other : κ) :
    inserted.lookup other = if other = key then some value else table.lookup other := by
  unfold insert? at fits
  split at fits
  next =>
    cases fits
    exact lookup_insertRow key value table.rows other
  next => cases fits

theorem insert?_of_room (value : α) (room : table.rows.length < capacity)
    (absent : table.lookup key = none) :
    ∃ inserted, table.insert? key value = some inserted ∧
      inserted.rows.length = table.rows.length + 1 :=
  ⟨_, dif_pos room, length_insertRow_of_absent absent⟩

theorem insert?_of_full (key : κ) (value : α) (full : capacity ≤ table.rows.length) :
    table.insert? key value = none :=
  dif_neg (not_lt.mpr full)

theorem mem_keys_of_lookup (present : (rows.lookup key).isSome) : key ∈ rows.map Prod.fst := by
  induction rows with
  | nil => cases present
  | cons row rows ih =>
    rw [lookup_cons_eq] at present
    rw [List.map_cons, List.mem_cons]
    by_cases equal : key = row.1
    · exact .inl equal
    · rw [if_neg equal] at present
      exact .inr (ih present)

/-- Distinct keys that a table has need as many rows. -/
theorem length_le_of_present {keys : List κ} (distinct : keys.Nodup)
    (present : ∀ key ∈ keys, (table.lookup key).isSome) :
    keys.length ≤ table.rows.length := by
  have contained : keys ⊆ table.rows.map Prod.fst :=
    fun key mem => mem_keys_of_lookup (present key mem)
  have shorter := (List.subperm_of_subset distinct contained).length_le
  rwa [List.length_map] at shorter

theorem sorted_map (change : κ × α → κ × α) (keys : ∀ row, (change row).1 = row.1)
    (sorted : rows.Pairwise fun first second => first.1 < second.1) :
    (rows.map change).Pairwise fun first second => first.1 < second.1 := by
  rw [List.pairwise_map]
  apply sorted.imp
  intro first second below
  rw [keys, keys]
  exact below

/-- Change every value, with the key at hand. -/
def mapRows (change : κ → α → α) (table : SortedTable κ α capacity) :
    SortedTable κ α capacity where
  rows := table.rows.map fun row => (row.1, change row.1 row.2)
  sorted := sorted_map (fun row => (row.1, change row.1 row.2)) (fun _ => rfl) table.sorted
  bounded := (List.length_map _).trans_le table.bounded

@[simp]
theorem length_mapRows (change : κ → α → α) (table : SortedTable κ α capacity) :
    (table.mapRows change).rows.length = table.rows.length :=
  List.length_map _

@[simp]
theorem lookup_mapRows (change : κ → α → α) (table : SortedTable κ α capacity) (key : κ) :
    (table.mapRows change).lookup key = (table.lookup key).map (change key) := by
  change (table.rows.map fun row => (row.1, change row.1 row.2)).lookup key =
    (table.rows.lookup key).map (change key)
  induction table.rows with
  | nil => rfl
  | cons row rows ih =>
    rw [List.map_cons, lookup_cons_eq, lookup_cons_eq]
    by_cases equal : key = row.1
    · simp [equal]
    · rw [if_neg equal, if_neg equal, ih]

/-- Change the value under one key. -/
def modify (key : κ) (change : α → α) (table : SortedTable κ α capacity) :
    SortedTable κ α capacity :=
  table.mapRows fun other value => if other = key then change value else value

theorem lookup_modify (key : κ) (change : α → α) (table : SortedTable κ α capacity) (other : κ) :
    (table.modify key change).lookup other =
      if other = key then (table.lookup other).map change else table.lookup other := by
  rw [modify, lookup_mapRows]
  by_cases equal : other = key
  · simp [equal]
  · simp [equal]

end SortedTable

end HnsDaneEngine.Data
