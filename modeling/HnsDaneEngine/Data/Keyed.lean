import Mathlib.Algebra.BigOperators.Group.List.Basic
import Mathlib.Algebra.GroupWithZero.Nat
import Mathlib.Data.List.AList

/-!
# Keyed stores

Association lists with distinct keys as weighted stores: what removing and adding
one key does to the number of entries, to the total weight and to a property of
pairs of entries that does not depend on their order.
-/

namespace HnsDaneEngine.Data

universe u v

variable {κ : Type u} {α : Type v}

/-- A finite map from keys to values. -/
abbrev Store (κ : Type u) (α : Type v) : Type (max u v) :=
  AList fun _ : κ => α

namespace Store

/-- Number of entries. -/
def size (store : Store κ α) : Nat :=
  store.entries.length

/-- Sum of the weights of all entries. -/
def total (weight : α → Nat) (store : Store κ α) : Nat :=
  (store.entries.map fun entry => weight entry.2).sum

variable [DecidableEq κ]

/-- Inserting is a pointwise update of the lookup. -/
theorem lookup_insert_eq_update (store : Store κ α) (key : κ) (value : α) :
    (fun other => (store.insert key value).lookup other) =
      Function.update (fun other => store.lookup other) key (some value) := by
  funext other
  by_cases same : other = key
  · subst same
    rw [AList.lookup_insert, Function.update_self]
  · rw [AList.lookup_insert_ne same, Function.update_of_ne same]

variable {store : Store κ α} {key : κ} {value : α}

/-- A resident entry can be moved to the front. -/
theorem entries_perm_cons_erase (found : store.lookup key = some value) :
    store.entries.Perm (⟨key, value⟩ :: (store.erase key).entries) := by
  have resident : key ∈ store := AList.lookup_isSome.mp (by simp [found])
  obtain ⟨other, front, back, absent, entries_eq, erase_eq⟩ := List.exists_of_kerase resident
  have stored : (⟨key, value⟩ : Sigma fun _ : κ => α) ∈ store.entries :=
    AList.mem_lookup_iff.mp found
  have other_eq : other = value := by
    have named : (⟨key, other⟩ : Sigma fun _ : κ => α) ∈ store.entries := by
      rw [entries_eq]
      simp
    have lookup_other : store.lookup key = some other := AList.mem_lookup_iff.mpr named
    rw [found] at lookup_other
    exact (Option.some.inj lookup_other).symm
  subst other_eq
  change store.entries.Perm (_ :: store.entries.kerase key)
  rw [erase_eq]
  nth_rewrite 1 [entries_eq]
  exact List.perm_middle

theorem size_of_lookup (found : store.lookup key = some value) :
    size store = size (store.erase key) + 1 := by
  simpa [size] using (entries_perm_cons_erase found).length_eq

theorem total_of_lookup (weight : α → Nat) (found : store.lookup key = some value) :
    total weight store = weight value + total weight (store.erase key) := by
  have perm := (entries_perm_cons_erase found).map fun entry => weight entry.2
  simpa [total] using perm.sum_eq

theorem entries_insert_eq (store : Store κ α) (key : κ) (value : α) :
    (store.insert key value).entries = ⟨key, value⟩ :: (store.erase key).entries :=
  AList.entries_insert

theorem size_insert (store : Store κ α) (key : κ) (value : α) :
    size (store.insert key value) = size (store.erase key) + 1 := by
  unfold size
  rw [entries_insert_eq, List.length_cons]

theorem total_insert (weight : α → Nat) (store : Store κ α) (key : κ) (value : α) :
    total weight (store.insert key value) = weight value + total weight (store.erase key) := by
  unfold total
  rw [entries_insert_eq, List.map_cons, List.sum_cons]

theorem erase_of_absent (absent : store.lookup key = none) : store.erase key = store :=
  AList.ext (List.kerase_of_notMem_keys (AList.lookup_eq_none.mp absent))

theorem mem_entries_of_mem_erase {entry : Sigma fun _ : κ => α}
    (entryMem : entry ∈ (store.erase key).entries) :
    entry ∈ store.entries :=
  (List.kerase_sublist key store.entries).subset entryMem

theorem pairwise_erase {relation : (Sigma fun _ : κ => α) → (Sigma fun _ : κ => α) → Prop} (key : κ)
    (pairwise : store.entries.Pairwise relation) :
    (store.erase key).entries.Pairwise relation :=
  pairwise.sublist (List.kerase_sublist key store.entries)

/-- Change the value under a key; a store without the key stays as it is. -/
def modify (key : κ) (change : α → α) (store : Store κ α) : Store κ α where
  entries := store.entries.map fun entry =>
    if entry.1 = key then ⟨entry.1, change entry.2⟩ else entry
  nodupKeys := by
    have keys_eq : (store.entries.map fun entry : Sigma fun _ : κ => α =>
        if entry.1 = key then (⟨entry.1, change entry.2⟩ : Sigma fun _ : κ => α)
        else entry).keys = store.entries.keys := by
      simp only [List.keys, List.map_map]
      refine List.map_congr_left fun entry _ => ?_
      simp only [Function.comp_apply]
      split <;> rfl
    rw [List.NodupKeys, keys_eq]
    exact store.nodupKeys

/-- Changes of different keys commute, and so does a change with itself. -/
theorem modify_comm (first second : κ) (change : α → α) (store : Store κ α) :
    modify first change (modify second change store) =
      modify second change (modify first change store) := by
  apply AList.ext
  simp only [modify, List.map_map]
  refine List.map_congr_left fun entry _ => ?_
  obtain ⟨key, value⟩ := entry
  simp only [Function.comp_apply]
  by_cases isFirst : key = first
  · by_cases isSecond : key = second
    · simp only [if_pos isFirst, if_pos isSecond]
    · simp only [if_pos isFirst, if_neg isSecond]
  · by_cases isSecond : key = second
    · simp only [if_neg isFirst, if_pos isSecond]
    · simp only [if_neg isFirst, if_neg isSecond]

omit [DecidableEq κ] in
/-- The entries whose keys are chosen. -/
def keep (chosen : κ → Bool) (store : Store κ α) : Store κ α where
  entries := store.entries.filter fun entry => chosen entry.1
  nodupKeys := store.nodupKeys.sublist List.filter_sublist

theorem lookup_keep (chosen : κ → Bool) (store : Store κ α) (key : κ) :
    (store.keep chosen).lookup key = if chosen key then store.lookup key else none := by
  have mem_iff : ∀ value, (store.keep chosen).lookup key = some value ↔
      store.lookup key = some value ∧ chosen key := by
    intro value
    change value ∈ (store.keep chosen).lookup key ↔ value ∈ store.lookup key ∧ _
    rw [AList.mem_lookup_iff, AList.mem_lookup_iff]
    exact List.mem_filter
  cases holds : chosen key with
  | false =>
    rw [if_neg Bool.false_ne_true, Option.eq_none_iff_forall_ne_some]
    intro value found
    rw [mem_iff, holds] at found
    cases found.2
  | true =>
    rw [if_pos rfl]
    ext value
    rw [mem_iff]
    simp [holds]

omit [DecidableEq κ] in
/-- The entries whose values are chosen. -/
def retain (chosen : α → Bool) (store : Store κ α) : Store κ α where
  entries := store.entries.filter fun entry => chosen entry.2
  nodupKeys := store.nodupKeys.sublist List.filter_sublist

theorem lookup_of_lookup_retain {chosen : α → Bool}
    (found : (store.retain chosen).lookup key = some value) :
    store.lookup key = some value ∧ chosen value := by
  change value ∈ store.lookup key ∧ _
  rw [AList.mem_lookup_iff]
  exact List.mem_filter.mp (AList.mem_lookup_iff.mp found)

omit [DecidableEq κ] in
theorem size_retain_le (chosen : α → Bool) (store : Store κ α) :
    (store.retain chosen).size ≤ store.size :=
  List.length_filter_le _ _

omit [DecidableEq κ] in
theorem size_keep_le (chosen : κ → Bool) (store : Store κ α) :
    (store.keep chosen).size ≤ store.size :=
  List.length_filter_le _ _

theorem size_erase_le (key : κ) (store : Store κ α) : size (store.erase key) ≤ size store :=
  (List.kerase_sublist key store.entries).length_le

theorem lookup_of_lookup_erase {other : κ} (found : (store.erase key).lookup other = some value) :
    store.lookup other = some value ∧ other ≠ key := by
  by_cases same : other = key
  · subst same
    rw [AList.lookup_erase] at found
    cases found
  · rw [AList.lookup_erase_ne same] at found
    exact ⟨found, same⟩

end Store

/-!
## Mapped and retained stores

Changing every value of a store and keeping the values that pass a test, key by key.
-/

namespace Store

/-- Change the value under every key. -/
def mapValues (change : α → α) (store : Store κ α) : Store κ α where
  entries := store.entries.map fun entry => ⟨entry.1, change entry.2⟩
  nodupKeys := by
    have keys_eq : (store.entries.map fun entry : Sigma fun _ : κ => α =>
        (⟨entry.1, change entry.2⟩ : Sigma fun _ : κ => α)).keys = store.entries.keys := by
      simp only [List.keys, List.map_map]
      exact List.map_congr_left fun entry _ => rfl
    rw [List.NodupKeys, keys_eq]
    exact store.nodupKeys

theorem mem_entries_mapValues {change : α → α} {store : Store κ α} {key : κ} {value : α} :
    ⟨key, value⟩ ∈ (store.mapValues change).entries ↔
      ∃ held, ⟨key, held⟩ ∈ store.entries ∧ change held = value := by
  constructor
  · intro mem
    rcases List.mem_map.mp mem with ⟨⟨other, held⟩, heldMem, same⟩
    cases same
    exact ⟨held, heldMem, rfl⟩
  · rintro ⟨held, heldMem, rfl⟩
    exact List.mem_map.mpr ⟨⟨key, held⟩, heldMem, rfl⟩

/-- Mapping twice, keeping values after each, is mapping by both and keeping the last ones,
when no value comes back that the first test dropped. -/
theorem retain_mapValues_retain {first second : α → α} {kept chosen : α → Bool}
    (stays : ∀ value, chosen (second (first value)) → kept (first value)) (store : Store κ α) :
    ((((store.mapValues first).retain kept).mapValues second).retain chosen) =
      (store.mapValues fun value => second (first value)).retain chosen := by
  apply AList.ext
  change List.filter _ (List.map _ (List.filter _ (List.map _ store.entries))) =
    List.filter _ (List.map _ store.entries)
  induction store.entries with
  | nil => rfl
  | cons entry entries ih =>
    cases last : chosen (second (first entry.2)) with
    | true =>
      have heldBefore : kept (first entry.2) = true := stays entry.2 last
      simp only [List.map_cons, List.filter_cons, heldBefore, last, if_true, ih]
    | false =>
      cases heldBefore : kept (first entry.2) with
      | true =>
        simp only [List.map_cons, List.filter_cons, heldBefore, last, if_true, ih,
          Bool.false_eq_true, if_false]
      | false =>
        simp only [List.map_cons, List.filter_cons, heldBefore, last, ih,
          Bool.false_eq_true, if_false]

theorem size_retain_mapValues (change : α → α) (chosen : α → Bool) (store : Store κ α) :
    ((store.mapValues change).retain chosen).size =
      (store.entries.filter fun entry => chosen (change entry.2)).length := by
  change (List.filter _ (List.map _ store.entries)).length = _
  rw [List.filter_map, List.length_map]
  rfl

variable [DecidableEq κ]

theorem lookup_eq_some_iff {store : Store κ α} {key : κ} {value : α} :
    store.lookup key = some value ↔ ⟨key, value⟩ ∈ store.entries :=
  AList.mem_lookup_iff

theorem lookup_mapValues (change : α → α) (store : Store κ α) (key : κ) :
    (store.mapValues change).lookup key = (store.lookup key).map change := by
  ext value
  rw [Option.map_eq_some_iff]
  change value ∈ (store.mapValues change).lookup key ↔ _
  rw [AList.mem_lookup_iff, mem_entries_mapValues]
  constructor
  · rintro ⟨held, heldMem, same⟩
    exact ⟨held, AList.mem_lookup_iff.mpr heldMem, same⟩
  · rintro ⟨held, found, same⟩
    exact ⟨held, AList.mem_lookup_iff.mp found, same⟩

theorem lookup_retain (chosen : α → Bool) (store : Store κ α) (key : κ) :
    (store.retain chosen).lookup key = (store.lookup key).filter chosen := by
  ext value
  rw [Option.filter_eq_some_iff]
  change value ∈ (store.retain chosen).lookup key ↔ value ∈ store.lookup key ∧ _
  rw [AList.mem_lookup_iff, AList.mem_lookup_iff]
  exact List.mem_filter

end Store

end HnsDaneEngine.Data
