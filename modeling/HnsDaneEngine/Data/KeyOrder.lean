import HnsDaneEngine.Data.Keyed
import Mathlib.Order.Lattice

/-!
# Key order

Lists sorted by a key.  Where keys tell items apart, the sorted list depends only on
which items there are.  A tree map returns its entries in the order of their keys.
-/

namespace HnsDaneEngine.Data

universe u v

variable {α : Type u} {κ : Type v} [LinearOrder κ]

def sortBy (key : α → κ) (items : List α) : List α :=
  items.mergeSort fun first second => decide (key first ≤ key second)

section

variable {key : α → κ} {items others : List α}

theorem sortBy_perm (key : α → κ) (items : List α) : (sortBy key items).Perm items :=
  List.mergeSort_perm items _

theorem mem_sortBy {item : α} : item ∈ sortBy key items ↔ item ∈ items :=
  (sortBy_perm key items).mem_iff

theorem pairwise_sortBy (key : α → κ) (items : List α) :
    (sortBy key items).Pairwise fun first second => key first ≤ key second := by
  have transitive (first second third : α) :
      decide (key first ≤ key second) = true → decide (key second ≤ key third) = true →
        decide (key first ≤ key third) = true := by
    simpa using fun left right => le_trans left right
  have total (first second : α) :
      (decide (key first ≤ key second) || decide (key second ≤ key first)) = true := by
    simpa using le_total _ _
  have sorted := List.pairwise_mergeSort transitive total items
  exact sorted.imp of_decide_eq_true

/-- Lists of the same items are sorted alike. -/
theorem sortBy_eq_of_perm (perm : items.Perm others)
    (apart : ∀ first ∈ items, ∀ second ∈ items, key first = key second → first = second) :
    sortBy key items = sortBy key others := by
  apply List.Perm.eq_of_pairwise _ (pairwise_sortBy key items) (pairwise_sortBy key others)
  · exact (sortBy_perm key items).trans (perm.trans (sortBy_perm key others).symm)
  · intro first second inFirst inSecond firstLe secondLe
    exact apart first (mem_sortBy.mp inFirst) second (perm.mem_iff.mpr (mem_sortBy.mp inSecond))
      (le_antisymm firstLe secondLe)

/-- A strictly ascending list is the sorted one of every list with its items. -/
theorem sortBy_eq (perm : items.Perm others)
    (ascending : others.Pairwise fun first second => key first < key second) :
    sortBy key items = others := by
  have distinct : (others.map key).Nodup := by
    rw [List.Nodup, List.pairwise_map]
    exact ascending.imp fun less => ne_of_lt less
  have apart : ∀ first ∈ others, ∀ second ∈ others, key first = key second → first = second :=
    fun first inFirst second inSecond => List.inj_on_of_nodup_map distinct inFirst inSecond
  rw [← sortBy_eq_of_perm perm.symm apart]
  exact List.mergeSort_of_pairwise (ascending.imp fun less => decide_eq_true (le_of_lt less))

end

namespace Store

variable {store : Store κ α}

/-- The values in the order of their keys. -/
def sortedValues (store : Store κ α) : List α :=
  (sortBy (fun entry => entry.1) store.entries).map fun entry => entry.2

/-- The entries are the rows that lookups find. -/
theorem entries_perm {rows : List (κ × α)} (distinct : (rows.map Prod.fst).Nodup)
    (lookup_iff : ∀ key value, store.lookup key = some value ↔ (key, value) ∈ rows) :
    store.entries.Perm (rows.map fun row => ⟨row.1, row.2⟩) := by
  rw [List.perm_ext_iff_of_nodup]
  · rintro ⟨key, value⟩
    rw [← AList.mem_lookup_iff]
    change store.lookup key = some value ↔ _
    rw [lookup_iff, List.mem_map]
    constructor
    · intro member
      exact ⟨(key, value), member, rfl⟩
    · rintro ⟨⟨otherKey, otherValue⟩, member, same⟩
      cases same
      exact member
  · exact List.NodupKeys.nodup store.nodupKeys
  · refine (List.Nodup.of_map _ distinct).map ?_
    rintro ⟨key, value⟩ ⟨otherKey, otherValue⟩ same
    cases same
    rfl

/-- Rows in strictly ascending order are what the tree map holds. -/
theorem sortedValues_eq {rows : List (κ × α)}
    (ascending : rows.Pairwise fun first second => first.1 < second.1)
    (lookup_iff : ∀ key value, store.lookup key = some value ↔ (key, value) ∈ rows) :
    store.sortedValues = rows.map Prod.snd := by
  have distinct : (rows.map Prod.fst).Nodup := by
    rw [List.Nodup, List.pairwise_map]
    exact ascending.imp fun less => ne_of_lt less
  have sorted := @sortBy_eq _ _ _ (fun entry : Sigma fun _ : κ => α => entry.1) _ _
    (entries_perm distinct lookup_iff) (List.pairwise_map.mpr ascending)
  rw [sortedValues, sorted, List.map_map]
  rfl

end Store

end HnsDaneEngine.Data
