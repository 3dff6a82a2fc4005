import HnsDaneEngine.Data.Keyed
import Mathlib.Data.List.MinMax
import Mathlib.Data.List.Sort

/-!
# Stores in the order of a rank

Where the ranks of the entries are distinct, the entries of a store have one
ascending order, however the store lists them.  Its first entry is the least, and
removing that entry leaves the rest of the order.
-/

namespace HnsDaneEngine.Data

universe u v

variable {κ : Type u} {α : Type v} (rank : (Sigma fun _ : κ => α) → Nat)

/-- The entries of the store in ascending order of their ranks, which are distinct. -/
structure Ranked (store : Store κ α) (order : List (Sigma fun _ : κ => α)) : Prop where
  perm : order.Perm store.entries
  ascending : order.Pairwise fun older newer => rank older < rank newer

namespace Ranked

variable {rank} {store : Store κ α} {order rest : List (Sigma fun _ : κ => α)}
  {oldest : Sigma fun _ : κ => α}

/-- Entries with distinct ranks have an order. -/
theorem exists_of_distinct
    (distinct : store.entries.Pairwise fun older newer => rank older ≠ rank newer) :
    ∃ order, Ranked rank store order := by
  let sorted := store.entries.mergeSort fun older newer => decide (rank older ≤ rank newer)
  have perm : sorted.Perm store.entries := List.mergeSort_perm _ _
  have ordered : sorted.Pairwise fun older newer => rank older ≤ rank newer := by
    have transitive (first second third : Sigma fun _ : κ => α) :
        decide (rank first ≤ rank second) = true → decide (rank second ≤ rank third) = true →
          decide (rank first ≤ rank third) = true := by
      simpa using fun left right => Nat.le_trans left right
    have total (first second : Sigma fun _ : κ => α) :
        (decide (rank first ≤ rank second) || decide (rank second ≤ rank first)) = true := by
      simpa using Nat.le_total _ _
    simpa using List.pairwise_mergeSort transitive total store.entries
  have apart : sorted.Pairwise fun older newer => rank older ≠ rank newer :=
    (perm.pairwise_iff fun differ => differ.symm).mpr distinct
  exact ⟨sorted, perm, (ordered.and apart).imp fun both => Nat.lt_of_le_of_ne both.1 both.2⟩

theorem length_eq (ranked : Ranked rank store order) : order.length = store.size :=
  ranked.perm.length_eq

theorem sum_eq (ranked : Ranked rank store order) (weight : α → Nat) :
    (order.map fun entry => weight entry.2).sum = store.total weight :=
  (ranked.perm.map fun entry => weight entry.2).sum_eq

/-- The least entry is the first of the order. -/
theorem argmin_eq (ranked : Ranked rank store (oldest :: rest)) :
    store.entries.argmin rank = some oldest := by
  have oldestMem : oldest ∈ store.entries := ranked.perm.mem_iff.mp List.mem_cons_self
  cases least_eq : store.entries.argmin rank with
  | none =>
    rw [List.argmin_eq_none.mp least_eq] at oldestMem
    cases oldestMem
  | some least =>
    have leastMem : least ∈ oldest :: rest :=
      ranked.perm.mem_iff.mpr (List.argmin_mem least_eq)
    have least_le : rank least ≤ rank oldest := List.le_of_mem_argmin oldestMem least_eq
    rcases List.mem_cons.mp leastMem with rfl | later
    · rfl
    · exact absurd (List.rel_of_pairwise_cons ranked.ascending later) (Nat.not_lt.mpr least_le)

section

variable [DecidableEq κ]

theorem mem_iff (ranked : Ranked rank store order) {key : κ} {value : α} :
    (⟨key, value⟩ : Sigma fun _ : κ => α) ∈ order ↔ store.lookup key = some value := by
  rw [ranked.perm.mem_iff]
  exact AList.mem_lookup_iff.symm

theorem erase (ranked : Ranked rank store (oldest :: rest)) :
    Ranked rank (store.erase oldest.1) rest := by
  have found : store.lookup oldest.1 = some oldest.2 := ranked.mem_iff.mp List.mem_cons_self
  constructor
  · exact (ranked.perm.trans (Store.entries_perm_cons_erase found)).cons_inv
  · exact ranked.ascending.of_cons

end

end Ranked

end HnsDaneEngine.Data
