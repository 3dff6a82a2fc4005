import Mathlib.Data.List.Dedup

/-!
# Items in the order of their last use

A log lists the items in the order in which they are used, an item as often as it
is used.  Without all but the last use of every item the log is the order from the
least to the most recently used item.
-/

namespace HnsDaneEngine.Data.Recency

universe u

variable {α : Type u} {item : α} {log : List α}

/-- What a sublist has after an item stands after that item. -/
theorem sublist_of_first {front rest back : List α} (absent : item ∉ front)
    (sublist : List.Sublist (item :: rest) (front ++ item :: back)) : List.Sublist rest back := by
  induction front with
  | nil => exact List.cons_sublist_cons.mp sublist
  | cons first front ih =>
    rw [List.mem_cons, not_or] at absent
    cases sublist with
    | cons _ sublist => exact ih absent.2 sublist
    | cons_cons _ _ => exact absurd rfl absent.1

variable [DecidableEq α]

/-- The items of a log, the least recently used first. -/
def order (log : List α) : List α :=
  log.dedup

theorem nodup_order (log : List α) : (order log).Nodup :=
  List.nodup_dedup log

@[simp]
theorem mem_order : item ∈ order log ↔ item ∈ log :=
  List.mem_dedup

/-- Items of the front that are used again take their later place. -/
theorem order_append (front back : List α) :
    order (front ++ back) = (order front).filter (· ∉ back) ++ order back := by
  induction front with
  | nil => simp [order]
  | cons item front ih =>
    unfold order at ih ⊢
    by_cases again : item ∈ front
    · rw [List.cons_append, List.dedup_cons_of_mem (List.mem_append_left _ again),
        List.dedup_cons_of_mem again, ih]
    by_cases later : item ∈ back
    · rw [List.cons_append, List.dedup_cons_of_mem (List.mem_append_right _ later),
        List.dedup_cons_of_notMem again, ih, List.filter_cons_of_neg (by simpa using later)]
    · rw [List.cons_append, List.dedup_cons_of_notMem (by simp [again, later]),
        List.dedup_cons_of_notMem again, ih, List.filter_cons_of_pos (by simpa using later),
        List.cons_append]

/-- A use moves its item to the end. -/
theorem order_concat (log : List α) (item : α) :
    order (log ++ [item]) = (order log).filter (· ≠ item) ++ [item] := by
  rw [order_append]
  congr 1
  apply List.filter_congr
  simp

/-- The log up to the last use of an item. -/
theorem exists_last_use (used : item ∈ log) :
    ∃ earlier later, log = earlier ++ item :: later ∧ item ∉ later := by
  induction log with
  | nil => cases used
  | cons first log ih =>
    by_cases again : item ∈ log
    · rcases ih again with ⟨earlier, later, rfl, last⟩
      exact ⟨first :: earlier, later, rfl, last⟩
    · rcases List.mem_cons.mp used with rfl | inLog
      · exact ⟨[], log, rfl, again⟩
      · exact absurd inLog again

/-- The items that the order has after one item were all used after it. -/
theorem used_later {rest : List α} (sublist : List.Sublist (item :: rest) (order log)) :
    ∃ earlier later, log = earlier ++ item :: later ∧ item ∉ later ∧
      List.Sublist rest (order later) := by
  have used : item ∈ log := mem_order.mp (sublist.subset List.mem_cons_self)
  rcases exists_last_use used with ⟨earlier, later, rfl, last⟩
  refine ⟨earlier, later, rfl, last, ?_⟩
  have back_eq : order (item :: later) = item :: order later := List.dedup_cons_of_notMem last
  rw [order_append, back_eq] at sublist
  apply sublist_of_first _ sublist
  simp

end HnsDaneEngine.Data.Recency
