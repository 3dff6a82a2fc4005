import Mathlib.Algebra.Order.Group.Nat
import Mathlib.Data.List.TakeWhile

/-!
# Sliding windows over a log of instants

A queue of instants in order of time, from whose front the instants that have left a
window are dropped, holds exactly the instants that a window covers.  A log that takes a
new instant only while its window is not full has no window over the limit.
-/

namespace HnsDaneEngine.Data.SlidingWindow

universe u

/-- Dropping a front and then more of it is dropping the longer front. -/
theorem dropWhile_dropWhile {α : Type u} {first second : α → Bool}
    (implies : ∀ value, first value → second value) (values : List α) :
    (values.dropWhile first).dropWhile second = values.dropWhile second := by
  induction values with
  | nil => rfl
  | cons value rest ih =>
    cases dropped : first value with
    | true =>
      rw [List.dropWhile_cons_of_pos dropped,
        List.dropWhile_cons_of_pos (implies value dropped), ih]
    | false =>
      rw [List.dropWhile_cons_of_neg (by simp [dropped])]

/-- The window that ends at an instant still covers another. -/
def live (window now instant : Nat) : Bool :=
  now < instant + window

/-- The window that starts at an instant covers another. -/
def within (window start instant : Nat) : Bool :=
  start ≤ instant && instant < start + window

variable {window now : Nat}

theorem live_of_le {later instant : Nat} (now_le : now ≤ later)
    (holds : live window later instant) : live window now instant := by
  simp only [live, decide_eq_true_eq] at holds ⊢
  exact now_le.trans_lt holds

/-- Among instants in order of time the dropped ones are a front. -/
theorem dropWhile_not_live {instants : List Nat} (sorted : instants.Pairwise (· ≤ ·)) :
    (instants.dropWhile fun instant => !live window now instant) =
      instants.filter (live window now) := by
  induction instants with
  | nil => rfl
  | cons first rest ih =>
    rcases List.pairwise_cons.mp sorted with ⟨first_le, restSorted⟩
    cases covered : live window now first with
    | false =>
      rw [List.dropWhile_cons_of_pos (by simp [covered]),
        List.filter_cons_of_neg (by simp [covered]), ih restSorted]
    | true =>
      have all_live : ∀ instant ∈ rest, live window now instant = true := by
        intro instant mem
        have first_le_instant := first_le instant mem
        simp only [live, decide_eq_true_eq] at covered ⊢
        exact covered.trans_le (Nat.add_le_add_right first_le_instant window)
      rw [List.dropWhile_cons_of_neg (by simp [covered]),
        List.filter_cons_of_pos covered, List.filter_eq_self.mpr all_live]

theorem filter_live_filter_live {later : Nat} (now_le : now ≤ later) (instants : List Nat) :
    (instants.filter (live window now)).filter (live window later) =
      instants.filter (live window later) := by
  rw [List.filter_filter]
  refine List.filter_congr fun instant _ => ?_
  cases covered : live window later instant with
  | false => rfl
  | true => rw [live_of_le now_le covered]; rfl

/-- A new instant fits every window when the window that ends at it has room. -/
theorem length_within_concat {instants : List Nat} {limit : Nat}
    (bounded : ∀ start, (instants.filter (within window start)).length ≤ limit)
    (room : (instants.filter (live window now)).length < limit) (start : Nat) :
    ((instants ++ [now]).filter (within window start)).length ≤ limit := by
  rw [List.filter_append, List.length_append]
  cases covers : within window start now with
  | false => simpa [covers] using bounded start
  | true =>
    have count_le : (instants.filter (within window start)).length ≤
        (instants.filter (live window now)).length := by
      rw [← List.countP_eq_length_filter, ← List.countP_eq_length_filter]
      refine List.countP_mono_left fun instant _ inside => ?_
      simp only [within, Bool.and_eq_true, decide_eq_true_eq] at covers inside
      simp only [live, decide_eq_true_eq]
      exact covers.2.trans_le (Nat.add_le_add_right inside.1 window)
    have single : ([now].filter (within window start)).length = 1 := by simp [covers]
    rw [single]
    exact Nat.succ_le_of_lt (count_le.trans_lt room)

end HnsDaneEngine.Data.SlidingWindow
