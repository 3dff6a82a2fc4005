import Mathlib.Data.List.Perm.Basic

/-!
# Loops over alternatives

A loop over alternatives accepts at the first one that it likes, passes over the ones
it does not, and may abort at one.  The order of the alternatives does not matter
exactly when it does not both like one and abort at another.
-/

namespace HnsDaneEngine.Data

universe u

/-- What a loop does at one alternative. -/
inductive Verdict
  | pass
  | accept
  | abort
  deriving DecidableEq

variable {α : Type u} (verdict : α → Verdict)

/-- The loop accepts before it aborts. -/
def accepted : List α → Bool
  | [] => false
  | item :: items =>
    match verdict item with
    | .pass => accepted items
    | .accept => true
    | .abort => false

variable {verdict} {items : List α}

/-- A loop that aborts nowhere accepts at any one alternative. -/
theorem accepted_iff (calm : ∀ item ∈ items, verdict item ≠ .abort) :
    accepted verdict items = true ↔ ∃ item ∈ items, verdict item = .accept := by
  induction items with
  | nil => simp [accepted]
  | cons item items ih =>
    rw [List.forall_mem_cons] at calm
    rw [accepted, List.exists_mem_cons_iff]
    cases kind : verdict item with
    | pass => simpa using ih calm.2
    | accept => simp
    | abort => exact absurd kind calm.1

/-- A loop that likes no alternative does not accept. -/
theorem not_accepted (none_liked : ∀ item ∈ items, verdict item ≠ .accept) :
    accepted verdict items = false := by
  induction items with
  | nil => rfl
  | cons item items ih =>
    rw [List.forall_mem_cons] at none_liked
    rw [accepted]
    cases kind : verdict item with
    | pass => exact ih none_liked.2
    | accept => exact absurd kind none_liked.1
    | abort => rfl

/-- Without both kinds the order does not matter. -/
theorem accepted_of_perm {other : List α} (perm : other.Perm items)
    (uncontested : ¬ ((∃ item ∈ items, verdict item = .accept) ∧
      ∃ item ∈ items, verdict item = .abort)) :
    accepted verdict other = accepted verdict items := by
  by_cases liked : ∃ item ∈ items, verdict item = .accept
  · have calm : ∀ item ∈ items, verdict item ≠ .abort := by
      intro item itemMem aborts
      exact uncontested ⟨liked, item, itemMem, aborts⟩
    have otherCalm : ∀ item ∈ other, verdict item ≠ .abort := fun item itemMem =>
      calm item (perm.mem_iff.mp itemMem)
    rw [Bool.eq_iff_iff, accepted_iff calm, accepted_iff otherCalm]
    simp only [perm.mem_iff]
  · have none_liked : ∀ item ∈ items, verdict item ≠ .accept := by
      simpa using liked
    rw [not_accepted none_liked, not_accepted fun item itemMem =>
      none_liked item (perm.mem_iff.mp itemMem)]

end HnsDaneEngine.Data
