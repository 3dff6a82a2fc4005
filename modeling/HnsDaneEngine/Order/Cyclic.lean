import Mathlib.Data.Set.Basic

/-!
# Cyclic successors and the intervals between them

Authenticated denial lists the members of a finite set of ordered values, each
with its successor, and closes the list into a cycle by giving the greatest
member the least one as successor.  A value strictly inside the interval of one
link is therefore absent from the set.  The same fact also locates the first
member after such a value: it is the successor named by the link.
-/

namespace HnsDaneEngine.Order

universe u

variable {α : Type u} [LinearOrder α]

/-- Strict membership of `candidate` in the interval that leads from `owner` to
`next`, where an interval whose end does not exceed its start wraps around. -/
def CyclicBetween (owner next candidate : α) : Prop :=
  if owner < next then owner < candidate ∧ candidate < next
  else owner < candidate ∨ candidate < next

instance (owner next candidate : α) : Decidable (CyclicBetween owner next candidate) :=
  inferInstanceAs (Decidable (if owner < next then owner < candidate ∧ candidate < next
    else owner < candidate ∨ candidate < next))

/-- No interval contains its own start. -/
theorem not_cyclicBetween_self (owner next : α) : ¬ CyclicBetween owner next owner := by
  unfold CyclicBetween
  split
  · rintro ⟨less, _⟩
    exact lt_irrefl _ less
  · rintro (less | less)
    · exact lt_irrefl _ less
    · contradiction

/-- The interval test by three comparisons. -/
def betweenByComparison (ownerNext ownerCandidate candidateNext : Ordering) : Bool :=
  match ownerNext with
  | .lt => ownerCandidate = .lt && candidateNext = .lt
  | .gt => ownerCandidate = .lt || candidateNext = .lt
  | .eq => true

/-- The comparisons decide for a candidate other than the owner. -/
theorem betweenByComparison_iff {owner next candidate : α}
    {ownerNext ownerCandidate candidateNext : Ordering}
    (ownerNext_compares : ownerNext.Compares owner next)
    (ownerCandidate_compares : ownerCandidate.Compares owner candidate)
    (candidateNext_compares : candidateNext.Compares candidate next) (ne : candidate ≠ owner) :
    betweenByComparison ownerNext ownerCandidate candidateNext = true ↔
      CyclicBetween owner next candidate := by
  unfold betweenByComparison CyclicBetween
  cases ownerNext with
  | lt =>
    have less : owner < next := ownerNext_compares
    simp [less, ownerCandidate_compares.eq_lt, candidateNext_compares.eq_lt]
  | gt =>
    have greater : next < owner := ownerNext_compares
    simp [greater.not_gt, ownerCandidate_compares.eq_lt, candidateNext_compares.eq_lt]
  | eq =>
    have equal : owner = next := ownerNext_compares
    subst equal
    simpa using ne.symm.lt_or_gt

/-- `next` follows `owner` in the cyclic order of the members of `s`. -/
structure IsCyclicSuccessor (s : Set α) (owner next : α) : Prop where
  owner_mem : owner ∈ s
  next_mem : next ∈ s
  adjacent : (owner < next ∧ ∀ member ∈ s, ¬ (owner < member ∧ member < next)) ∨
    ((∀ member ∈ s, member ≤ owner) ∧ ∀ member ∈ s, next ≤ member)

namespace IsCyclicSuccessor

variable {s : Set α} {owner next candidate : α}

section

variable (link : IsCyclicSuccessor s owner next)

include link

/-- The link from the greatest member to the least one is the only one whose
end does not exceed its start. -/
theorem wraps (notLess : ¬ owner < next) :
    (∀ member ∈ s, member ≤ owner) ∧ ∀ member ∈ s, next ≤ member := by
  rcases link.adjacent with ⟨less, _⟩ | extremes
  · exact absurd less notLess
  · exact extremes

/-- If a link does increase, then no member lies strictly inside it. -/
theorem notBetween (less : owner < next) : ∀ member ∈ s, ¬ (owner < member ∧ member < next) := by
  rcases link.adjacent with ⟨_, between⟩ | ⟨greatest, _⟩
  · exact between
  · exact absurd less (greatest next link.next_mem).not_gt

/-- A value inside the interval of a link is not a member. -/
theorem notMem (covered : CyclicBetween owner next candidate) : candidate ∉ s := by
  intro member
  unfold CyclicBetween at covered
  split at covered
  · rename_i less
    exact link.notBetween less candidate member covered
  · rename_i notLess
    obtain ⟨greatest, least⟩ := link.wraps notLess
    rcases covered with above | below
    · exact (greatest candidate member).not_gt above
    · exact (least candidate member).not_gt below

/-- The first member after a covered value is the end of the covering link. -/
theorem lt_next_le (covered : CyclicBetween owner next candidate) {member : α} (mem : member ∈ s)
    (after : candidate < member) : candidate < next ∧ next ≤ member := by
  unfold CyclicBetween at covered
  split at covered
  · rename_i less
    refine ⟨covered.2, not_lt.mp ?_⟩
    intro before
    exact link.notBetween less member mem ⟨covered.1.trans after, before⟩
  · rename_i notLess
    obtain ⟨greatest, least⟩ := link.wraps notLess
    rcases covered with above | below
    · exact absurd (above.trans after) (greatest member mem).not_gt
    · exact ⟨below, least member mem⟩

/-- A member has only one successor. -/
theorem next_unique {other : α} (otherLink : IsCyclicSuccessor s owner other) : next = other := by
  by_cases less : owner < next
  · have otherLess : owner < other := by
      by_contra notLess
      exact absurd less ((otherLink.wraps notLess).1 next link.next_mem).not_gt
    apply le_antisymm
    · exact not_lt.mp fun before => link.notBetween less other otherLink.next_mem
        ⟨otherLess, before⟩
    · exact not_lt.mp fun before => otherLink.notBetween otherLess next link.next_mem
        ⟨less, before⟩
  · obtain ⟨greatest, least⟩ := link.wraps less
    have otherNotLess : ¬ owner < other := (greatest other otherLink.next_mem).not_gt
    exact le_antisymm (least other otherLink.next_mem)
      ((otherLink.wraps otherNotLess).2 next link.next_mem)

end

end IsCyclicSuccessor

end HnsDaneEngine.Order
