import Mathlib.Data.Nat.Basic
import Mathlib.Order.Basic

/-!
# Replacement by sequence number

A slot holds at most one object under a sequence number.  An object may take the
place of one with a lower number; a lower number is a rollback, and another object
under an equal number is a conflict.  A slot that refuses both moves along a partial
order, so what it has left behind never comes back.
-/

namespace HnsDaneEngine.Order

universe u

/-- An object and its sequence. -/
structure Sequenced (ι : Type u) where
  sequence : Nat
  id : ι
  deriving DecidableEq

/-- How an offered object compares with the one in a slot. -/
inductive Replacement
  | vacant
  | rollback
  | conflict
  | same
  | newer

variable {ι : Type u} [DecidableEq ι]

def replacement (held : Option (Sequenced ι)) (offered : Sequenced ι) : Replacement :=
  match held with
  | none => .vacant
  | some current =>
    if offered.sequence < current.sequence then .rollback
    else if offered.sequence = current.sequence then
      if offered.id = current.id then .same else .conflict
    else .newer

variable {held : Option (Sequenced ι)} {offered : Sequenced ι}

theorem eq_none_of_replacement_vacant (compared : replacement held offered = .vacant) :
    held = none := by
  unfold replacement at compared
  split at compared
  next => rfl
  next => split_ifs at compared

theorem eq_some_of_replacement_same (compared : replacement held offered = .same) :
    held = some offered := by
  unfold replacement at compared
  split at compared
  next => cases compared
  next current =>
    split_ifs at compared with lower equal same
    cases current
    cases offered
    cases equal
    cases same
    rfl

theorem lt_of_replacement_newer (compared : replacement held offered = .newer) :
    ∃ current, held = some current ∧ current.sequence < offered.sequence := by
  unfold replacement at compared
  split at compared
  next => cases compared
  next current =>
    split_ifs at compared with lower equal
    exact ⟨current, rfl, lt_of_le_of_ne (not_lt.mp lower) (Ne.symm equal)⟩

/-- The later slot still holds the object of the earlier one, or one with a greater
number. -/
def Supersedes (earlier later : Option (Sequenced ι)) : Prop :=
  ∀ object, earlier = some object →
    ∃ next, later = some next ∧ (object.sequence < next.sequence ∨ object = next)

namespace Supersedes

variable {earlier middle later : Option (Sequenced ι)}

section

omit [DecidableEq ι]

@[refl]
theorem refl (slot : Option (Sequenced ι)) : Supersedes slot slot :=
  fun object held => ⟨object, held, .inr rfl⟩

theorem of_none (slot : Option (Sequenced ι)) : Supersedes none slot := by
  rintro object ⟨⟩

theorem trans (first : Supersedes earlier middle) (second : Supersedes middle later) :
    Supersedes earlier later := by
  intro object held
  rcases first object held with ⟨between, between_held, below⟩
  rcases second between between_held with ⟨next, next_held, above⟩
  refine ⟨next, next_held, ?_⟩
  rcases below with lower | rfl
  · rcases above with higher | rfl
    · exact .inl (lower.trans higher)
    · exact .inl lower
  · exact above

/-- Numbers never go down. -/
theorem sequence_le (superseded : Supersedes earlier later) {object next : Sequenced ι}
    (held : earlier = some object) (next_held : later = some next) :
    object.sequence ≤ next.sequence := by
  rcases superseded object held with ⟨found, found_held, above⟩
  obtain rfl := Option.some.inj (found_held.symm.trans next_held)
  rcases above with higher | rfl
  · exact higher.le
  · exact le_rfl

/-- An object with an equal number is the same object. -/
theorem eq_of_sequence_eq (superseded : Supersedes earlier later) {object next : Sequenced ι}
    (held : earlier = some object) (next_held : later = some next)
    (equal : object.sequence = next.sequence) : object = next := by
  rcases superseded object held with ⟨found, found_held, above⟩
  obtain rfl := Option.some.inj (found_held.symm.trans next_held)
  rcases above with higher | same
  · exact absurd equal higher.ne
  · exact same

theorem antisymm (forth : Supersedes earlier later) (back : Supersedes later earlier) :
    earlier = later := by
  cases earlier with
  | none =>
    cases later with
    | none => rfl
    | some next =>
      rcases back next rfl with ⟨_, absent, _⟩
      cases absent
  | some object =>
    rcases forth object rfl with ⟨next, rfl, _⟩
    have equal : object.sequence = next.sequence :=
      le_antisymm (forth.sequence_le rfl rfl) (back.sequence_le rfl rfl)
    rw [forth.eq_of_sequence_eq rfl rfl equal]

end

/-- What an accepted replacement does to the slot. -/
theorem of_newer (compared : replacement earlier offered = .newer) :
    Supersedes earlier (some offered) := by
  rcases lt_of_replacement_newer compared with ⟨current, rfl, lower⟩
  rintro object ⟨⟩
  exact ⟨offered, rfl, .inl lower⟩

theorem of_vacant (compared : replacement earlier offered = .vacant) :
    Supersedes earlier (some offered) := by
  rw [eq_none_of_replacement_vacant compared]
  exact of_none _

end Supersedes

end HnsDaneEngine.Order
