import Mathlib.Data.List.Forall2

/-!
# Computations that may fail

Inversion of successful computations: a sequence succeeds through the success of
its parts, a guard by its condition and a traversal element by element.
-/

namespace HnsDaneEngine.Control

universe u v

variable {ε : Type u} {α β : Type v} {first : Except ε α} {next f : α → Except ε β} {error : ε}
  {items : List α} {results : List β} {value : α} {result : β}

theorem bind_eq_ok_iff :
    (first >>= next) = .ok result ↔ ∃ value, first = .ok value ∧ next value = .ok result := by
  cases first with
  | error error => simp [bind, Except.bind]
  | ok value => simp [bind, Except.bind]

theorem of_bind_ok (returned : (first >>= next) = .ok result) :
    ∃ value, first = .ok value ∧ next value = .ok result :=
  bind_eq_ok_iff.mp returned

/-- The parts of a sequence that succeeds. -/
theorem bind_ok (first_eq : first = .ok value)
    (next_eq : next value = .ok result) : (first >>= next) = .ok result :=
  bind_eq_ok_iff.mpr ⟨value, first_eq, next_eq⟩

theorem mapError_eq_ok_iff {δ : Type u} {rename : ε → δ} :
    first.mapError rename = .ok value ↔ first = .ok value := by
  cases first <;> simp [Except.mapError]

/-- Failure of a sequence: of its first part, or of the rest after it. -/
theorem bind_eq_error_iff :
    (first >>= next) = .error error ↔
      first = .error error ∨ ∃ value, first = .ok value ∧ next value = .error error := by
  cases first with
  | error other => simp [bind, Except.bind]
  | ok value => simp [bind, Except.bind]

/-- An error that no part of a sequence reports. -/
theorem bind_ne_error (first_ne : first ≠ .error error)
    (next_ne : ∀ value, next value ≠ .error error) :
    (first >>= next) ≠ .error error := by
  cases first with
  | error other =>
    intro reported
    apply first_ne
    rw [Except.error.inj reported]
  | ok value => exact next_ne value

theorem foldlM_ne_error {step : β → α → Except ε β}
    (step_ne : ∀ item ∈ items, ∀ state, step state item ≠ .error error) (state : β) :
    items.foldlM step state ≠ .error error := by
  induction items generalizing state with
  | nil => simp [pure, Except.pure]
  | cons item items ih =>
    rw [List.forall_mem_cons] at step_ne
    rw [List.foldlM_cons]
    exact bind_ne_error (step_ne.1 state) (ih step_ne.2)

/-- A guard that passes lets the rest decide. -/
theorem guard_eq_ok_iff {condition : Prop} [Decidable condition] {rest : Except ε α} {result : α} :
    (if condition then .error error else rest) = .ok result ↔ ¬ condition ∧ rest = .ok result := by
  by_cases holds : condition
  · simp [holds]
  · simp [holds]

theorem of_guard_ok {condition : Prop} [Decidable condition] {rest : Except ε α} {result : α}
    (passed : (if condition then .error error else rest) = .ok result) :
    ¬ condition ∧ rest = .ok result :=
  guard_eq_ok_iff.mp passed

theorem mapM_eq_ok_iff :
    items.mapM f = .ok results ↔
      List.Forall₂ (fun item result => f item = .ok result) items results := by
  induction items generalizing results with
  | nil => cases results <;> simp [pure, Except.pure]
  | cons item items ih =>
    rw [List.mapM_cons, bind_eq_ok_iff]
    constructor
    · rintro ⟨first, first_ok, remaining⟩
      obtain ⟨rest, rest_ok, result_eq⟩ := bind_eq_ok_iff.mp remaining
      obtain rfl := Except.ok.inj result_eq
      exact .cons first_ok (ih.mp rest_ok)
    · rintro (_ | ⟨first_ok, rest_ok⟩)
      exact ⟨_, first_ok, bind_eq_ok_iff.mpr ⟨_, ih.mpr rest_ok, rfl⟩⟩

/-- The results of a traversal are the results of its items. -/
theorem mem_of_mapM_eq_ok (traversed : items.mapM f = .ok results) :
    result ∈ results ↔ ∃ item ∈ items, f item = .ok result := by
  rw [mapM_eq_ok_iff] at traversed
  induction traversed with
  | nil => simp
  | cons head _ ih => simp [head, ih, eq_comm]

/-- A traversal succeeds when it does at every item. -/
theorem exists_mapM_eq_ok_iff :
    (∃ results, items.mapM f = .ok results) ↔ ∀ item ∈ items, ∃ result, f item = .ok result := by
  induction items with
  | nil => simp [pure, Except.pure]
  | cons item items ih =>
    rw [List.forall_mem_cons, ← ih]
    constructor
    · rintro ⟨results, traversed⟩
      rw [List.mapM_cons] at traversed
      obtain ⟨first, first_ok, remaining⟩ := bind_eq_ok_iff.mp traversed
      obtain ⟨rest, rest_ok, -⟩ := bind_eq_ok_iff.mp remaining
      exact ⟨⟨first, first_ok⟩, rest, rest_ok⟩
    · rintro ⟨⟨first, first_ok⟩, rest, rest_ok⟩
      exact ⟨first :: rest, mapM_eq_ok_iff.mpr (.cons first_ok (mapM_eq_ok_iff.mp rest_ok))⟩

/-- What a relation between two lists says about the members of the first. -/
theorem forall_mem_of_forall₂ {relation : α → β → Prop} {property : α → Prop}
    (implied : ∀ item result, relation item result → property item)
    (related : List.Forall₂ relation items results) :
    ∀ item ∈ items, property item := by
  induction related with
  | nil => simp
  | cons head _ ih =>
    rw [List.forall_mem_cons]
    exact ⟨implied _ _ head, ih⟩

end HnsDaneEngine.Control
