import HnsDaneEngine.Control.Effect
import HnsDaneEngine.Encoding.Octets

/-!
# Streams that arrive in pieces

A stream arrives in pieces of any size, and a call for more of it may fail in between.
A reader keeps to a grammar when the octets that it takes in a run that returns form a
phrase of the returned value.  It takes a phrase when it returns the value of the phrase
from every stream that starts with the phrase, and leaves the rest.
-/

namespace HnsDaneEngine.Arrivals

open Control

variable {ε δ α β : Type}

/-- What a call for more octets meets.  An empty piece looks like the end of the stream. -/
inductive Arrival (ε : Type)
  | octets (piece : Octets)
  | failed (error : ε)

/-- The octets of a stream. -/
def octetsOf : List (Arrival ε) → Octets
  | [] => []
  | .octets piece :: later => piece ++ octetsOf later
  | .failed _ :: later => octetsOf later

/-- One call with room for a number of octets. -/
def read (room : Nat) : Effect (List (Arrival ε)) ε Octets
  | [] => (.ok [], [])
  | .octets piece :: later =>
    if room < piece.length then (.ok (piece.take room), .octets (piece.drop room) :: later)
    else (.ok piece, later)
  | .failed error :: later => (.error error, later)

variable {input later : List (Arrival ε)}

theorem octetsOf_of_read {room : Nat} {piece : Octets}
    (called : read room input = (.ok piece, later)) :
    piece.length ≤ room ∧ octetsOf input = piece ++ octetsOf later := by
  cases input with
  | nil =>
    cases called
    simp [octetsOf]
  | cons arrival arrivals =>
    cases arrival with
    | failed error => cases called
    | octets whole =>
      rw [read] at called
      split at called
      next more =>
        cases called
        constructor
        · exact List.length_take_le room whole
        · simp [octetsOf, ← List.append_assoc]
      next all =>
        cases called
        exact ⟨Nat.le_of_not_lt all, rfl⟩

theorem read_error {room : Nat} {error : ε} (called : read room input = (.error error, later)) :
    input = .failed error :: later := by
  cases input with
  | nil => cases called
  | cons arrival arrivals =>
    cases arrival with
    | failed other =>
      cases called
      rfl
    | octets whole =>
      rw [read] at called
      split at called <;> cases called

/-- Pieces that all bring something, and together bring the octets. -/
structure Delivers (input : List (Arrival ε)) (octets : Octets) : Prop where
  pieces : ∀ arrival ∈ input, ∃ piece, arrival = .octets piece ∧ piece ≠ []
  octets_eq : octetsOf input = octets

namespace Delivers

variable {octets : Octets}

theorem tail {arrival : Arrival ε}
    (delivers : Delivers (arrival :: later) octets) : Delivers later (octetsOf later) :=
  ⟨fun other member => delivers.pieces other (List.mem_cons_of_mem _ member), rfl⟩

/-- A call brings a part of what is left. -/
theorem read (delivers : Delivers input octets) (more : octets ≠ []) {room : Nat}
    (nonzero : room ≠ 0) :
    ∃ piece later rest, Arrivals.read room input = (.ok piece, later) ∧ piece ≠ [] ∧
      piece.length ≤ room ∧ octets = piece ++ rest ∧ Delivers later rest := by
  cases input with
  | nil => exact absurd delivers.octets_eq.symm more
  | cons arrival later =>
    rcases delivers.pieces arrival List.mem_cons_self with ⟨piece, rfl, brings⟩
    have octets_eq : octets = piece ++ octetsOf later := delivers.octets_eq.symm
    by_cases longer : room < piece.length
    · have dropped : piece.drop room ≠ [] := by simpa using longer
      refine ⟨piece.take room, .octets (piece.drop room) :: later,
        piece.drop room ++ octetsOf later, ?_, ?_, ?_, ?_, ?_, ?_⟩
      · rw [Arrivals.read, if_pos longer]
      · simp [nonzero, brings]
      · exact List.length_take_le room piece
      · rw [octets_eq, ← List.append_assoc, List.take_append_drop]
      · simp only [List.forall_mem_cons]
        exact ⟨⟨_, rfl, dropped⟩, delivers.tail.pieces⟩
      · rfl
    · refine ⟨piece, later, octetsOf later, ?_, brings, Nat.le_of_not_lt longer, octets_eq,
        delivers.tail⟩
      rw [Arrivals.read, if_neg longer]

end Delivers

/-- The octets taken by a run that returns are a phrase of the returned value. -/
def KeepsTo (reader : Effect (List (Arrival ε)) δ α) (phrase : α → Octets → Prop) : Prop :=
  ∀ input value later, reader input = (.ok value, later) →
    ∃ taken, phrase value taken ∧ octetsOf input = taken ++ octetsOf later

namespace KeepsTo

variable {reader : Effect (List (Arrival ε)) δ α} {next : α → Effect (List (Arrival ε)) δ β}
  {phrase other : α → Octets → Prop} {whole : β → Octets → Prop}

theorem mono (keepsTo : KeepsTo reader phrase)
    (implies : ∀ value taken, phrase value taken → other value taken) : KeepsTo reader other := by
  intro input value later run
  rcases keepsTo input value later run with ⟨taken, isPhrase, octets_eq⟩
  exact ⟨taken, implies value taken isPhrase, octets_eq⟩

theorem pure {value : α} (isPhrase : phrase value []) :
    KeepsTo (Pure.pure value : Effect (List (Arrival ε)) δ α) phrase := by
  intro input returned later run
  cases run
  exact ⟨[], isPhrase, rfl⟩

theorem throw {error : δ} :
    KeepsTo (Effect.throw error : Effect (List (Arrival ε)) δ α) phrase := by
  intro input returned later run
  cases run

/-- The phrase of a sequence goes on after the phrase of its first part. -/
theorem bind (first : KeepsTo reader phrase)
    (rest : ∀ value taken, phrase value taken →
      KeepsTo (next value) fun returned more => whole returned (taken ++ more)) :
    KeepsTo (reader >>= next) whole := by
  intro input returned later run
  rcases Effect.of_bind_ok run with ⟨value, middle, ran, continued⟩
  rcases first input value middle ran with ⟨taken, isPhrase, octets_eq⟩
  rcases rest value taken isPhrase middle returned later continued with ⟨more, isWhole, more_eq⟩
  refine ⟨taken ++ more, isWhole, ?_⟩
  rw [octets_eq, more_eq, List.append_assoc]

theorem ofExcept_bind {result : Except δ α}
    (rest : ∀ value, result = .ok value → KeepsTo (next value) whole) :
    KeepsTo (Effect.ofExcept result >>= next) whole := by
  cases result with
  | error error => exact throw
  | ok value => exact rest value rfl

end KeepsTo

/-- The reader returns the value from every stream that starts with the octets, and leaves the
rest of the stream. -/
def Takes (reader : Effect (List (Arrival ε)) δ α) (value : α) (octets : Octets) : Prop :=
  ∀ input rest, Delivers input (octets ++ rest) →
    ∃ later, reader input = (.ok value, later) ∧ Delivers later rest

namespace Takes

variable {reader : Effect (List (Arrival ε)) δ α} {next : α → Effect (List (Arrival ε)) δ β}
  {value : α} {returned : β} {octets more : Octets}

theorem pure : Takes (Pure.pure value : Effect (List (Arrival ε)) δ α) value [] := by
  intro input rest delivers
  exact ⟨input, rfl, delivers⟩

theorem ofExcept_bind {result : Except δ α} (result_eq : result = .ok value)
    (rest : Takes (next value) returned octets) :
    Takes (Effect.ofExcept result >>= next) returned octets := by
  rw [result_eq]
  exact rest

theorem bind (first : Takes reader value octets) (rest : Takes (next value) returned more) :
    Takes (reader >>= next) returned (octets ++ more) := by
  intro input left delivers
  rw [List.append_assoc] at delivers
  rcases first input (more ++ left) delivers with ⟨middle, ran, middle_delivers⟩
  rcases rest middle left middle_delivers with ⟨later, continued, later_delivers⟩
  exact ⟨later, Effect.bind_eq_ok_iff.mpr ⟨value, middle, ran, continued⟩, later_delivers⟩

/-- What follows takes nothing more. -/
theorem bind_nil (first : Takes reader value octets) (rest : Takes (next value) returned []) :
    Takes (reader >>= next) returned octets := by
  have whole := first.bind rest
  rwa [List.append_nil] at whole

end Takes

end HnsDaneEngine.Arrivals
