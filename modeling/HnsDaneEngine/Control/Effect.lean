import Mathlib.Data.List.Basic

/-!
# Computations with a state that survives failure

A computation gets a state and returns a value or an error together with the
next state.  Unlike a transaction, a failure keeps the changes made before it.
A part of the state is framed by a computation that never changes it.  A log is a
part of the state that grows at its end; the rules for logs relate the outcome of a
computation to the entries it adds.  A property is ensured by a computation when
every value it returns has it.  An invariant is carried when a run that returns keeps it.
-/

namespace HnsDaneEngine.Control

universe u

/-- A computation that may fail and changes a state, also when it fails. -/
def Effect (σ ε α : Type u) : Type u :=
  σ → Except ε α × σ

namespace Effect

variable {σ ε α β τ : Type u} {result : Except ε β} {error : ε}

protected def pure (value : α) : Effect σ ε α :=
  fun state => (.ok value, state)

protected def bind (first : Effect σ ε α) (next : α → Effect σ ε β) : Effect σ ε β :=
  fun state =>
    match first state with
    | (.ok value, state) => next value state
    | (.error error, state) => (.error error, state)

instance : Monad (Effect σ ε) where
  pure := Effect.pure
  bind := Effect.bind

def throw (error : ε) : Effect σ ε α :=
  fun state => (.error error, state)

/-- A computation without effects. -/
def ofExcept (result : Except ε α) : Effect σ ε α :=
  fun state => (result, state)

/-- The outcome of a computation as a value. -/
def outcome (action : Effect σ ε α) : Effect σ ε (Except ε α) :=
  fun state => (.ok (action state).1, (action state).2)

/-- A change of the state. -/
def modify (change : σ → σ) : Effect σ ε PUnit :=
  fun state => (.ok ⟨⟩, change state)

def get : Effect σ ε σ :=
  fun state => (.ok state, state)

/-- The computation with its errors under another name. -/
def mapError {δ : Type u} (rename : ε → δ) (action : Effect σ ε α) : Effect σ δ α :=
  fun state => ((action state).1.mapError rename, (action state).2)

/-- The action at every item in order, up to the first failure. -/
def forEach (action : α → Effect σ ε PUnit) : List α → Effect σ ε PUnit
  | [] => Effect.pure ⟨⟩
  | item :: items => Effect.bind (action item) fun _ => forEach action items

variable {first action : Effect σ ε α} {next : α → Effect σ ε β} {state final : σ} {value : α}
  {δ : Type u} {rename : ε → δ}

theorem bind_ok {middle : σ} (first_eq : first state = (.ok value, middle)) :
    (first >>= next) state = next value middle := by
  change Effect.bind first next state = _
  rw [Effect.bind, first_eq]

theorem bind_error {middle : σ} (first_eq : first state = (.error error, middle)) :
    (first >>= next) state = (.error error, middle) := by
  change Effect.bind first next state = _
  rw [Effect.bind, first_eq]

@[simp]
theorem get_bind (next : σ → Effect σ ε β) (state : σ) :
    (Effect.get >>= next) state = next state state :=
  rfl

@[simp]
theorem pure_bind (value : α) (next : α → Effect σ ε β) (state : σ) :
    ((Pure.pure value : Effect σ ε α) >>= next) state = next value state :=
  rfl

@[simp]
theorem ofExcept_ok_bind (value : α) (next : α → Effect σ ε β) (state : σ) :
    (Effect.ofExcept (.ok value) >>= next) state = next value state :=
  rfl

@[simp]
theorem ofExcept_error_bind (error : ε) (next : α → Effect σ ε β) (state : σ) :
    (Effect.ofExcept (.error error) >>= next) state = (.error error, state) :=
  rfl

theorem mapError_of_ok (run : action state = (.ok value, final)) :
    mapError rename action state = (.ok value, final) := by
  rw [mapError, run]
  rfl

theorem mapError_of_error (run : action state = (.error error, final)) :
    mapError rename action state = (.error (rename error), final) := by
  rw [mapError, run]
  rfl

theorem mapError_eq_ok_iff : mapError rename action state = (.ok value, final) ↔
      action state = (.ok value, final) := by
  rcases action_eq : action state with ⟨outcome, middle⟩
  cases outcome with
  | error error =>
    rw [mapError_of_error action_eq]
    simp
  | ok returned =>
    rw [mapError_of_ok action_eq]
    simp

/-- Success of a sequence of computations. -/
theorem bind_eq_ok_iff {result : β} :
    (first >>= next) state = (.ok result, final) ↔
      ∃ value middle, first state = (.ok value, middle) ∧
        next value middle = (.ok result, final) := by
  rcases first_eq : first state with ⟨outcome, middle⟩
  cases outcome with
  | error error =>
    rw [bind_error first_eq]
    simp
  | ok value =>
    rw [bind_ok first_eq]
    simp

theorem of_bind_ok {result : β} (run : (first >>= next) state = (.ok result, final)) :
    ∃ value middle, first state = (.ok value, middle) ∧ next value middle = (.ok result, final) :=
  bind_eq_ok_iff.mp run

/-- A sequence ends in the state of its first part when the rest leaves the state alone. -/
theorem snd_bind_of_same (same : ∀ value state, (next value state).2 = state) (state : σ) :
    ((first >>= next) state).2 = (first state).2 := by
  rcases first_eq : first state with ⟨result, middle⟩
  cases result with
  | error error => rw [bind_error first_eq]
  | ok value =>
    rw [bind_ok first_eq]
    exact same value middle

/-- Sequences agree from a state when their first parts do and they go on alike. -/
theorem bind_congr_at {other : Effect σ ε α} {continuation : α → Effect σ ε β}
    (first_eq : first state = other state)
    (next_eq : ∀ value middle, other state = (.ok value, middle) →
      next value middle = continuation value middle) :
    (first >>= next) state = (other >>= continuation) state := by
  rcases other_eq : other state with ⟨result, middle⟩
  cases result with
  | error error => rw [bind_error (first_eq.trans other_eq), bind_error other_eq]
  | ok value =>
    rw [bind_ok (first_eq.trans other_eq), bind_ok other_eq]
    exact next_eq value middle other_eq

/-- A sequence of computations stops at the first error or goes on with the first value. -/
theorem bind_cases (run : (first >>= next) state = (result, final)) :
    (∃ error, first state = (.error error, final) ∧ result = .error error) ∨
      ∃ value middle, first state = (.ok value, middle) ∧ next value middle = (result, final) := by
  rcases first_eq : first state with ⟨outcome, middle⟩
  cases outcome with
  | error error =>
    rw [bind_error first_eq] at run
    cases run
    exact .inl ⟨error, rfl, rfl⟩
  | ok value =>
    rw [bind_ok first_eq] at run
    exact .inr ⟨value, middle, rfl, run⟩

/-- A check in front of a computation fails, or the computation goes on from the same state. -/
theorem ofExcept_bind_cases {checked : Except ε α}
    (run : (Effect.ofExcept checked >>= next) state = (result, final)) :
    (∃ error, result = .error error ∧ final = state) ∨
      ∃ value, checked = .ok value ∧ next value state = (result, final) := by
  cases checked with
  | error error =>
    cases run
    exact .inl ⟨error, rfl, rfl⟩
  | ok value => exact .inr ⟨value, rfl, run⟩

/-- A value that is read off a result. -/
theorem bind_pure_eq {read : α → β}
    (run : (first >>= fun value => Pure.pure (read value)) state = (result, final)) :
    ∃ outcome, first state = (outcome, final) ∧ result = outcome.map read := by
  rcases bind_cases run with ⟨error, failed, rfl⟩ | ⟨value, middle, returned, read_eq⟩
  · exact ⟨.error error, failed, rfl⟩
  · cases read_eq
    exact ⟨.ok value, returned, rfl⟩

/-- Every run relates the states before and after, also when it fails. -/
def Steps (relation : σ → σ → Prop) (action : Effect σ ε α) : Prop :=
  ∀ state, relation state (action state).2

namespace Steps

variable {relation : σ → σ → Prop}

theorem of_run (steps : Steps relation action)
    {result : Except ε α} (run : action state = (result, final)) : relation state final := by
  have related := steps state
  rw [run] at related
  exact related

/-- A computation that leaves the state alone. -/
theorem of_same (refl : ∀ state, relation state state)
    (same : ∀ state, (action state).2 = state) : Steps relation action := by
  intro state
  rw [same]
  exact refl state

theorem bind (trans : ∀ {first second third}, relation first second → relation second third →
      relation first third)
    (firstSteps : Steps relation first) (nextSteps : ∀ value, Steps relation (next value)) :
    Steps relation (first >>= next) := by
  intro state
  have firstStep := firstSteps state
  rcases first_eq : first state with ⟨result, middle⟩
  rw [first_eq] at firstStep
  cases result with
  | error error =>
    rw [bind_error first_eq]
    exact firstStep
  | ok value =>
    rw [bind_ok first_eq]
    exact trans firstStep (nextSteps value middle)

end Steps

/-- From a state with the invariant every run relates the states before and after, and a run that
returns keeps the invariant. -/
def Carries (invariant : σ → Prop) (relation : σ → σ → Prop) (action : Effect σ ε α) : Prop :=
  ∀ state, invariant state →
    relation state (action state).2 ∧ (∀ value, (action state).1 = .ok value →
      invariant (action state).2)

namespace Carries

variable {invariant : σ → Prop} {relation : σ → σ → Prop}

theorem of_run (carries : Carries invariant relation action) {result : Except ε α}
    (holds : invariant state) (run : action state = (result, final)) :
    relation state final ∧ (∀ value, result = .ok value → invariant final) := by
  have carried := carries state holds
  rw [run] at carried
  exact carried

/-- A computation that leaves the state alone. -/
theorem of_same (refl : ∀ state, relation state state) (same : ∀ state, (action state).2 = state) :
    Carries invariant relation action := by
  intro state holds
  rw [same]
  exact ⟨refl state, fun _ _ => holds⟩

/-- Steps that need no invariant. -/
theorem of_steps (steps : Steps relation action) : Carries (fun _ => True) relation action :=
  fun state _ => ⟨steps state, fun _ _ => True.intro⟩

theorem mapError (carries : Carries invariant relation action) :
    Carries invariant relation (Effect.mapError rename action) := by
  intro state holds
  rcases action_eq : action state with ⟨result, final⟩
  rcases carries.of_run holds action_eq with ⟨related, kept⟩
  cases result with
  | error error =>
    rw [mapError_of_error action_eq]
    exact ⟨related, fun _ failed => by cases failed⟩
  | ok value =>
    rw [mapError_of_ok action_eq]
    exact ⟨related, fun _ _ => kept value rfl⟩

theorem bind (trans : ∀ {first second third}, relation first second → relation second third →
      relation first third)
    (firstCarries : Carries invariant relation first)
    (nextCarries : ∀ value, Carries invariant relation (next value)) :
    Carries invariant relation (first >>= next) := by
  intro state holds
  rcases first_eq : first state with ⟨result, middle⟩
  rcases firstCarries.of_run holds first_eq with ⟨related, kept⟩
  cases result with
  | error error =>
    rw [bind_error first_eq]
    exact ⟨related, fun _ failed => by cases failed⟩
  | ok value =>
    rw [bind_ok first_eq]
    rcases nextCarries value middle (kept value rfl) with ⟨relatedNext, keptNext⟩
    exact ⟨trans related relatedNext, keptNext⟩

/-- A computation that fails whatever its first part does. -/
theorem bind_throw (related : ∀ state, invariant state → relation state (action state).2) :
    Carries invariant relation (action >>= fun _ => (throw error : Effect σ ε β)) := by
  intro state holds
  constructor
  · rw [snd_bind_of_same fun _ _ => rfl]
    exact related state holds
  · intro value returned
    rcases action_eq : action state with ⟨result, middle⟩
    cases result with
    | error failed =>
      rw [bind_error action_eq] at returned
      cases returned
    | ok first =>
      rw [bind_ok action_eq] at returned
      cases returned

end Carries

/-- The computation does not change the observed part of the state. -/
def Frames (observe : σ → τ) (action : Effect σ ε α) : Prop :=
  ∀ state, observe (action state).2 = observe state

namespace Frames

variable {observe : σ → τ}

theorem of_run (frames : Frames observe action) {result : Except ε α}
    (run : action state = (result, final)) : observe final = observe state := by
  have frame := frames state
  rw [run] at frame
  exact frame

theorem pure (value : α) : Frames observe (Pure.pure value : Effect σ ε α) :=
  fun _ => rfl

theorem throw (error : ε) : Frames observe (Effect.throw error : Effect σ ε α) :=
  fun _ => rfl

theorem ofExcept (result : Except ε α) : Frames observe (Effect.ofExcept result : Effect σ ε α) :=
  fun _ => rfl

theorem get : Frames observe (Effect.get : Effect σ ε σ) :=
  fun _ => rfl

theorem outcome (frames : Frames observe action) : Frames observe (Effect.outcome action) :=
  frames

theorem mapError (frames : Frames observe action) :
    Frames observe (Effect.mapError rename action) :=
  frames

theorem bind (firstFrames : Frames observe first)
    (nextFrames : ∀ value, Frames observe (next value)) : Frames observe (first >>= next) := by
  intro state
  have firstFrame := firstFrames state
  rcases first_eq : first state with ⟨result, middle⟩
  rw [first_eq] at firstFrame
  cases result with
  | error error => rw [bind_error first_eq, ← firstFrame]
  | ok value => rw [bind_ok first_eq, nextFrames, ← firstFrame]

theorem ite {condition : Prop} [Decidable condition] {second : Effect σ ε α}
    (firstFrames : Frames observe first) (secondFrames : Frames observe second) :
    Frames observe (if condition then first else second) := by
  split
  · exact firstFrames
  · exact secondFrames

end Frames

/-- Every run adds entries to the log that are related to its outcome. -/
def Logs (log : σ → List τ) (post : Except ε α → List τ → Prop) (action : Effect σ ε α) : Prop :=
  ∀ state, ∃ entries, log (action state).2 = log state ++ entries ∧ post (action state).1 entries

namespace Logs

variable {log : σ → List τ} {post weaker : Except ε α → List τ → Prop}

theorem mono (logs : Logs log post action)
    (weaken : ∀ result entries, post result entries → weaker result entries) :
    Logs log weaker action := by
  intro state
  rcases logs state with ⟨entries, entries_eq, holds⟩
  exact ⟨entries, entries_eq, weaken _ _ holds⟩

/-- A computation that frames the log adds no entries. -/
theorem of_frames (frames : Frames log action) (holds : ∀ result, post result []) :
    Logs log post action := by
  intro state
  refine ⟨[], ?_, holds _⟩
  rw [frames state, List.append_nil]

theorem mapError {post : Except δ α → List τ → Prop}
    (logs : Logs log (fun result => post (result.mapError rename)) action) :
    Logs log post (Effect.mapError rename action) :=
  logs

theorem pure (holds : post (.ok value) []) :
    Logs log post (Pure.pure value : Effect σ ε α) :=
  fun state => ⟨[], (List.append_nil (log state)).symm, holds⟩

theorem throw (holds : post (.error error) []) :
    Logs log post (Effect.throw error : Effect σ ε α) :=
  fun state => ⟨[], (List.append_nil (log state)).symm, holds⟩

theorem ofExcept {result : Except ε α} (holds : post result []) :
    Logs log post (Effect.ofExcept result : Effect σ ε α) :=
  fun state => ⟨[], (List.append_nil (log state)).symm, holds⟩

variable {post : Except ε β → List τ → Prop} {middle : Except ε α → List τ → Prop}

theorem bind (logs : Logs log middle action)
    (failed : ∀ error entries, middle (.error error) entries → post (.error error) entries)
    (continued : ∀ value before, middle (.ok value) before →
      Logs log (fun result after => post result (before ++ after)) (next value)) :
    Logs log post (action >>= next) := by
  intro state
  rcases logs state with ⟨before, before_eq, holds⟩
  rcases action_eq : action state with ⟨result, middleState⟩
  rw [action_eq] at before_eq holds
  cases result with
  | error error =>
    rw [bind_error action_eq]
    exact ⟨before, before_eq, failed error before holds⟩
  | ok value =>
    rw [bind_ok action_eq]
    rcases continued value before holds middleState with ⟨after, after_eq, holdsAfter⟩
    refine ⟨before ++ after, ?_, holdsAfter⟩
    rw [after_eq, before_eq, List.append_assoc]

/-- After a computation that frames the log. -/
theorem bind_frames (frames : Frames log action)
    (failed : ∀ error, post (.error error) []) (continued : ∀ value, Logs log post (next value)) :
    Logs log post (action >>= next) := by
  have quiet : Logs log (fun _ entries => entries = []) action := of_frames frames fun _ => rfl
  apply bind quiet
  · rintro error entries rfl
    exact failed error
  · rintro value before rfl
    exact continued value

variable {next : Except ε α → Effect σ ε β}

/-- After the outcome of a computation, which never fails itself. -/
theorem bind_outcome (logs : Logs log middle action)
    (continued : ∀ result before, middle result before →
      Logs log (fun final after => post final (before ++ after)) (next result)) :
    Logs log post (action.outcome >>= next) := by
  intro state
  rcases logs state with ⟨before, before_eq, holds⟩
  have outcome_eq : action.outcome state = (.ok (action state).1, (action state).2) := rfl
  rw [bind_ok outcome_eq]
  rcases continued _ before holds (action state).2 with ⟨after, after_eq, holdsAfter⟩
  refine ⟨before ++ after, ?_, holdsAfter⟩
  rw [after_eq, before_eq, List.append_assoc]

theorem bind_outcome_frames (frames : Frames log action)
    (continued : ∀ result, Logs log post (next result)) :
    Logs log post (action.outcome >>= next) := by
  have quiet : Logs log (fun _ entries => entries = []) action := of_frames frames fun _ => rfl
  apply bind_outcome quiet
  rintro result before rfl
  exact continued result

end Logs

/-- Every value that the computation returns has the property. -/
def Ensures (post : α → Prop) (action : Effect σ ε α) : Prop :=
  ∀ state value, (action state).1 = .ok value → post value

namespace Ensures

variable {middle : α → Prop} {post : β → Prop}

theorem pure {value : β} (holds : post value) : Ensures post (Pure.pure value : Effect σ ε β) := by
  intro state returned returned_eq
  exact Except.ok.inj returned_eq ▸ holds

theorem throw (error : ε) : Ensures post (Effect.throw error : Effect σ ε β) := by
  intro state returned returned_eq
  cases returned_eq

theorem ofExcept (holds : ∀ value, result = .ok value → post value) :
    Ensures post (Effect.ofExcept result : Effect σ ε β) :=
  fun _ => holds

theorem trivial (action : Effect σ ε α) : Ensures (fun _ => True) action :=
  fun _ _ _ => True.intro

theorem bind (ensures : Ensures middle first)
    (continued : ∀ value, middle value → Ensures post (next value)) :
    Ensures post (first >>= next) := by
  intro state returned returned_eq
  rcases first_eq : first state with ⟨result, middleState⟩
  cases result with
  | error error =>
    rw [bind_error first_eq] at returned_eq
    cases returned_eq
  | ok value =>
    rw [bind_ok first_eq] at returned_eq
    exact continued value (ensures state value (by rw [first_eq])) middleState returned returned_eq

/-- After the outcome of a computation, which may be an error. -/
theorem bind_outcome {next : Except ε α → Effect σ ε β} (ensures : Ensures middle action)
    (returned : ∀ value, middle value → Ensures post (next (.ok value)))
    (failed : ∀ error, Ensures post (next (.error error))) :
    Ensures post (action.outcome >>= next) := by
  have outcomeEnsures : Ensures (fun result => ∀ value, result = .ok value → middle value)
      action.outcome := by
    intro state result result_eq value value_eq
    obtain rfl := Except.ok.inj result_eq
    exact ensures state value value_eq
  refine bind outcomeEnsures ?_
  intro result holds
  cases result with
  | error error => exact failed error
  | ok value => exact returned value (holds value rfl)

end Ensures

end Effect

end HnsDaneEngine.Control

/-!
## What a failure leaves behind

A computation fails within a relation when every run that fails relates the states
before and after.  That is weaker than steps within the relation: a run that returns
may do more.  A sequence keeps it when only its last part that can fail does more.
-/

namespace HnsDaneEngine.Control.Effect

universe u

variable {σ ε α β : Type u} {relation : σ → σ → Prop}

/-- Every run that fails relates the states before and after. -/
def FailsWithin (relation : σ → σ → Prop) (action : Effect σ ε α) : Prop :=
  ∀ state error final, action state = (.error error, final) → relation state final

/-- Every run returns. -/
def NeverFails (action : Effect σ ε α) : Prop :=
  ∀ state error final, action state ≠ (.error error, final)

/-- Both branches of a choice step within the relation. -/
theorem Steps.ite {condition : Prop} [Decidable condition] {first second : Effect σ ε α}
    (firstSteps : Steps relation first) (secondSteps : Steps relation second) :
    Steps relation (if condition then first else second) := by
  split
  · exact firstSteps
  · exact secondSteps

namespace NeverFails

theorem pure (value : α) : NeverFails (Pure.pure value : Effect σ ε α) := by
  rintro state error final ⟨⟩

theorem get : NeverFails (Effect.get : Effect σ ε σ) := by
  rintro state error final ⟨⟩

theorem modify (change : σ → σ) : NeverFails (Effect.modify change : Effect σ ε PUnit) := by
  rintro state error final ⟨⟩

theorem bind {first : Effect σ ε α} {next : α → Effect σ ε β} (firstNever : NeverFails first)
    (nextNever : ∀ value, NeverFails (next value)) : NeverFails (first >>= next) := by
  intro state error final run
  rcases bind_cases run with ⟨reason, failed, -⟩ | ⟨value, middle, -, continued⟩
  · exact firstNever state reason final failed
  · exact nextNever value middle error final continued

end NeverFails

namespace FailsWithin

theorem of_steps {action : Effect σ ε α} (steps : Steps relation action) :
    FailsWithin relation action :=
  fun _ _ _ run => steps.of_run run

/-- The first part steps within the relation. -/
theorem bind_steps (trans : ∀ {first second third}, relation first second →
      relation second third → relation first third) {first : Effect σ ε α}
    {next : α → Effect σ ε β} (firstSteps : Steps relation first)
    (nextFails : ∀ value, FailsWithin relation (next value)) :
    FailsWithin relation (first >>= next) := by
  intro state error final run
  rcases bind_cases run with ⟨reason, failed, -⟩ | ⟨value, middle, returned, continued⟩
  · exact firstSteps.of_run failed
  · exact trans (firstSteps.of_run returned) (nextFails value middle error final continued)

/-- Nothing fails after the first part. -/
theorem bind_never {first : Effect σ ε α} {next : α → Effect σ ε β}
    (firstFails : FailsWithin relation first) (nextNever : ∀ value, NeverFails (next value)) :
    FailsWithin relation (first >>= next) := by
  intro state error final run
  rcases bind_cases run with ⟨reason, failed, -⟩ | ⟨value, middle, -, continued⟩
  · exact firstFails state reason final failed
  · exact absurd continued (nextNever value middle error final)

theorem ite {condition : Prop} [Decidable condition] {first second : Effect σ ε α}
    (firstFails : FailsWithin relation first) (secondFails : FailsWithin relation second) :
    FailsWithin relation (if condition then first else second) := by
  split
  · exact firstFails
  · exact secondFails

end FailsWithin

end HnsDaneEngine.Control.Effect
