import HnsDaneEngine.Control.Except

/-!
# Two computations in step

Computations over states of their own agree when, from related states, the results and
the states of two successful runs are related again.  Nothing is said where one of them
fails.  The rules follow the structure of the computations.  Loops have a bound on their
rounds, and enough of them make no difference.
-/

namespace HnsDaneEngine.Control

variable {σ τ ε δ α β γ κ : Type} {results : α → β → Prop} {first : StateT σ (Except ε) α}
  {next : α → StateT σ (Except ε) γ}

/-- Success of a sequence of computations with a state. -/
theorem state_bind_eq_ok_iff {state final : σ} {result : γ} :
    (first >>= next) state = .ok (result, final) ↔
      ∃ value middle, first state = .ok (value, middle) ∧
        next value middle = .ok (result, final) := by
  change (first state >>= fun pair => next pair.1 pair.2) = _ ↔ _
  rw [bind_eq_ok_iff]
  constructor
  · rintro ⟨⟨value, middle⟩, run, continued⟩
    exact ⟨value, middle, run, continued⟩
  · rintro ⟨value, middle, run, continued⟩
    exact ⟨(value, middle), run, continued⟩

/-- Every success relates the states before and after. -/
def Moves (step : σ → σ → Prop) (run : StateT σ (Except ε) α) : Prop :=
  ∀ ⦃before value after⦄, run before = .ok (value, after) → step before after

theorem Moves.pure {step : σ → σ → Prop} (refl : ∀ state, step state state) (value : α) :
    Moves step (pure value : StateT σ (Except ε) α) := by
  intro before _ _ run
  cases run
  exact refl before

theorem Moves.bind {step : σ → σ → Prop}
    (trans : ∀ first second third, step first second → step second third → step first third)
    (firstMoves : Moves step first) (nextMoves : ∀ value, Moves step (next value)) :
    Moves step (first >>= next) := by
  intro before _ _ run
  obtain ⟨value, middle, firstRun, rest⟩ := state_bind_eq_ok_iff.mp run
  exact trans _ _ _ (firstMoves firstRun) (nextMoves value rest)

/-- A cursor inside of its limit moves forward and stays inside. -/
def Forward (limit before after : Nat) : Prop :=
  before ≤ limit → before ≤ after ∧ after ≤ limit

theorem Forward.refl (limit cursor : Nat) : Forward limit cursor cursor :=
  fun inside => ⟨Nat.le_refl _, inside⟩

theorem Forward.trans {limit first second third : Nat} (left : Forward limit first second)
    (right : Forward limit second third) : Forward limit first third := by
  intro inside
  obtain ⟨left_le, middleInside⟩ := left inside
  obtain ⟨right_le, finalInside⟩ := right middleInside
  exact ⟨Nat.le_trans left_le right_le, finalInside⟩

/-- Both succeed only with related results and states. -/
def Agrees (states : σ → τ → Prop) (results : α → β → Prop) (first : StateT σ (Except ε) α)
    (second : StateT τ (Except δ) β) : Prop :=
  ∀ ⦃left right value left' other right'⦄, states left right →
    first left = .ok (value, left') → second right = .ok (other, right') →
      results value other ∧ states left' right'

namespace Agrees

variable {states : σ → τ → Prop}

theorem pure {value : α} {other : β} (related : results value other) :
    Agrees states results (pure value : StateT σ (Except ε) α)
      (pure other : StateT τ (Except δ) β) := by
  intro left right _ _ _ _ start first second
  cases first
  cases second
  exact ⟨related, start⟩

variable {second : StateT τ (Except δ) β}

theorem bind {between : α → β → Prop} {results : γ → κ → Prop}
    {other : β → StateT τ (Except δ) κ} (agree : Agrees states between first second)
    (continue_ : ∀ value result, between value result →
      Agrees states results (next value) (other result)) :
    Agrees states results (first >>= next) (second >>= other) := by
  intro left right _ _ _ _ start firstRun secondRun
  obtain ⟨value, left', firstStep, firstRest⟩ := state_bind_eq_ok_iff.mp firstRun
  obtain ⟨result, right', secondStep, secondRest⟩ := state_bind_eq_ok_iff.mp secondRun
  obtain ⟨related, middle⟩ := agree start firstStep secondStep
  exact continue_ value result related middle firstRest secondRest

/-- A computation that fails agrees with every other. -/
theorem error_right (fails : ∀ state, ∃ error, second state = .error error) :
    Agrees states results first second := by
  intro left right _ _ _ _ _ _ secondRun
  obtain ⟨error, failed⟩ := fails right
  rw [failed] at secondRun
  cases secondRun

end Agrees

/-- Repeat a body until the state is done, for a bounded number of rounds. -/
def repeatUntil (done : σ → Bool) (body : σ → Except ε σ) (exhausted : ε) :
    Nat → σ → Except ε σ
  | 0, _ => .error exhausted
  | rounds + 1, state =>
    if done state then .ok state
    else do
      let state ← body state
      repeatUntil done body exhausted rounds state

/-- A body that makes progress does not need more rounds than there is to do. -/
theorem repeatUntil_of_enough {done : σ → Bool} {body : σ → Except ε σ} {exhausted : ε}
    {Holds : σ → Prop} {left : σ → Nat}
    (progress : ∀ state after, Holds state → done state = false → body state = .ok after →
      Holds after ∧ left after < left state) {state : σ} (holds : Holds state) {rounds : Nat}
    (enough : left state < rounds) (more : Nat) :
    repeatUntil done body exhausted (rounds + more) state =
      repeatUntil done body exhausted rounds state := by
  induction rounds generalizing state with
  | zero => exact absurd enough (Nat.not_lt_zero _)
  | succ rounds ih =>
    rw [Nat.add_right_comm, repeatUntil, repeatUntil]
    cases finished : done state with
    | true => rfl
    | false =>
      cases step : body state with
      | error error => rfl
      | ok after =>
        obtain ⟨afterHolds, less⟩ := progress state after holds finished step
        exact ih afterHolds (by omega)

/-- Two loops whose bodies keep a relation, and end together, keep it too. -/
theorem repeatUntil_agree {states : σ → τ → Prop} {done : σ → Bool} {body : σ → Except ε σ}
    {exhausted : ε} {done' : τ → Bool} {body' : τ → Except δ τ} {exhausted' : δ}
    (done_eq : ∀ {left right}, states left right → done left = done' right)
    (agree : ∀ {left right left' right'}, states left right → body left = .ok left' →
      body' right = .ok right' → states left' right')
    {rounds rounds' : Nat} {left final : σ} {right final' : τ} (start : states left right)
    (first : repeatUntil done body exhausted rounds left = .ok final)
    (second : repeatUntil done' body' exhausted' rounds' right = .ok final') :
    states final final' := by
  induction rounds generalizing rounds' left right with
  | zero => cases first
  | succ rounds ih =>
    cases rounds' with
    | zero => cases second
    | succ rounds' =>
      rw [repeatUntil] at first second
      rw [← done_eq start] at second
      cases finished : done left with
      | true =>
        rw [finished] at first second
        obtain rfl := Except.ok.inj first
        obtain rfl := Except.ok.inj second
        exact start
      | false =>
        rw [finished] at first second
        obtain ⟨left', firstStep, firstRest⟩ := of_bind_ok first
        obtain ⟨right', secondStep, secondRest⟩ := of_bind_ok second
        exact ih (agree start firstStep secondStep) firstRest secondRest

end HnsDaneEngine.Control
