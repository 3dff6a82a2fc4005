import Mathlib.Data.List.Induction

/-!
# Runs of a state machine

A machine is a state type with a total step: a call that fails has a successor
state too.  A run is a list of calls, the earliest first.  The rules say how a
property of states, or of states with the calls that led to them, is carried along
every run.  A machine that answers its calls leaves a log; a rule carries a property
of the log and the state along the run.
-/

namespace HnsDaneEngine.Control

universe u v

variable {State : Type u} {Call : Type v} (step : State → Call → State)

/-- The state after all calls. -/
def runFrom (state : State) (calls : List Call) : State :=
  calls.foldl step state

variable (state : State)

@[simp]
theorem runFrom_nil : runFrom step state [] = state :=
  rfl

@[simp]
theorem runFrom_cons (call : Call) (calls : List Call) :
    runFrom step state (call :: calls) = runFrom step (step state call) calls :=
  rfl

theorem runFrom_append (earlier later : List Call) :
    runFrom step state (earlier ++ later) = runFrom step (runFrom step state earlier) later :=
  List.foldl_append

theorem runFrom_concat (calls : List Call) (call : Call) :
    runFrom step state (calls ++ [call]) = step (runFrom step state calls) call := by
  rw [runFrom_append]
  rfl

variable {step}

/-- What every step preserves holds along every run. -/
theorem runFrom_invariant {Invariant : State → Prop}
    (preserved : ∀ state call, Invariant state → Invariant (step state call)) {state : State}
    (start : Invariant state) (calls : List Call) : Invariant (runFrom step state calls) := by
  induction calls generalizing state with
  | nil => exact start
  | cons call calls ih => exact ih (preserved state call start)

/-- The rule for a property that also speaks about the calls made so far. -/
theorem runFrom_history {History : List Call → State → Prop} {state : State}
    (start : History [] state)
    (extended : ∀ past call, History past (runFrom step state past) →
      History (past ++ [call]) (step (runFrom step state past) call)) (calls : List Call) :
    History calls (runFrom step state calls) := by
  induction calls using List.reverseRecOn with
  | nil => exact start
  | append_singleton past call ih =>
    rw [runFrom_concat]
    exact extended past call ih

section

universe w

variable {Entry : Type w} (step) (entries : State → Call → List Entry)

/-- What the calls add to the log, the earliest first. -/
def logFrom (state : State) : List Call → List Entry
  | [] => []
  | call :: calls => entries state call ++ logFrom (step state call) calls

@[simp]
theorem logFrom_nil : logFrom step entries state [] = [] :=
  rfl

@[simp]
theorem logFrom_cons (call : Call) (calls : List Call) :
    logFrom step entries state (call :: calls) =
      entries state call ++ logFrom step entries (step state call) calls :=
  rfl

theorem logFrom_append (earlier later : List Call) :
    logFrom step entries state (earlier ++ later) = logFrom step entries state earlier ++
        logFrom step entries (runFrom step state earlier) later := by
  induction earlier generalizing state with
  | nil => rfl
  | cons call calls ih =>
    rw [List.cons_append, logFrom_cons, logFrom_cons, ih, List.append_assoc, runFrom_cons]

theorem logFrom_concat (calls : List Call) (call : Call) :
    logFrom step entries state (calls ++ [call]) =
      logFrom step entries state calls ++ entries (runFrom step state calls) call := by
  rw [logFrom_append, logFrom_cons, logFrom_nil, List.append_nil]

variable {step entries}

/-- The rule for a property of the state with the log that led to it. -/
theorem logFrom_invariant {Invariant : List Entry → State → Prop} {state : State}
    (start : Invariant [] state)
    (preserved : ∀ log state call, Invariant log state →
      Invariant (log ++ entries state call) (step state call)) (calls : List Call) :
    Invariant (logFrom step entries state calls) (runFrom step state calls) := by
  induction calls using List.reverseRecOn with
  | nil => exact start
  | append_singleton past call ih =>
    rw [runFrom_concat, logFrom_concat]
    exact preserved _ _ call ih

end

end HnsDaneEngine.Control

/-!
## Loops that may fail

A round of a loop fails, goes on with another state or returns a result.  The
relation `LoopReturns` runs the loop to its end and bounds no rounds; a loop with a
bound agrees with it where a measure falls in every round that goes on.
-/

namespace HnsDaneEngine.Control

universe u v w

variable {ε : Type u} {State : Type v} {Result : Type w}
  (round : State → Except ε (State ⊕ Result))

/-- The loop, entered in a state, comes to its end with an error or a result. -/
inductive LoopReturns : State → Except ε Result → Prop
  | fails {state : State} {error : ε} (failed : round state = .error error) :
      LoopReturns state (.error error)
  | returns {state : State} {result : Result} (returned : round state = .ok (.inr result)) :
      LoopReturns state (.ok result)
  | continues {state next : State} {outcome : Except ε Result}
      (continued : round state = .ok (.inl next)) (rest : LoopReturns next outcome) :
      LoopReturns state outcome

/-- The loop with a bound on its rounds. -/
def loopFor (exhausted : ε) : Nat → State → Except ε Result
  | 0, _ => .error exhausted
  | rounds + 1, state =>
    match round state with
    | .error error => .error error
    | .ok (.inr result) => .ok result
    | .ok (.inl next) => loopFor exhausted rounds next

variable {round}

/-- Where every round that goes on keeps an invariant and lowers a measure, the loop
comes to its end within as many rounds. -/
theorem loopReturns_loopFor {Invariant : State → Prop} {measure : State → Nat} {exhausted : ε}
    (decreases : ∀ state next, Invariant state → round state = .ok (.inl next) →
      Invariant next ∧ measure next < measure state)
    {rounds : Nat} {state : State} (start : Invariant state) (enough : measure state < rounds) :
    LoopReturns round state (loopFor round exhausted rounds state) := by
  induction rounds generalizing state with
  | zero => cases enough
  | succ rounds ih =>
    rw [loopFor]
    split
    next error failed => exact .fails failed
    next result returned => exact .returns returned
    next next continued =>
      rcases decreases state next start continued with ⟨kept, lower⟩
      exact .continues continued (ih kept (Nat.lt_of_lt_of_le lower (Nat.le_of_lt_succ enough)))

end HnsDaneEngine.Control
