import HnsDaneEngine.Control.Effect
import HnsDaneEngine.Data.SortedTable
import HnsDaneEngine.Order.Lex
import HnsDaneEngine.Order.Sequenced
import HnsDaneEngine.Primitives.Checked
import HnsDaneEngine.Primitives.Hash

/-!
# Durable replacement state of a named route

The state of one authority and service remembers the newest authorization, and for each
endpoint the newest delegation and route.  A state is scoped once its generations, its
authority digest and its route key are nonzero; the mutators keep the changes made before
they fail.
-/

namespace HnsDaneEngine.NamedRoute

open Control Data HnsDaneEngine.Order Primitives

def maxHnsaNamedRouteEndpoints : Nat := 64

/-- A compressed public key. -/
structure EndpointKey where
  octets : Octets
  length_eq : octets.length = 33

theorem EndpointKey.octets_injective : Function.Injective EndpointKey.octets := by
  intro first second equal
  cases first
  cases second
  cases equal
  rfl

/-- Keys are ordered as octet strings. -/
instance endpointKeyLinearOrder : LinearOrder EndpointKey :=
  LinearOrder.lift' EndpointKey.octets EndpointKey.octets_injective

/-- The errors of `HnsaRouteError` that the sequence state gives. -/
inductive SequenceStateError
  | invalidSequenceState
  | sequenceStateScopeMismatch
  | sequenceStateRollback
  | sequenceStateConflicted
  | sequenceStateExhausted
  | sequenceStateGenerationExhausted
  | conflictingSequenceState
  | sequenceRollback
  deriving DecidableEq

/-- Whether a state may advance. -/
inductive HnsaSequenceStateStatus
  | active
  | conflicted
  | exhausted
  deriving DecidableEq

/-- A serial and the id of the authorization. -/
abbrev HnsaAuthorizationState : Type := Sequenced Hash

/-- A sequence and the id of the delegation. -/
abbrev HnsaDelegationState : Type := Sequenced Hash

/-- A sequence and the digest of the route. -/
abbrev HnsaRouteState : Type := Sequenced Hash

/-- What is kept under an endpoint key. -/
structure HnsaEndpointState where
  delegation : Option HnsaDelegationState
  route : Option HnsaRouteState
  deriving DecidableEq

/-- The anti-rollback state of a name. -/
structure HnsaNamedRouteState where
  generation : Nat
  resourceGeneration : Nat
  authorityDigest : Hash
  routeKey : Hash
  status : HnsaSequenceStateStatus
  authorization : Option HnsaAuthorizationState
  endpoints : SortedTable EndpointKey HnsaEndpointState maxHnsaNamedRouteEndpoints
  deriving DecidableEq

/-- Changes of the state, which an error does not undo. -/
abbrev StateEffect (α : Type) : Type := Effect HnsaNamedRouteState SequenceStateError α

namespace HnsaNamedRouteState

def new : HnsaNamedRouteState where
  generation := 0
  resourceGeneration := 0
  authorityDigest := Hash.zero
  routeKey := Hash.zero
  status := .active
  authorization := none
  endpoints := SortedTable.empty

def isScoped (state : HnsaNamedRouteState) : Prop :=
  state.generation ≠ 0 ∧ state.resourceGeneration ≠ 0 ∧ state.authorityDigest ≠ Hash.zero ∧
    state.routeKey ≠ Hash.zero

instance isScopedDecidable (state : HnsaNamedRouteState) : Decidable state.isScoped :=
  inferInstanceAs (Decidable (_ ∧ _ ∧ _ ∧ _))

/-- The authority and the authorization that a state follows. -/
def authorityState (state : HnsaNamedRouteState) : Nat × Hash × Option HnsaAuthorizationState :=
  (state.resourceGeneration, state.authorityDigest, state.authorization)

/-- The delegation and the route remembered for an endpoint. -/
def delegation? (state : HnsaNamedRouteState) (endpointKey : EndpointKey) :
    Option HnsaDelegationState :=
  (state.endpoints.lookup endpointKey).bind HnsaEndpointState.delegation

def route? (state : HnsaNamedRouteState) (endpointKey : EndpointKey) : Option HnsaRouteState :=
  (state.endpoints.lookup endpointKey).bind HnsaEndpointState.route

/-- The changes of a state under the next generation. -/
def bumped (state : HnsaNamedRouteState) : HnsaNamedRouteState :=
  { state with generation := state.generation + 1 }

end HnsaNamedRouteState

open HnsaNamedRouteState

def bumpGeneration : StateEffect PUnit := fun state =>
  match checkedAdd state.generation 1 with
  | none => (.error .sequenceStateGenerationExhausted, state)
  | some generation => (.ok ⟨⟩, { state with generation })

/-- `bump_generation` and the assignments that follow it. -/
def bumpThen (assign : HnsaNamedRouteState → HnsaNamedRouteState) : StateEffect PUnit := do
  bumpGeneration
  Effect.modify assign

def markConflicted : StateEffect PUnit := fun state =>
  if state.status = .conflicted then (.ok ⟨⟩, state)
  else bumpThen (fun state => { state with status := .conflicted }) state

def markExhausted : StateEffect PUnit := fun state =>
  if state.status = .exhausted then (.ok ⟨⟩, state)
  else bumpThen (fun state => { state with status := .exhausted }) state

/-- The failure of an equal number under another id. -/
def refuseConflict : StateEffect PUnit := do
  markConflicted
  Effect.throw .conflictingSequenceState

def bindScope (authorityDigest routeKey : Hash) (resourceGeneration : Nat) :
    StateEffect PUnit := fun state =>
  if ¬ state.isScoped then
    (.ok ⟨⟩,
      { generation := 1
        resourceGeneration
        authorityDigest
        routeKey
        status := .active
        authorization := none
        endpoints := SortedTable.empty })
  else if state.routeKey ≠ routeKey then (.error .sequenceStateScopeMismatch, state)
  else if resourceGeneration < state.resourceGeneration then
    (.error .sequenceStateRollback, state)
  else if state.authorityDigest ≠ authorityDigest then
    if resourceGeneration ≤ state.resourceGeneration then (.error .sequenceStateRollback, state)
    else
      bumpThen (fun state =>
        { state with
          resourceGeneration
          authorityDigest
          status := .active
          authorization := none
          endpoints := SortedTable.empty }) state
  else if state.resourceGeneration < resourceGeneration then
    bumpThen (fun state => { state with resourceGeneration }) state
  else (.ok ⟨⟩, state)

def ensureActive : StateEffect PUnit := fun state =>
  match state.status with
  | .active => (.ok ⟨⟩, state)
  | .conflicted => (.error .sequenceStateConflicted, state)
  | .exhausted => (.error .sequenceStateExhausted, state)

/-- A newer authorization ends the delegations under the older one. -/
def advanceAuthorization (serial : Nat) (id : Hash) : StateEffect PUnit := fun state =>
  match replacement state.authorization ⟨serial, id⟩ with
  | .vacant => bumpThen (fun state => { state with authorization := some ⟨serial, id⟩ }) state
  | .rollback => (.error .sequenceRollback, state)
  | .conflict => refuseConflict state
  | .newer =>
    bumpThen (fun state =>
      { state with
        authorization := some ⟨serial, id⟩
        endpoints := state.endpoints.mapRows fun _ endpoint =>
          { endpoint with delegation := none } }) state
  | .same => (.ok ⟨⟩, state)

def advanceDelegation (endpointKey : EndpointKey) (sequence : Nat) (id : Hash) :
    StateEffect PUnit := fun state =>
  match state.endpoints.lookup endpointKey with
  | some endpoint =>
    match replacement endpoint.delegation ⟨sequence, id⟩ with
    | .rollback => (.error .sequenceRollback, state)
    | .conflict => refuseConflict state
    | .same => (.ok ⟨⟩, state)
    | .vacant | .newer =>
      bumpThen (fun state =>
        { state with
          endpoints := state.endpoints.modify endpointKey fun endpoint =>
            { endpoint with delegation := some ⟨sequence, id⟩ } }) state
  | none =>
    match state.endpoints.insert? endpointKey ⟨some ⟨sequence, id⟩, none⟩ with
    | none => (do markExhausted; Effect.throw .sequenceStateExhausted : StateEffect PUnit) state
    | some endpoints => bumpThen (fun state => { state with endpoints }) state

def advanceRoute (endpointKey : EndpointKey) (sequence : Nat) (digest : Hash) :
    StateEffect PUnit := fun state =>
  match state.endpoints.lookup endpointKey with
  | none => (.error .invalidSequenceState, state)
  | some endpoint =>
    match replacement endpoint.route ⟨sequence, digest⟩ with
    | .rollback => (.error .sequenceRollback, state)
    | .conflict => refuseConflict state
    | .same => (.ok ⟨⟩, state)
    | .vacant | .newer =>
      bumpThen (fun state =>
        { state with
          endpoints := state.endpoints.modify endpointKey fun endpoint =>
            { endpoint with route := some ⟨sequence, digest⟩ } }) state

theorem bumpThen_cases (assign : HnsaNamedRouteState → HnsaNamedRouteState)
    (state : HnsaNamedRouteState) :
    bumpThen assign state = (.error .sequenceStateGenerationExhausted, state) ∨
      bumpThen assign state = (.ok ⟨⟩, assign state.bumped) := by
  cases added : checkedAdd state.generation 1 with
  | none =>
    left
    exact Effect.bind_error (by rw [bumpGeneration, added])
  | some generation =>
    right
    rcases checkedAdd_eq_some_iff.mp added with ⟨rfl, _⟩
    exact Effect.bind_ok (by rw [bumpGeneration, added]; rfl)

/-- A mark that fails leaves the state alone. -/
theorem markConflicted_cases (state : HnsaNamedRouteState) :
    (markConflicted state).2 = state ∨
      (markConflicted state).2 = { state.bumped with status := .conflicted } := by
  unfold markConflicted
  split
  next => exact .inl rfl
  next =>
    rcases bumpThen_cases (fun state => { state with status := .conflicted }) state with
      failed | done
    · exact .inl (by rw [failed])
    · exact .inr (by rw [done])

theorem markExhausted_cases (state : HnsaNamedRouteState) :
    (markExhausted state).2 = state ∨
      (markExhausted state).2 = { state.bumped with status := .exhausted } := by
  unfold markExhausted
  split
  next => exact .inl rfl
  next =>
    rcases bumpThen_cases (fun state => { state with status := .exhausted }) state with
      failed | done
    · exact .inl (by rw [failed])
    · exact .inr (by rw [done])

/-- An error after a computation keeps what the computation has changed. -/
theorem snd_bind_throw {action : StateEffect PUnit} {error : SequenceStateError}
    (state : HnsaNamedRouteState) :
    ((do action; Effect.throw error : StateEffect PUnit) state).2 = (action state).2 := by
  rcases action_eq : action state with ⟨outcome, final⟩
  cases outcome with
  | error error => rw [Effect.bind_error action_eq]
  | ok value =>
    rw [Effect.bind_ok action_eq]
    rfl

variable {state final : HnsaNamedRouteState}

theorem bind_throw_ne_ok {action : StateEffect PUnit} {error : SequenceStateError} :
    (do action; Effect.throw error : StateEffect PUnit) state ≠ (.ok ⟨⟩, final) := by
  intro run
  rcases Effect.of_bind_ok run with ⟨_, _, _, thrown⟩
  cases thrown

theorem eq_of_bumpThen {assign : HnsaNamedRouteState → HnsaNamedRouteState}
    (run : bumpThen assign state = (.ok ⟨⟩, final)) : final = assign state.bumped := by
  rcases bumpThen_cases assign state with failed | done
  · rw [failed] at run
    cases run
  · rw [done] at run
    cases run
    rfl

theorem authorization_of_advanceAuthorization {serial : Nat} {id : Hash}
    (run : advanceAuthorization serial id state = (.ok ⟨⟩, final)) :
    final.authorityState = (state.resourceGeneration, state.authorityDigest, some ⟨serial, id⟩) := by
  unfold advanceAuthorization at run
  split at run
  next =>
    rw [eq_of_bumpThen run]
    rfl
  next => cases run
  next => exact absurd run bind_throw_ne_ok
  next =>
    rw [eq_of_bumpThen run]
    rfl
  next same =>
    cases run
    rw [authorityState, eq_some_of_replacement_same same]

theorem delegation_of_advanceDelegation {endpointKey : EndpointKey} {sequence : Nat} {id : Hash}
    (run : advanceDelegation endpointKey sequence id state = (.ok ⟨⟩, final)) :
    final.delegation? endpointKey = some ⟨sequence, id⟩ := by
  unfold advanceDelegation at run
  split at run
  next endpoint found =>
    have assigned : ((state.endpoints.modify endpointKey fun endpoint =>
        { endpoint with delegation := some ⟨sequence, id⟩ }).lookup endpointKey).bind
        HnsaEndpointState.delegation = some ⟨sequence, id⟩ := by
      rw [SortedTable.lookup_modify, if_pos rfl, found]
      rfl
    split at run
    next => cases run
    next => exact absurd run bind_throw_ne_ok
    next same =>
      cases run
      rw [delegation?, found]
      exact eq_some_of_replacement_same same
    next =>
      rw [eq_of_bumpThen run]
      exact assigned
    next =>
      rw [eq_of_bumpThen run]
      exact assigned
  next absent =>
    split at run
    next => exact absurd run bind_throw_ne_ok
    next endpoints fits =>
      rw [eq_of_bumpThen run]
      change (endpoints.lookup endpointKey).bind HnsaEndpointState.delegation = _
      rw [SortedTable.lookup_insert? fits, if_pos rfl]
      rfl

end HnsDaneEngine.NamedRoute
