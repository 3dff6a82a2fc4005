import HnsDaneEngine.Control.Run
import HnsDaneEngine.NamedRoute.State

/-!
# Sequences of a named route over a whole run

A selection binds the scope of the state, goes on when the state is active, and then
calls the other mutators until one of them fails.  Every call makes one of a few moves,
and what has to hold of a run is read off these moves.
-/

namespace HnsDaneEngine.NamedRoute

open Control Data HnsDaneEngine.Order Primitives HnsaNamedRouteState

/-- The calls that a selection makes after the scope is bound and the state is active. -/
inductive Mutation
  | advanceAuthorization (serial : Nat) (id : Hash)
  | advanceDelegation (endpointKey : EndpointKey) (sequence : Nat) (id : Hash)
  | advanceRoute (endpointKey : EndpointKey) (sequence : Nat) (digest : Hash)
  | markConflicted
  | markExhausted

/-- The calls that may change the state. -/
inductive Call
  | bindScope (authorityDigest routeKey : Hash) (resourceGeneration : Nat)
  | mutate (mutation : Mutation)

/-- The state, and whether the selection under way may still change it. -/
structure Session where
  state : HnsaNamedRouteState
  admitted : Bool

def Mutation.run : Mutation → StateEffect PUnit
  | advanceAuthorization serial id => NamedRoute.advanceAuthorization serial id
  | advanceDelegation endpointKey sequence id =>
    NamedRoute.advanceDelegation endpointKey sequence id
  | advanceRoute endpointKey sequence digest => NamedRoute.advanceRoute endpointKey sequence digest
  | markConflicted => do NamedRoute.markConflicted; Effect.throw .conflictingSequenceState
  | markExhausted => do NamedRoute.markExhausted; Effect.throw .sequenceStateExhausted

/-- The scope is bound at the start of a selection, which stops at the first error. -/
def bindAndCheck (authorityDigest routeKey : Hash) (resourceGeneration : Nat) :
    StateEffect PUnit := do
  bindScope authorityDigest routeKey resourceGeneration
  ensureActive

/-- The session after a part of a selection. -/
def Session.ofOutcome (outcome : Except SequenceStateError PUnit × HnsaNamedRouteState) :
    Session :=
  ⟨outcome.2, outcome.1.toBool⟩

def Session.step (session : Session) : Call → Session
  | .bindScope authorityDigest routeKey resourceGeneration =>
    .ofOutcome (bindAndCheck authorityDigest routeKey resourceGeneration session.state)
  | .mutate mutation =>
    if session.admitted then .ofOutcome (mutation.run session.state) else session

/-- The scope of the call is not one that marks a state as unscoped. -/
def Call.HasScope : Call → Prop
  | .bindScope authorityDigest routeKey resourceGeneration =>
    authorityDigest ≠ Hash.zero ∧ routeKey ≠ Hash.zero ∧ resourceGeneration ≠ 0
  | .mutate _ => True

/-- The slots after a move under the same authority. -/
structure Replaces (before after : HnsaNamedRouteState) : Prop where
  authorization : Supersedes before.authorization after.authorization
  route : ∀ endpointKey, Supersedes (before.route? endpointKey) (after.route? endpointKey)
  delegation : after.authorization = before.authorization → ∀ endpointKey,
    Supersedes (before.delegation? endpointKey) (after.delegation? endpointKey)

/-- What one call can do to a state. -/
inductive Moves (before : HnsaNamedRouteState) : HnsaNamedRouteState → Prop
  | stays : Moves before before
  /-- Another authority under a greater resource generation starts from nothing. -/
  | rebinds (authorityDigest routeKey : Hash) (resourceGeneration : Nat)
      (other : authorityDigest ≠ before.authorityDigest)
      (greater : before.resourceGeneration < resourceGeneration)
      (digest_ne : authorityDigest ≠ Hash.zero) (key_ne : routeKey ≠ Hash.zero) :
      Moves before ⟨before.generation + 1, resourceGeneration, authorityDigest, routeKey,
        .active, none, SortedTable.empty⟩
  | renews (resourceGeneration : Nat) (greater : before.resourceGeneration < resourceGeneration) :
      Moves before { before.bumped with resourceGeneration }
  | replaces (authorization : Option HnsaAuthorizationState)
      (endpoints : SortedTable EndpointKey HnsaEndpointState maxHnsaNamedRouteEndpoints)
      (active : before.status = .active)
      (replaced : Replaces before { before.bumped with authorization, endpoints }) :
      Moves before { before.bumped with authorization, endpoints }
  | blocks (status : HnsaSequenceStateStatus) (active : before.status = .active) :
      Moves before { before.bumped with status }

theorem Replaces.refl (state : HnsaNamedRouteState) : Replaces state state where
  authorization := .refl _
  route _ := .refl _
  delegation _ _ := .refl _

theorem Replaces.trans {before between after : HnsaNamedRouteState}
    (first : Replaces before between) (second : Replaces between after) :
    Replaces before after where
  authorization := first.authorization.trans second.authorization
  route endpointKey := (first.route endpointKey).trans (second.route endpointKey)
  delegation same endpointKey := by
    -- The authorization cannot leave and come back.
    have back : Supersedes between.authorization before.authorization := by
      rw [← same]
      exact second.authorization
    have unchanged : between.authorization = before.authorization :=
      back.antisymm first.authorization
    exact (first.delegation unchanged endpointKey).trans
      (second.delegation (same.trans unchanged.symm) endpointKey)

variable {state : HnsaNamedRouteState} {assign : HnsaNamedRouteState → HnsaNamedRouteState}

theorem moves_markConflicted (active : state.status = .active) :
    Moves state (markConflicted state).2 := by
  rcases markConflicted_cases state with same | marked
  · rw [same]
    exact .stays
  · rw [marked]
    exact .blocks .conflicted active

theorem moves_markExhausted (active : state.status = .active) :
    Moves state (markExhausted state).2 := by
  rcases markExhausted_cases state with same | marked
  · rw [same]
    exact .stays
  · rw [marked]
    exact .blocks .exhausted active

theorem moves_refuseConflict (active : state.status = .active) :
    Moves state (refuseConflict state).2 := by
  rw [refuseConflict, snd_bind_throw]
  exact moves_markConflicted active

theorem moves_bumpThen (moves : Moves state (assign state.bumped)) :
    Moves state (bumpThen assign state).2 := by
  rcases bumpThen_cases assign state with failed | done
  · rw [failed]
    exact .stays
  · rw [done]
    exact moves

theorem moves_bindScope (start : state = .new ∨ state.isScoped) {authorityDigest routeKey : Hash}
    {resourceGeneration : Nat} (digest_ne : authorityDigest ≠ Hash.zero)
    (key_ne : routeKey ≠ Hash.zero) (generation_ne : resourceGeneration ≠ 0) :
    Moves state (bindScope authorityDigest routeKey resourceGeneration state).2 := by
  unfold bindScope
  split
  next unscoped =>
    rcases start with rfl | hasScope
    · exact .rebinds authorityDigest routeKey resourceGeneration digest_ne
        (Nat.pos_of_ne_zero generation_ne) digest_ne key_ne
    · exact absurd hasScope unscoped
  next =>
    split_ifs with key_other lower digest_other not_greater greater
    · exact .stays
    · exact .stays
    · exact .stays
    · apply moves_bumpThen
      exact .rebinds authorityDigest state.routeKey resourceGeneration (Ne.symm digest_other)
        (Nat.lt_of_not_le not_greater) digest_ne (not_ne_iff.mp key_other ▸ key_ne)
    · apply moves_bumpThen
      exact .renews resourceGeneration greater
    · exact .stays

section

variable (active : state.status = .active)

include active

theorem moves_advanceAuthorization (serial : Nat) (id : Hash) :
    Moves state (advanceAuthorization serial id state).2 := by
  unfold advanceAuthorization
  split
  next vacant =>
    apply moves_bumpThen
    refine .replaces (some ⟨serial, id⟩) state.endpoints active ⟨.of_vacant vacant, ?_, ?_⟩
    · exact fun _ => .refl _
    · exact fun _ _ => .refl _
  next => exact .stays
  next => exact moves_refuseConflict active
  next newer =>
    apply moves_bumpThen
    refine .replaces (some ⟨serial, id⟩) _ active ⟨.of_newer newer, ?_, ?_⟩
    · intro endpointKey
      simp only [route?, bumped, SortedTable.lookup_mapRows]
      cases state.endpoints.lookup endpointKey with
      | none => exact .refl _
      | some endpoint => exact .refl _
    · -- The delegations go with the older authorization.
      intro same
      rcases lt_of_replacement_newer newer with ⟨current, held, lower⟩
      have equal : some (⟨serial, id⟩ : HnsaAuthorizationState) = some current :=
        same.trans held
      rw [← Option.some.inj equal] at lower
      exact absurd lower (lt_irrefl _)
  next => exact .stays

variable {endpoint : HnsaEndpointState}

/-- A change of one endpoint moves the state if it only advances the slots of this endpoint. -/
theorem moves_endpoints
    {endpoints : SortedTable EndpointKey HnsaEndpointState maxHnsaNamedRouteEndpoints}
    (assign_eq : assign state.bumped = { state.bumped with endpoints })
    {endpointKey : EndpointKey} (lookup_eq : ∀ other, endpoints.lookup other =
      if other = endpointKey then some endpoint else state.endpoints.lookup other)
    (delegation : Supersedes (state.delegation? endpointKey) endpoint.delegation)
    (route : Supersedes (state.route? endpointKey) endpoint.route) :
    Moves state (bumpThen assign state).2 := by
  apply moves_bumpThen
  rw [assign_eq]
  refine .replaces state.authorization endpoints active ⟨.refl _, ?_, ?_⟩
  · intro other
    by_cases isKey : other = endpointKey
    · subst isKey
      simp only [route?, lookup_eq, if_pos]
      exact route
    · simp only [route?, lookup_eq, if_neg isKey]
      exact .refl _
  · intro _ other
    by_cases isKey : other = endpointKey
    · subst isKey
      simp only [delegation?, lookup_eq, if_pos]
      exact delegation
    · simp only [delegation?, lookup_eq, if_neg isKey]
      exact .refl _

theorem moves_modified {endpointKey : EndpointKey}
    (found : state.endpoints.lookup endpointKey = some endpoint)
    {change : HnsaEndpointState → HnsaEndpointState}
    (delegation : Supersedes endpoint.delegation (change endpoint).delegation)
    (route : Supersedes endpoint.route (change endpoint).route) :
    Moves state (bumpThen (fun state =>
      { state with endpoints := state.endpoints.modify endpointKey change }) state).2 := by
  have delegation_eq : state.delegation? endpointKey = endpoint.delegation := by
    rw [delegation?, found]
    rfl
  have route_eq : state.route? endpointKey = endpoint.route := by
    rw [route?, found]
    rfl
  have lookup_eq : ∀ other, (state.endpoints.modify endpointKey change).lookup other =
      if other = endpointKey then some (change endpoint) else state.endpoints.lookup other := by
    intro other
    rw [SortedTable.lookup_modify]
    by_cases isKey : other = endpointKey
    · rw [if_pos isKey, if_pos isKey, isKey, found]
      rfl
    · rw [if_neg isKey, if_neg isKey]
  apply moves_endpoints active rfl lookup_eq
  · rw [delegation_eq]
    exact delegation
  · rw [route_eq]
    exact route

theorem moves_advanceDelegation (endpointKey : EndpointKey) (sequence : Nat) (id : Hash) :
    Moves state (advanceDelegation endpointKey sequence id state).2 := by
  unfold advanceDelegation
  split
  next endpoint found =>
    split
    next => exact .stays
    next => exact moves_refuseConflict active
    next => exact .stays
    next vacant => exact moves_modified active found (.of_vacant vacant) (.refl _)
    next newer => exact moves_modified active found (.of_newer newer) (.refl _)
  next absent =>
    split
    next =>
      rw [snd_bind_throw]
      exact moves_markExhausted active
    next endpoints fits =>
      apply moves_endpoints active rfl (SortedTable.lookup_insert? fits)
      · rw [delegation?, absent]
        exact .of_none _
      · rw [route?, absent]
        exact .of_none _

theorem moves_advanceRoute (endpointKey : EndpointKey) (sequence : Nat) (digest : Hash) :
    Moves state (advanceRoute endpointKey sequence digest state).2 := by
  unfold advanceRoute
  split
  next => exact .stays
  next endpoint found =>
    split
    next => exact .stays
    next => exact moves_refuseConflict active
    next => exact .stays
    next vacant => exact moves_modified active found (.refl _) (.of_vacant vacant)
    next newer => exact moves_modified active found (.refl _) (.of_newer newer)

end

end HnsDaneEngine.NamedRoute
