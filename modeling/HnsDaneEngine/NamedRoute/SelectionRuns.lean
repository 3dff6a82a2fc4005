import HnsDaneEngine.NamedRoute.Holding
import HnsDaneEngine.NamedRoute.SelectionOrder

/-!
# Selections as runs of the state

A selection makes a sequence of moves, and the state that it leaves holds every route that
it returns.
-/

namespace HnsDaneEngine.NamedRoute

open Control HnsDaneEngine.Order Primitives HnsaNamedRouteState
open Relation (ReflTransGen)

theorem Mutation.carries (mutation : Mutation) :
    Effect.Carries (fun state => state.status = .active) (ReflTransGen Moves) mutation.run := by
  intro state active
  constructor
  · exact .single (mutation.moves active)
  · intro value returned
    rcases run : mutation.run state with ⟨outcome, final⟩
    rw [run] at returned
    cases returned
    exact (mutation.status_eq run).trans active

variable {state final : HnsaNamedRouteState}

theorem moves_of_carries {ε α : Type} {action : Effect HnsaNamedRouteState ε α}
    (carries : Effect.Carries (fun state => state.status = .active) (ReflTransGen Moves) action)
    (active : state.status = .active) {result : Except ε α} (run : action state = (result, final)) :
    ReflTransGen Moves state final :=
  (carries.of_run active run).1

theorem active_of_ensureActive (run : ensureActive state = (.ok ⟨⟩, final)) :
    state.status = .active ∧ final = state := by
  unfold ensureActive at run
  split at run
  next active =>
    cases run
    exact ⟨active, rfl⟩
  next => cases run
  next => cases run

theorem snd_ensureActive (state : HnsaNamedRouteState) : (ensureActive state).2 = state := by
  unfold ensureActive
  split <;> rfl

theorem moving : RoundsCarry (fun state => state.status = .active) (ReflTransGen Moves) where
  refl _ := .refl
  trans := .trans
  markConflicted _ active := .single (moves_markConflicted active)
  advanceDelegation endpointKey sequence id :=
    Mutation.carries (.advanceDelegation endpointKey sequence id)
  advanceRoute endpointKey sequence digest :=
    Mutation.carries (.advanceRoute endpointKey sequence digest)

section

variable {AuthorityRecord RelayTicket ProtocolError RuntimeError : Type}
  {protocol : HnsaProtocol AuthorityRecord RelayTicket ProtocolError}

/-- A delegation selected for an endpoint is one that the selection was asked to accept. -/
def AcceptsDelegations (protocol : HnsaProtocol AuthorityRecord RelayTicket ProtocolError) : Prop :=
  ∀ {candidates : List EndpointDelegationV1} {authorization : ServiceAuthorizationV1}
    {now capabilities : Nat} {constraints : Hash} {accepts : EndpointDelegationV1 → Bool}
    {delegation : EndpointDelegationV1},
    protocol.selectEndpointDelegation candidates authorization now capabilities constraints accepts =
      .ok delegation → accepts delegation = true

/-- A returned selection is held by the state and carries the floors of its request. -/
structure Returned (request : HnsaNamedRouteRequest) (state : HnsaNamedRouteState)
    (selected : SelectedHnsaNamedRoute RelayTicket) : Prop where
  held : Held request.context.resourceGeneration selected.commitment state
  context : selected.candidate.context = request.context
  trustedTimeHighWater : selected.candidate.trustedTimeHighWater = request.trustedNow

variable {selected : SelectedHnsaNamedRoute RelayTicket} {selecting : Selecting AuthorityRecord}
  {record : NamedRouteRecordV2 RelayTicket} {authorizationId : Hash}
  {authorization : ServiceAuthorizationV1} {decoded : List (NamedRouteRecordV2 RelayTicket)}
  {selections : List (SelectedHnsaNamedRoute RelayTicket)}

theorem Returned.run {request : HnsaNamedRouteRequest} {before after : HnsaNamedRouteState}
    (returned : Returned request before selected) (moves : ReflTransGen Moves before after) :
    Returned request after selected :=
  ⟨returned.held.run moves, returned.context, returned.trustedTimeHighWater⟩

/-- What the state follows while the rounds of a selection are made. -/
structure Following (selecting : Selecting AuthorityRecord) (serial : Nat) (id : Hash)
    (state : HnsaNamedRouteState) : Prop where
  active : state.status = .active
  authority : state.authorityState = (selecting.request.context.resourceGeneration,
    selecting.scope.authorityDigest, some ⟨serial, id⟩)

/-- The commitment names the authority, the authorization and the delegation of its route. -/
theorem commitment_of_candidate {candidate : VerifiedHnsaNamedRouteCandidate RelayTicket}
    {commitment : HnsaSelectionCommitment}
    (committed : (commitmentFromCandidate protocol candidate :
      Except (HnsaRouteError ProtocolError RuntimeError) _) = .ok commitment) :
    ∃ authorizationId delegationId,
      protocol.authorizationId candidate.record.authorization = .ok authorizationId ∧
      protocol.delegationId candidate.record.delegation = .ok delegationId ∧
      commitment.authorityDigest = candidate.authorityDigest ∧
      commitment.endpointKey = candidate.record.delegation.endpointKey ∧
      commitment.authorization = ⟨candidate.record.authorization.serial, authorizationId⟩ ∧
      commitment.delegation = ⟨candidate.record.delegation.endpointSequence, delegationId⟩ := by
  rcases of_bind_ok committed with ⟨authorizationId, authorization_eq, afterAuthorization⟩
  rcases of_bind_ok afterAuthorization with ⟨delegationId, delegation_eq, afterDelegation⟩
  rcases of_bind_ok afterDelegation with ⟨encoded, _, last⟩
  cases last
  exact ⟨authorizationId, delegationId, mapError_eq_ok_iff.mp authorization_eq,
    mapError_eq_ok_iff.mp delegation_eq, rfl, rfl, rfl, rfl⟩

/-- The end of a round leaves the objects of the commitment in the state. -/
theorem returned_of_commitRoute {delegationId : Hash}
    (following : Following selecting record.authorization.serial authorizationId state)
    (authorized : protocol.authorizationId record.authorization = .ok authorizationId)
    (identified : protocol.delegationId record.delegation = .ok delegationId)
    (delegated : state.delegation? record.delegation.endpointKey =
      some ⟨record.delegation.endpointSequence, delegationId⟩)
    (run : (commitRoute protocol selecting record.delegation.endpointKey record :
      SelectionEffect ProtocolError RuntimeError _) state = (.ok selected, final)) :
    Returned selecting.request final selected := by
  have grows := growing.commitRoute.of_run trivial run
  rcases Effect.of_bind_ok run with ⟨commitment, between, committed, rest⟩
  have between_eq : between = state := (congrArg Prod.snd committed).symm
  rw [between_eq] at rest
  rcases Effect.of_bind_ok rest with ⟨⟨⟩, advancedState, advanced, last⟩
  cases last
  rcases slots_of_advanceRoute (Effect.mapError_eq_ok_iff.mp advanced) with ⟨routed, kept⟩
  rcases commitment_of_candidate (congrArg Prod.fst committed) with
    ⟨foundAuthorization, foundDelegation, authorization_eq, delegation_eq, digest, key,
      authorization, delegation⟩
  obtain rfl := Except.ok.inj (authorized.symm.trans authorization_eq)
  obtain rfl := Except.ok.inj (identified.symm.trans delegation_eq)
  have authority := grows.1.authorityState.trans following.authority
  simp only [authorityState, Prod.mk.injEq] at authority
  rcases authority with ⟨generation_eq, digest_eq, authorization_held⟩
  change commitment.endpointKey = record.delegation.endpointKey at key
  constructor
  · constructor
    · exact generation_eq.ge
    · exact fun _ => digest_eq.trans digest.symm
    · intro _
      rw [authorization_held, authorization]
      exact .refl _
    · intro _
      rw [key, routed]
    · intro _ _
      rw [key, kept, delegated, delegation]
      exact .refl _
  · rfl
  · rfl

variable [DecidableEq RelayTicket]

/-- The latest route of a round is one of the verified routes. -/
theorem mem_of_latestRoute {delegation : EndpointDelegationV1}
    (run : (latestRoute protocol selecting authorization decoded delegation :
      SelectionEffect ProtocolError RuntimeError _) state = (.ok (some record), final)) :
    final = state ∧ record ∈ verifiedRoutes protocol selecting authorization decoded delegation := by
  rw [latestRoute] at run
  by_cases empty : verifiedRoutes protocol selecting authorization decoded delegation = []
  · rw [empty, scanLatest_nil] at run
    cases run
  cases scanned : scanLatest NamedRouteRecordV2.sequence none
      (verifiedRoutes protocol selecting authorization decoded delegation) with
  | none =>
    rw [scanned] at run
    rcases Effect.of_bind_ok run with ⟨_, _, _, thrown⟩
    cases thrown
  | some latest =>
    rw [scanned] at run
    cases run
    rcases isTop_of_scanLatest empty scanned with ⟨top, top_eq, isTop⟩
    cases top_eq
    exact ⟨rfl, isTop.1⟩

/-- A round that returns a route leaves its objects in the state. -/
theorem returned_of_selectEndpoint (accepts : AcceptsDelegations protocol)
    {endpointKey : EndpointKey}
    (authorized : protocol.authorizationId authorization = .ok authorizationId)
    (following : Following selecting authorization.serial authorizationId state)
    (run : (selectEndpoint protocol selecting authorization decoded endpointKey :
      SelectionEffect ProtocolError RuntimeError _) state = (.ok (some selected), final)) :
    Returned selecting.request final selected := by
  rcases selectEndpoint_ok run with ⟨missing, -⟩ | ⟨delegation, delegationId, chosen, id_eq⟩
  · rw [selectEndpoint_of_missing missing] at run
    cases run
  rw [selectEndpoint_of_ok chosen id_eq] at run
  rcases Effect.of_bind_ok run with ⟨⟨⟩, followed, advanced, under⟩
  have advance_eq := Effect.mapError_eq_ok_iff.mp advanced
  have key_eq : delegation.endpointKey = endpointKey := of_decide_eq_true (accepts chosen)
  have grows := (grows_advanceDelegation _ _ _).of_run advance_eq
  have active := (Mutation.status_eq (.advanceDelegation _ _ _) advance_eq).trans following.active
  have stillFollowing : Following selecting authorization.serial authorizationId followed :=
    ⟨active, grows.authorityState.trans following.authority⟩
  rw [selectUnder] at under
  split at under
  next => cases under
  next =>
    rcases Effect.of_bind_ok under with ⟨latest, middle, latest_eq, rest⟩
    cases latest with
    | none => cases rest
    | some record =>
      rcases mem_of_latestRoute latest_eq with ⟨rfl, mem⟩
      rcases of_decide_eq_true (List.mem_filter.mp mem).2 with ⟨rfl, rfl, -⟩
      rcases Effect.of_bind_ok rest with ⟨committed, last, commit_eq, final_eq⟩
      cases final_eq
      rw [← key_eq] at commit_eq advance_eq
      exact returned_of_commitRoute stillFollowing authorized id_eq
        (delegation_of_advanceDelegation advance_eq) commit_eq

theorem returned_of_selectEndpoints (accepts : AcceptsDelegations protocol)
    {endpointKeys : List EndpointKey}
    (authorized : protocol.authorizationId authorization = .ok authorizationId)
    (following : Following selecting authorization.serial authorizationId state)
    (run : (selectEndpoints protocol selecting authorization decoded endpointKeys :
      SelectionEffect ProtocolError RuntimeError _) state = (.ok selections, final)) :
    ∀ selected ∈ selections, Returned selecting.request final selected := by
  induction endpointKeys generalizing state selections with
  | nil =>
    cases run
    exact fun _ mem => absurd mem List.not_mem_nil
  | cons endpointKey endpointKeys ih =>
    rw [selectEndpoints] at run
    rcases Effect.of_bind_ok run with ⟨first, middle, first_eq, rest⟩
    rcases Effect.of_bind_ok rest with ⟨others, last, rest_eq, final_eq⟩
    cases final_eq
    have carried := moving.selectEndpoint.of_run following.active first_eq
    have stillFollowing : Following selecting authorization.serial authorizationId middle :=
      ⟨carried.2 _ rfl, (grows_selectEndpoint first_eq).authorityState.trans following.authority⟩
    have moves := moves_of_carries moving.selectEndpoints stillFollowing.active rest_eq
    intro selected mem
    rcases List.mem_append.mp mem with inFirst | inRest
    · have isFirst : first = some selected := Option.mem_toList.mp inFirst
      rw [isFirst] at first_eq
      exact (returned_of_selectEndpoint accepts authorized following first_eq).run moves
    · exact ih stillFollowing rest_eq selected inRest

omit [DecidableEq RelayTicket] in
theorem carries_chooseAuthorization (selecting : Selecting AuthorityRecord)
    (decoded : List (NamedRouteRecordV2 RelayTicket)) :
    Effect.Carries (fun state => state.status = .active) (ReflTransGen Moves)
      (chooseAuthorization protocol selecting decoded :
        SelectionEffect ProtocolError RuntimeError _) := by
  unfold chooseAuthorization
  split
  · exact moving.same fun _ => rfl
  · exact moving.failConflicted _
  · exact moving.same fun _ => rfl

omit [DecidableEq RelayTicket] in
theorem chooseAuthorization_state
    (run : (chooseAuthorization protocol selecting decoded :
      SelectionEffect ProtocolError RuntimeError _) state = (.ok authorization, final)) :
    final = state := by
  rw [chooseAuthorization, selectServiceAuthorization_of_choose run] at run
  cases run
  rfl

/-- The routes that a whole selection returns are held by the state that it leaves. -/
theorem returned_of_selectBound (accepts : AcceptsDelegations protocol) {later : Engine}
    (run : (selectBound protocol later selecting decoded :
      SelectionEffect ProtocolError RuntimeError _) state = (.ok selections, final)) :
    ∀ selected ∈ selections, Returned selecting.request final selected := by
  rcases Effect.of_bind_ok run with ⟨⟨⟩, bound, bind_run, afterBind⟩
  rcases Effect.of_bind_ok afterBind with ⟨⟨⟩, checked, active_run, afterCheck⟩
  have scope_eq := scope_of_bindScope (Effect.mapError_eq_ok_iff.mp bind_run)
  rcases active_of_ensureActive (Effect.mapError_eq_ok_iff.mp active_run) with ⟨active, rfl⟩
  split at afterCheck
  next => cases afterCheck
  next =>
    rcases Effect.of_bind_ok afterCheck with ⟨authorization, chosen, choice, afterChoice⟩
    rw [chooseAuthorization_state choice] at afterChoice
    rcases Effect.of_bind_ok afterChoice with ⟨authorizationId, identified, id_run, afterId⟩
    have authorized := mapError_ofExcept_eq_ok id_run
    have identified_eq : identified = checked := (congrArg Prod.snd id_run).symm
    rw [identified_eq] at afterId
    rcases Effect.of_bind_ok afterId with ⟨⟨⟩, advanced, advance_run, afterAdvance⟩
    have advance_eq := Effect.mapError_eq_ok_iff.mp advance_run
    rcases Effect.of_bind_ok afterAdvance with ⟨selected, ended, rounds, afterRounds⟩
    have following : Following selecting authorization.serial authorizationId advanced := by
      constructor
      · exact (Mutation.status_eq (.advanceAuthorization _ _) advance_eq).trans active
      · rw [authorization_of_advanceAuthorization advance_eq, scope_eq.1, scope_eq.2]
    have returned := returned_of_selectEndpoints accepts authorized following rounds
    split at afterRounds
    next => cases afterRounds
    next =>
      rcases Effect.of_bind_ok afterRounds with ⟨⟨⟩, validated, validation, last⟩
      have validated_eq : validated = ended := (congrArg Prod.snd validation).symm
      cases last
      rw [validated_eq]
      exact returned

/-- A selection moves the state and leaves it with a scope, also when it fails. -/
theorem moves_selectBound {later : Engine}
    {result : Except (HnsaRouteError ProtocolError RuntimeError)
      (List (SelectedHnsaNamedRoute RelayTicket))} (start : state = .new ∨ state.isScoped)
    (digest_ne : selecting.scope.authorityDigest ≠ Hash.zero)
    (key_ne : selecting.scope.routeKey ≠ Hash.zero)
    (run : selectBound protocol later selecting decoded state = (result, final)) :
    final.isScoped ∧ ReflTransGen Moves state final := by
  rcases bound : bindScope selecting.scope.authorityDigest selecting.scope.routeKey
    selecting.request.context.resourceGeneration state with ⟨outcome, boundState⟩
  have generation_ne := selecting.request.context.resourceGeneration_ne
  have boundScoped := isScoped_bindScope start digest_ne key_ne generation_ne bound
  have boundMoves := moves_bindScope start digest_ne key_ne generation_ne
  rw [bound] at boundMoves
  have bound_eq : (bindScope selecting.scope.authorityDigest selecting.scope.routeKey
      selecting.request.context.resourceGeneration state).2 = boundState := congrArg Prod.snd bound
  have rest : ReflTransGen Moves boundState final := by
    rcases Effect.bind_cases run with ⟨error, refused, -⟩ | ⟨⟨⟩, middle, bind_run, afterBind⟩
    · have final_eq : boundState = final := bound_eq.symm.trans (congrArg Prod.snd refused)
      rw [final_eq]
    have middle_eq : boundState = middle := bound_eq.symm.trans (congrArg Prod.snd bind_run)
    rw [middle_eq]
    rcases Effect.bind_cases afterBind with ⟨error, refused, -⟩ | ⟨⟨⟩, checked, active_run, afterCheck⟩
    · have final_eq : middle = final :=
        (snd_ensureActive middle).symm.trans (congrArg Prod.snd refused)
      rw [final_eq]
    rcases active_of_ensureActive (Effect.mapError_eq_ok_iff.mp active_run) with ⟨active, rfl⟩
    refine moves_of_carries ?_ active afterCheck
    split
    · exact moving.same fun _ => rfl
    apply moving.bind (carries_chooseAuthorization _ _)
    intro authorization
    apply moving.bind (moving.same fun _ => rfl)
    intro authorizationId
    apply moving.bind (Mutation.carries (.advanceAuthorization _ _)).mapError
    intro _
    apply moving.bind moving.selectEndpoints
    intro selected
    split
    · exact moving.same fun _ => rfl
    · exact moving.bind (moving.same fun _ => rfl) fun _ => moving.same fun _ => rfl
  exact ⟨isScoped_run rest boundScoped, .head boundMoves rest⟩

end

end HnsDaneEngine.NamedRoute
