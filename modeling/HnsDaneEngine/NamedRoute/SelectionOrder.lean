import HnsDaneEngine.NamedRoute.SelectionSteps

/-!
# Selection and the order of the records

An endpoint whose verified routes tie below their greatest sequence is decided by the order
in which they come.  The selection gives the same in every order exactly when no endpoint
that a first selection reaches is of this kind.
-/

namespace HnsDaneEngine.NamedRoute

open Control Data HnsDaneEngine.Order Primitives HnsaNamedRouteState

variable {state middle : HnsaNamedRouteState}

section

variable {AuthorityRecord RelayTicket ProtocolError RuntimeError : Type}
  (protocol : HnsaProtocol AuthorityRecord RelayTicket ProtocolError)

/-- The newest of the routes, when there is one, can be encoded. -/
def Commits (routes : List (NamedRouteRecordV2 RelayTicket)) : Prop :=
  routes = [] ∨ ∃ top encoded, IsTop NamedRouteRecordV2.sequence routes top ∧
    protocol.encodeRecord top = .ok encoded

variable [DecidableEq RelayTicket]

/-- The endpoints that a selection reaches, one after another, have settled routes.  The number
counts the endpoints that the selection has put into the state so far. -/
def SettlesFrom (selecting : Selecting AuthorityRecord) (authorization : ServiceAuthorizationV1)
    (decoded : List (NamedRouteRecordV2 RelayTicket)) : Nat → List EndpointKey → Prop
  | _, [] => True
  | held, endpointKey :: endpointKeys =>
    match delegationFor protocol selecting authorization decoded endpointKey with
    | .error .missing => SettlesFrom selecting authorization decoded held endpointKeys
    | .error _ => True
    | .ok delegation =>
      match protocol.delegationId delegation with
      | .error _ => True
      | .ok _ =>
        if maxHnsaNamedRouteEndpoints ≤ held then True
        else if ¬ hasRequiredCapabilities selecting.request delegation then
          SettlesFrom selecting authorization decoded (held + 1) endpointKeys
        else
          Settled NamedRouteRecordV2.sequence
              (verifiedRoutes protocol selecting authorization decoded delegation) ∧
            (Commits protocol
                (verifiedRoutes protocol selecting authorization decoded delegation) →
              SettlesFrom selecting authorization decoded (held + 1) endpointKeys)

variable (RuntimeError) in
/-- The condition on the input of a selection. -/
def Settles (engine : Engine) (resource : VerifiedHnsResource)
    (encodedRecords : List Octets) (request : HnsaNamedRouteRequest) : Prop :=
  ∀ scope authorization authorizationId,
    (prepare protocol engine resource encodedRecords request :
      Except (HnsaRouteError ProtocolError RuntimeError) _) = .ok scope →
    protocol.selectServiceAuthorization
      ((encodedRecords.filterMap protocol.decodeRecord).map NamedRouteRecordV2.authorization)
      scope.authority scope.identity resource.anchor.height
      request.context.policy.allowedAuthorizationFlags = .ok authorization →
    protocol.authorizationId authorization = .ok authorizationId →
    SettlesFrom protocol ⟨scope, resource, request⟩ authorization
      (encodedRecords.filterMap protocol.decodeRecord) 0
      (endpointKeys authorization (encodedRecords.filterMap protocol.decodeRecord))

variable {protocol}

theorem latestRoute_perm (selecting : Selecting AuthorityRecord)
    (authorization : ServiceAuthorizationV1)
    {first second : List (NamedRouteRecordV2 RelayTicket)} (perm : first.Perm second)
    (delegation : EndpointDelegationV1)
    (settled : Settled NamedRouteRecordV2.sequence
      (verifiedRoutes protocol selecting authorization first delegation)) :
    (latestRoute protocol selecting authorization second delegation :
      SelectionEffect ProtocolError RuntimeError _) =
      latestRoute protocol selecting authorization first delegation := by
  rw [latestRoute, scanLatest_perm settled (verifiedRoutes_perm _ _ perm _), latestRoute]

theorem selectUnder_perm (selecting : Selecting AuthorityRecord)
    (authorization : ServiceAuthorizationV1)
    {first second : List (NamedRouteRecordV2 RelayTicket)} (perm : first.Perm second)
    (endpointKey : EndpointKey) (delegation : EndpointDelegationV1)
    (settled : hasRequiredCapabilities selecting.request delegation →
      Settled NamedRouteRecordV2.sequence
        (verifiedRoutes protocol selecting authorization first delegation)) :
    (selectUnder protocol selecting authorization second endpointKey delegation :
      SelectionEffect ProtocolError RuntimeError _) =
      selectUnder protocol selecting authorization first endpointKey delegation := by
  by_cases capable : hasRequiredCapabilities selecting.request delegation
  · simp only [selectUnder, latestRoute_perm selecting authorization perm delegation
      (settled capable)]
  · simp only [selectUnder, if_pos capable]

section

variable {selecting : Selecting AuthorityRecord} {authorization : ServiceAuthorizationV1}
  {decoded : List (NamedRouteRecordV2 RelayTicket)} {endpointKey : EndpointKey}
  {delegation : EndpointDelegationV1}

/-- A round for an endpoint with a delegation that is identified. -/
theorem selectEndpoint_of_ok
    (chosen : delegationFor protocol selecting authorization decoded endpointKey = .ok delegation)
    {delegationId : Hash} (id_eq : protocol.delegationId delegation = .ok delegationId) :
    (selectEndpoint protocol selecting authorization decoded endpointKey :
      SelectionEffect ProtocolError RuntimeError _) =
      (do
        onState (advanceDelegation endpointKey delegation.endpointSequence delegationId)
        selectUnder protocol selecting authorization decoded endpointKey delegation) := by
  have choice : (chooseDelegation protocol selecting authorization decoded endpointKey :
      SelectionEffect ProtocolError RuntimeError _) = pure (some delegation) := by
    rw [chooseDelegation, chosen]
  have round : (selectEndpoint protocol selecting authorization decoded endpointKey :
      SelectionEffect ProtocolError RuntimeError _) =
      selectRoute protocol selecting authorization decoded endpointKey delegation := by
    rw [selectEndpoint, choice]
    rfl
  rw [round, selectRoute, id_eq]
  rfl

theorem selectEndpoint_of_missing
    (chosen : delegationFor protocol selecting authorization decoded endpointKey =
      .error .missing) :
    (selectEndpoint protocol selecting authorization decoded endpointKey :
      SelectionEffect ProtocolError RuntimeError _) = pure none := by
  have choice : (chooseDelegation protocol selecting authorization decoded endpointKey :
      SelectionEffect ProtocolError RuntimeError _) = pure none := by
    rw [chooseDelegation, chosen]
  rw [selectEndpoint, choice]
  rfl

end

variable {selecting : Selecting AuthorityRecord} {authorization : ServiceAuthorizationV1}
  {decoded : List (NamedRouteRecordV2 RelayTicket)} {endpointKey : EndpointKey}
  {value : Option (SelectedHnsaNamedRoute RelayTicket)}

/-- A round returns only when there is no delegation, or one that is identified. -/
theorem selectEndpoint_ok
    (run : (selectEndpoint protocol selecting authorization decoded endpointKey :
      SelectionEffect ProtocolError RuntimeError _) state = (.ok value, middle)) :
    (delegationFor protocol selecting authorization decoded endpointKey = .error .missing ∧
      middle = state) ∨
      ∃ delegation delegationId,
        delegationFor protocol selecting authorization decoded endpointKey = .ok delegation ∧
        protocol.delegationId delegation = .ok delegationId := by
  rcases Effect.of_bind_ok run with ⟨choice, between, chosen, round⟩
  rw [chooseDelegation] at chosen
  cases delegation_eq : delegationFor protocol selecting authorization decoded endpointKey with
  | ok delegation =>
    rw [delegation_eq] at chosen
    cases chosen
    rcases Effect.of_bind_ok round with ⟨_, _, identified, _⟩
    right
    cases id_eq : protocol.delegationId delegation with
    | error error =>
      rw [id_eq] at identified
      cases identified
    | ok delegationId => exact ⟨delegation, delegationId, rfl, id_eq⟩
  | error error =>
    rw [delegation_eq] at chosen
    cases error with
    | missing =>
      cases chosen
      cases round
      exact .inl ⟨rfl, rfl⟩
    | conflictingSequence =>
      rcases Effect.of_bind_ok chosen with ⟨_, _, _, thrown⟩
      cases thrown
    | other code => cases chosen

/-- The rounds agree from a state where their scans are settled or not reached. -/
theorem selectEndpoint_perm (independent : OrderIndependent protocol)
    {first second : List (NamedRouteRecordV2 RelayTicket)} (perm : first.Perm second)
    (settled : ∀ delegation delegationId final,
      delegationFor protocol selecting authorization first endpointKey = .ok delegation →
      protocol.delegationId delegation = .ok delegationId →
      advanceDelegation endpointKey delegation.endpointSequence delegationId state =
        (.ok ⟨⟩, final) →
      hasRequiredCapabilities selecting.request delegation →
      Settled NamedRouteRecordV2.sequence
        (verifiedRoutes protocol selecting authorization first delegation)) :
    (selectEndpoint protocol selecting authorization second endpointKey :
      SelectionEffect ProtocolError RuntimeError _) state =
      selectEndpoint protocol selecting authorization first endpointKey state := by
  have same := delegationFor_perm independent selecting authorization perm endpointKey
  have choice : (chooseDelegation protocol selecting authorization second endpointKey :
      SelectionEffect ProtocolError RuntimeError _) =
      chooseDelegation protocol selecting authorization first endpointKey := by
    rw [chooseDelegation, ← same, chooseDelegation]
  cases chosen : delegationFor protocol selecting authorization first endpointKey with
  | error error =>
    apply Effect.bind_congr_at (congrFun choice state)
    intro value middle run
    unfold chooseDelegation at run
    rw [chosen] at run
    cases value with
    | none => rfl
    | some delegation =>
      exfalso
      cases error with
      | missing => cases run
      | conflictingSequence =>
        rcases Effect.of_bind_ok run with ⟨_, _, _, thrown⟩
        cases thrown
      | other code => cases run
  | ok delegation =>
    cases id_eq : protocol.delegationId delegation with
    | error error =>
      apply Effect.bind_congr_at (congrFun choice state)
      intro value middle run
      unfold chooseDelegation at run
      rw [chosen] at run
      cases run
      simp only [selectRoute, id_eq]
      rfl
    | ok delegationId =>
      rw [selectEndpoint_of_ok (same.symm.trans chosen) id_eq, selectEndpoint_of_ok chosen id_eq]
      apply Effect.bind_congr_at rfl
      intro value middle run
      have advanced : advanceDelegation endpointKey delegation.endpointSequence delegationId
          state = (.ok value, middle) := by
        rcases advance_eq : advanceDelegation endpointKey delegation.endpointSequence
          delegationId state with ⟨outcome, final⟩
        rw [onState, Effect.mapError, advance_eq] at run
        cases outcome with
        | error error => cases run
        | ok value =>
          cases run
          rfl
      rw [selectUnder_perm selecting authorization perm endpointKey delegation
        (settled delegation delegationId middle chosen id_eq advanced)]

/-- A table that is full of other endpoints takes no delegation. -/
theorem not_advanceDelegation_of_full {seen : List EndpointKey}
    (distinct : (endpointKey :: seen).Nodup) (full : maxHnsaNamedRouteEndpoints ≤ seen.length)
    {final : HnsaNamedRouteState}
    (present : ∀ key ∈ seen, (state.endpoints.lookup key).isSome) (sequence : Nat) (id : Hash) :
    advanceDelegation endpointKey sequence id state ≠ (.ok ⟨⟩, final) := by
  intro run
  cases found : state.endpoints.lookup endpointKey with
  | some endpoint =>
    have all : ∀ key ∈ endpointKey :: seen, (state.endpoints.lookup key).isSome := by
      rw [List.forall_mem_cons, found]
      exact ⟨rfl, present⟩
    have rows := SortedTable.length_le_of_present distinct all
    have bounded := state.endpoints.bounded
    rw [List.length_cons] at rows
    omega
  | none =>
    have rows := SortedTable.length_le_of_present (List.nodup_cons.mp distinct).2 present
    have refused := SortedTable.insert?_of_full endpointKey
      (⟨some ⟨sequence, id⟩, none⟩ : HnsaEndpointState) (full.trans rows)
    rw [advanceDelegation, found] at run
    simp only [refused] at run
    exact bind_throw_ne_ok run

omit [DecidableEq RelayTicket] in
theorem encoded_of_commitmentFromCandidate {candidate : VerifiedHnsaNamedRouteCandidate RelayTicket}
    {commitment : HnsaSelectionCommitment}
    (committed : (commitmentFromCandidate protocol candidate :
      Except (HnsaRouteError ProtocolError RuntimeError) _) = .ok commitment) :
    ∃ encoded, protocol.encodeRecord candidate.record = .ok encoded := by
  rcases of_bind_ok committed with ⟨_, _, afterAuthorization⟩
  rcases of_bind_ok afterAuthorization with ⟨_, _, afterDelegation⟩
  rcases of_bind_ok afterDelegation with ⟨encoded, encode_eq, _⟩
  exact ⟨encoded, mapError_eq_ok_iff.mp encode_eq⟩

variable {delegation : EndpointDelegationV1}

/-- A round that returns has committed the newest route. -/
theorem commits_of_selectUnder (capable : hasRequiredCapabilities selecting.request delegation)
    {final : HnsaNamedRouteState}
    (run : (selectUnder protocol selecting authorization decoded endpointKey delegation :
      SelectionEffect ProtocolError RuntimeError _) state = (.ok value, final)) :
    Commits protocol (verifiedRoutes protocol selecting authorization decoded delegation) := by
  by_cases empty : verifiedRoutes protocol selecting authorization decoded delegation = []
  · exact .inl empty
  right
  rw [selectUnder, if_neg (not_not.mpr capable)] at run
  rcases Effect.of_bind_ok run with ⟨latest, middle, latest_eq, rest⟩
  rw [latestRoute] at latest_eq
  cases scanned : scanLatest NamedRouteRecordV2.sequence none
      (verifiedRoutes protocol selecting authorization decoded delegation) with
  | none =>
    rw [scanned] at latest_eq
    rcases Effect.of_bind_ok latest_eq with ⟨_, _, _, thrown⟩
    cases thrown
  | some result =>
    rw [scanned] at latest_eq
    cases latest_eq
    rcases isTop_of_scanLatest empty scanned with ⟨top, rfl, isTop⟩
    rcases Effect.of_bind_ok rest with ⟨_, _, committed, _⟩
    rcases Effect.of_bind_ok committed with ⟨commitment, _, commitment_eq, _⟩
    rcases encoded_of_commitmentFromCandidate (congrArg Prod.fst commitment_eq) with
      ⟨encoded, encoded_eq⟩
    exact ⟨top, encoded, isTop, encoded_eq⟩

/-- A round that returns has remembered the endpoint and committed its newest route. -/
theorem followed_of_selectEndpoint {delegationId : Hash}
    (chosen : delegationFor protocol selecting authorization decoded endpointKey = .ok delegation)
    (id_eq : protocol.delegationId delegation = .ok delegationId)
    (run : (selectEndpoint protocol selecting authorization decoded endpointKey :
      SelectionEffect ProtocolError RuntimeError _) state = (.ok value, middle)) :
    ∃ followed, advanceDelegation endpointKey delegation.endpointSequence delegationId state =
      (.ok ⟨⟩, followed) ∧ (middle.endpoints.lookup endpointKey).isSome ∧
      (hasRequiredCapabilities selecting.request delegation →
        Commits protocol (verifiedRoutes protocol selecting authorization decoded delegation)) := by
  rw [selectEndpoint_of_ok chosen id_eq] at run
  rcases Effect.of_bind_ok run with ⟨⟨⟩, followed, advanced, rest⟩
  have advance_eq := Effect.mapError_eq_ok_iff.mp advanced
  have grows := grows_selectUnder rest
  exact ⟨followed, advance_eq, grows.present endpointKey (present_of_advanceDelegation advance_eq),
    fun capable => commits_of_selectUnder capable rest⟩

theorem selectEndpoints_perm (independent : OrderIndependent protocol)
    {first second : List (NamedRouteRecordV2 RelayTicket)} (perm : first.Perm second)
    {endpointKeys seen : List EndpointKey} (distinct : (seen ++ endpointKeys).Nodup)
    (present : ∀ key ∈ seen, (state.endpoints.lookup key).isSome)
    (settles : SettlesFrom protocol selecting authorization first seen.length endpointKeys) :
    (selectEndpoints protocol selecting authorization second endpointKeys :
      SelectionEffect ProtocolError RuntimeError _) state =
      selectEndpoints protocol selecting authorization first endpointKeys state := by
  induction endpointKeys generalizing seen state with
  | nil => rfl
  | cons endpointKey endpointKeys ih =>
    have unseen : (endpointKey :: (seen ++ endpointKeys)).Nodup :=
      List.perm_middle.nodup_iff.mp distinct
    have restDistinct := (List.nodup_cons.mp unseen).2
    have withKey : (endpointKey :: seen).Nodup :=
      unseen.sublist ((List.sublist_append_left seen endpointKeys).cons_cons endpointKey)
    unfold selectEndpoints
    apply Effect.bind_congr_at
    · apply selectEndpoint_perm independent perm
      intro delegation delegationId final chosen id_eq advanced capable
      by_cases full : maxHnsaNamedRouteEndpoints ≤ seen.length
      · exact absurd advanced (not_advanceDelegation_of_full withKey full present _ _)
      · rw [SettlesFrom, chosen] at settles
        simp only [id_eq, if_neg full, if_neg (not_not.mpr capable)] at settles
        exact settles.1
    · intro value middle run
      apply Effect.bind_congr_at
      · have grows := grows_selectEndpoint run
        have stillPresent : ∀ key ∈ seen, (middle.endpoints.lookup key).isSome :=
          fun key mem => grows.present key (present key mem)
        rcases selectEndpoint_ok run with ⟨missing, -⟩ | ⟨delegation, delegationId, chosen, id_eq⟩
        · rw [SettlesFrom, missing] at settles
          exact ih restDistinct stillPresent settles
        rcases followed_of_selectEndpoint chosen id_eq run with
          ⟨followed, advanced, keyPresent, commits⟩
        have room : ¬ maxHnsaNamedRouteEndpoints ≤ seen.length := fun full =>
          not_advanceDelegation_of_full withKey full present _ _ advanced
        refine @ih middle (endpointKey :: seen) unseen ?_ ?_
        · rw [List.forall_mem_cons]
          exact ⟨keyPresent, stillPresent⟩
        rw [SettlesFrom, chosen] at settles
        simp only [id_eq, if_neg room] at settles
        by_cases capable : hasRequiredCapabilities selecting.request delegation
        · rw [if_neg (not_not.mpr capable)] at settles
          exact settles.2 (commits capable)
        · rw [if_pos capable] at settles
          exact settles
      · exact fun _ _ _ => rfl

omit [DecidableEq RelayTicket] in
/-- The authorization that a successful choice returns. -/
theorem selectServiceAuthorization_of_choose
    (run : (chooseAuthorization protocol selecting decoded :
      SelectionEffect ProtocolError RuntimeError _) state = (.ok authorization, middle)) :
    protocol.selectServiceAuthorization (decoded.map NamedRouteRecordV2.authorization)
      selecting.scope.authority selecting.scope.identity selecting.resource.anchor.height
      selecting.request.context.policy.allowedAuthorizationFlags = .ok authorization := by
  rw [chooseAuthorization] at run
  cases chosen : protocol.selectServiceAuthorization (decoded.map NamedRouteRecordV2.authorization)
      selecting.scope.authority selecting.scope.identity selecting.resource.anchor.height
      selecting.request.context.policy.allowedAuthorizationFlags with
  | ok authorization =>
    rw [chosen] at run
    cases run
    rfl
  | error error =>
    rw [chosen] at run
    cases error with
    | missing => cases run
    | conflictingSequence =>
      rcases Effect.of_bind_ok run with ⟨_, _, _, thrown⟩
      cases thrown
    | other code => cases run

/-- A computation without effects that has succeeded under another name for its errors. -/
theorem mapError_ofExcept_eq_ok {α : Type} {computed : Except AuthorityError α} {value : α}
    (run : (Effect.ofExcept (computed.mapError .authority) :
      SelectionEffect ProtocolError RuntimeError α) state = (.ok value, middle)) :
    computed = .ok value := by
  cases computed with
  | error error => cases run
  | ok returned =>
    cases run
    rfl

/-- Where the reached routes are settled, every order gives the same from every state. -/
theorem verifyAndSelect_perm (independent : OrderIndependent protocol) {engine later : Engine}
    {resource : VerifiedHnsResource} {first second : List Octets}
    {request : HnsaNamedRouteRequest} (perm : first.Perm second)
    (settles : Settles RuntimeError protocol engine resource first request)
    (state : HnsaNamedRouteState) :
    (verifyAndSelectHnsaNamedRoutes protocol engine later resource second request :
      SelectionEffect ProtocolError RuntimeError _) state =
      verifyAndSelectHnsaNamedRoutes protocol engine later resource first request state := by
  have decodedPerm := perm.filterMap protocol.decodeRecord
  unfold verifyAndSelectHnsaNamedRoutes
  apply Effect.bind_congr_at
  · rw [prepare_perm perm]
  intro scope start prepared
  have prepare_eq := congrArg Prod.fst prepared
  unfold selectBound
  apply Effect.bind_congr_at rfl
  intro _ boundState _
  apply Effect.bind_congr_at rfl
  intro _ activeState _
  rw [decodedPerm.isEmpty_eq]
  split
  next => rfl
  next =>
    apply Effect.bind_congr_at
    · rw [chooseAuthorization_perm independent _ decodedPerm]
    intro authorization chosenState chosen
    apply Effect.bind_congr_at rfl
    intro authorizationId identifiedState identified
    apply Effect.bind_congr_at rfl
    intro _ authorizedState _
    rw [← endpointKeys_perm authorization decodedPerm]
    have distinct : (([] : List EndpointKey) ++
        endpointKeys authorization (first.filterMap protocol.decodeRecord)).Nodup :=
      endpointKeys_nodup authorization _
    have reached := settles scope authorization authorizationId prepare_eq
      (selectServiceAuthorization_of_choose chosen) (mapError_ofExcept_eq_ok identified)
    apply Effect.bind_congr_at
    · exact selectEndpoints_perm independent decodedPerm distinct (by simp) reached
    · exact fun _ _ _ => rfl

end

end HnsDaneEngine.NamedRoute
