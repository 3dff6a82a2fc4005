import HnsDaneEngine.NamedRoute.SelectionOrder

/-!
# Ties below the greatest sequence

From a state before its first selection, an endpoint whose routes are not settled ends in
two different states: one order reports a conflict and blocks the name, another one selects
the newest route.  With the other direction this says exactly when the order does not matter.
-/

namespace HnsDaneEngine.NamedRoute

open Control Data HnsDaneEngine.Order Primitives HnsaNamedRouteState

/-! ## First selections -/

variable {state : HnsaNamedRouteState}

theorem bumpThen_of_lt {assign : HnsaNamedRouteState → HnsaNamedRouteState}
    (room : state.generation < u64Max) :
    bumpThen assign state = (.ok ⟨⟩, assign state.bumped) := by
  have added : checkedAdd state.generation 1 = some (state.generation + 1) :=
    checkedAdd_eq_some_iff.mpr ⟨rfl, room⟩
  exact Effect.bind_ok (by rw [bumpGeneration, added]; rfl)

/-- The state of a first selection that has put some endpoints into it. -/
structure First (held : Nat) (endpointKeys : List EndpointKey) (state : HnsaNamedRouteState) :
    Prop where
  active : state.status = .active
  rows : state.endpoints.rows.length = held
  generation : state.generation ≤ 2 * held + 2
  absent : ∀ key ∈ endpointKeys, state.endpoints.lookup key = none

/-- A first selection has used few generations. -/
theorem First.room {held : Nat} {endpointKeys : List EndpointKey}
    (isFirst : First held endpointKeys state) : state.generation + 1 < u64Max := by
  have bounded := state.endpoints.bounded
  have generation := isFirst.generation
  have rows := isFirst.rows
  have small : 2 * maxHnsaNamedRouteEndpoints + 3 < u64Max := by decide
  omega

/-- A delegation of a new endpoint is followed. -/
theorem First.advanceDelegation {held : Nat} {endpointKey : EndpointKey}
    {endpointKeys : List EndpointKey} (isFirst : First held (endpointKey :: endpointKeys) state)
    (unseen : endpointKey ∉ endpointKeys) (room : held < maxHnsaNamedRouteEndpoints)
    (sequence : Nat) (id : Hash) :
    ∃ followed, advanceDelegation endpointKey sequence id state = (.ok ⟨⟩, followed) ∧
      followed.status = .active ∧ followed.generation = state.generation + 1 ∧
      followed.endpoints.rows.length = held + 1 ∧
      followed.endpoints.lookup endpointKey = some ⟨some ⟨sequence, id⟩, none⟩ ∧
      ∀ key ∈ endpointKeys, followed.endpoints.lookup key = none := by
  have absent := isFirst.absent endpointKey List.mem_cons_self
  rcases SortedTable.insert?_of_room (⟨some ⟨sequence, id⟩, none⟩ : HnsaEndpointState)
    (isFirst.rows.trans_lt room) absent with ⟨endpoints, inserted, length_eq⟩
  refine ⟨{ state.bumped with endpoints }, ?_, isFirst.active, rfl, ?_, ?_, ?_⟩
  · rw [NamedRoute.advanceDelegation, absent]
    simp only [inserted]
    exact bumpThen_of_lt (Nat.lt_of_succ_lt isFirst.room)
  · rw [← isFirst.rows]
    exact length_eq
  · change endpoints.lookup endpointKey = _
    rw [SortedTable.lookup_insert? inserted, if_pos rfl]
  · intro key mem
    have other : key ≠ endpointKey := fun same => unseen (same ▸ mem)
    change endpoints.lookup key = none
    rw [SortedTable.lookup_insert? inserted, if_neg other]
    exact isFirst.absent key (List.mem_cons_of_mem endpointKey mem)

/-- The first route of an endpoint is followed. -/
theorem advanceRoute_of_vacant {endpointKey : EndpointKey} (room : state.generation < u64Max)
    {delegation : Option HnsaDelegationState}
    (found : state.endpoints.lookup endpointKey = some ⟨delegation, none⟩) (sequence : Nat)
    (digest : Hash) :
    advanceRoute endpointKey sequence digest state = (.ok ⟨⟩,
      { state.bumped with
        endpoints := state.endpoints.modify endpointKey fun endpoint =>
          { endpoint with route := some ⟨sequence, digest⟩ } }) := by
  rw [NamedRoute.advanceRoute, found]
  exact bumpThen_of_lt room

section

variable {AuthorityRecord RelayTicket ProtocolError RuntimeError : Type} [DecidableEq RelayTicket]
  {protocol : HnsaProtocol AuthorityRecord RelayTicket ProtocolError}
  {selecting : Selecting AuthorityRecord} {authorization : ServiceAuthorizationV1}
  {decoded : List (NamedRouteRecordV2 RelayTicket)} {middle : HnsaNamedRouteState}
  {authorizationId : Hash}

/-- The states after the rounds of the remaining endpoints, after a round that returned. -/
theorem selectEndpoints_cons_of_ok {endpointKey : EndpointKey}
    {value : Option (SelectedHnsaNamedRoute RelayTicket)}
    (run : (selectEndpoint protocol selecting authorization decoded endpointKey :
      SelectionEffect ProtocolError RuntimeError _) state = (.ok value, middle))
    (endpointKeys : List EndpointKey) :
    ((selectEndpoints protocol selecting authorization decoded (endpointKey :: endpointKeys) :
      SelectionEffect ProtocolError RuntimeError _) state).2 =
      ((selectEndpoints protocol selecting authorization decoded endpointKeys :
        SelectionEffect ProtocolError RuntimeError _) middle).2 := by
  rcases rest : (selectEndpoints protocol selecting authorization decoded endpointKeys :
    SelectionEffect ProtocolError RuntimeError _) middle with ⟨outcome, final⟩
  cases outcome with
  | error error => rw [selectEndpoints, Effect.bind_ok run, Effect.bind_error rest]
  | ok selected =>
    rw [selectEndpoints, Effect.bind_ok run, Effect.bind_ok rest]
    rfl

theorem selectEndpoints_cons_of_error {endpointKey : EndpointKey}
    {error : HnsaRouteError ProtocolError RuntimeError}
    (run : (selectEndpoint protocol selecting authorization decoded endpointKey :
      SelectionEffect ProtocolError RuntimeError _) state = (.error error, middle))
    (endpointKeys : List EndpointKey) :
    ((selectEndpoints protocol selecting authorization decoded (endpointKey :: endpointKeys) :
      SelectionEffect ProtocolError RuntimeError _) state).2 = middle := by
  rw [selectEndpoints, Effect.bind_error run]

omit [DecidableEq RelayTicket] in
/-- Any order of the verified routes comes with some order of the records. -/
theorem exists_perm_verifiedRoutes {delegation : EndpointDelegationV1}
    {routes : List (NamedRouteRecordV2 RelayTicket)}
    (perm : (verifiedRoutes protocol selecting authorization decoded delegation).Perm routes) :
    ∃ others, decoded.Perm others ∧
      verifiedRoutes protocol selecting authorization others delegation = routes := by
  unfold verifiedRoutes at perm ⊢
  rw [← List.filterMap_eq_filter] at perm
  rcases exists_perm_filterMap _ perm with ⟨others, othersPerm, others_eq⟩
  rw [List.filterMap_eq_filter] at others_eq
  exact ⟨others, othersPerm, others_eq⟩

/-! ## The two ends of a tie -/

section

variable {endpointKey : EndpointKey} {delegation : EndpointDelegationV1}

/-- A scan that stops blocks the name. -/
theorem selectUnder_of_tie (capable : hasRequiredCapabilities selecting.request delegation)
    (active : state.status = .active) (room : state.generation < u64Max)
    (scanned : scanLatest NamedRouteRecordV2.sequence none
      (verifiedRoutes protocol selecting authorization decoded delegation) = none) :
    (selectUnder protocol selecting authorization decoded endpointKey delegation :
      SelectionEffect ProtocolError RuntimeError _) state =
      (.error .conflictingRouteSequence, { state.bumped with status := .conflicted }) := by
  have inactive : ¬ state.status = .conflicted := by
    rw [active]
    decide
  have marked : markConflicted state = (.ok ⟨⟩, { state.bumped with status := .conflicted }) := by
    rw [markConflicted, if_neg inactive]
    exact bumpThen_of_lt room
  have failed : (failConflicted .conflictingRouteSequence :
      SelectionEffect ProtocolError RuntimeError (Option (NamedRouteRecordV2 RelayTicket))) state =
      (.error .conflictingRouteSequence, { state.bumped with status := .conflicted }) :=
    Effect.bind_ok (onState_of_ok marked)
  have stopped : (latestRoute protocol selecting authorization decoded delegation :
      SelectionEffect ProtocolError RuntimeError _) state =
      (.error .conflictingRouteSequence, { state.bumped with status := .conflicted }) := by
    rw [latestRoute, scanned]
    exact failed
  rw [selectUnder, if_neg (not_not.mpr capable)]
  exact Effect.bind_error stopped

theorem latestRoute_of_scanned {latest : Option (NamedRouteRecordV2 RelayTicket)}
    (scanned : scanLatest NamedRouteRecordV2.sequence none
      (verifiedRoutes protocol selecting authorization decoded delegation) = some latest) :
    (latestRoute protocol selecting authorization decoded delegation :
      SelectionEffect ProtocolError RuntimeError _) = pure latest := by
  rw [latestRoute, scanned]

theorem selectUnder_of_none (capable : hasRequiredCapabilities selecting.request delegation)
    (scanned : scanLatest NamedRouteRecordV2.sequence none
      (verifiedRoutes protocol selecting authorization decoded delegation) = some none) :
    (selectUnder protocol selecting authorization decoded endpointKey delegation :
      SelectionEffect ProtocolError RuntimeError _) state = (.ok none, state) := by
  rw [selectUnder, if_neg (not_not.mpr capable), latestRoute_of_scanned scanned]
  rfl

variable {top : NamedRouteRecordV2 RelayTicket} {held : Option HnsaDelegationState}

theorem selectUnder_of_some (capable : hasRequiredCapabilities selecting.request delegation)
    (scanned : scanLatest NamedRouteRecordV2.sequence none
      (verifiedRoutes protocol selecting authorization decoded delegation) = some (some top)) :
    (selectUnder protocol selecting authorization decoded endpointKey delegation :
      SelectionEffect ProtocolError RuntimeError _) =
      (do
        let selected ← commitRoute protocol selecting endpointKey top
        pure (some selected)) := by
  rw [selectUnder, if_neg (not_not.mpr capable), latestRoute_of_scanned scanned]
  rfl

omit [DecidableEq RelayTicket] in
/-- The first route of an endpoint that is committed is followed by the state. -/
theorem commitRoute_of_committed (room : state.generation < u64Max)
    (found : state.endpoints.lookup endpointKey = some ⟨held, none⟩)
    {commitment : HnsaSelectionCommitment}
    (committed : (commitmentFromCandidate protocol (candidateOf selecting top) :
      Except (HnsaRouteError ProtocolError RuntimeError) _) = .ok commitment) :
    ∃ endpoints, (commitRoute protocol selecting endpointKey top :
      SelectionEffect ProtocolError RuntimeError _) state =
        (.ok ⟨candidateOf selecting top, commitment⟩, { state.bumped with endpoints }) ∧
      endpoints.rows.length = state.endpoints.rows.length ∧
      ∀ key, key ≠ endpointKey → endpoints.lookup key = state.endpoints.lookup key := by
  have advanced := advanceRoute_of_vacant room found commitment.route.sequence commitment.route.id
  refine ⟨state.endpoints.modify endpointKey (fun endpoint =>
      { endpoint with route := some ⟨commitment.route.sequence, commitment.route.id⟩ }),
    ?_, SortedTable.length_mapRows _ _, ?_⟩
  · rw [commitRoute, committed]
    exact Effect.bind_ok (onState_of_ok advanced)
  · intro key other
    rw [SortedTable.lookup_modify, if_neg other]

variable (protocol selecting) in
omit [DecidableEq RelayTicket] in
/-- The commitment of a route fails without a change or is followed by the state. -/
theorem commitRoute_cases (room : state.generation < u64Max)
    (found : state.endpoints.lookup endpointKey = some ⟨held, none⟩)
    (top : NamedRouteRecordV2 RelayTicket) :
    (∃ error, (commitRoute protocol selecting endpointKey top :
      SelectionEffect ProtocolError RuntimeError _) state = (.error error, state)) ∨
      ∃ selected endpoints, (commitRoute protocol selecting endpointKey top :
        SelectionEffect ProtocolError RuntimeError _) state =
          (.ok selected, { state.bumped with endpoints }) := by
  cases committed : (commitmentFromCandidate protocol (candidateOf selecting top) :
      Except (HnsaRouteError ProtocolError RuntimeError) _) with
  | error error =>
    left
    refine ⟨error, ?_⟩
    rw [commitRoute, committed]
    rfl
  | ok commitment =>
    rcases commitRoute_of_committed room found committed with ⟨endpoints, run, -, -⟩
    exact .inr ⟨_, endpoints, run⟩

omit [DecidableEq RelayTicket] in
/-- A route that can be encoded is committed. -/
theorem commitmentFromCandidate_ok {candidate : VerifiedHnsaNamedRouteCandidate RelayTicket}
    {delegationId : Hash} {encoded : Octets}
    (authorization_eq : protocol.authorizationId candidate.record.authorization =
      .ok authorizationId)
    (delegation_eq : protocol.delegationId candidate.record.delegation = .ok delegationId)
    (encoded_eq : protocol.encodeRecord candidate.record = .ok encoded) :
    ∃ commitment, (commitmentFromCandidate protocol candidate :
      Except (HnsaRouteError ProtocolError RuntimeError) _) = .ok commitment := by
  unfold commitmentFromCandidate
  rw [authorization_eq, delegation_eq, encoded_eq]
  exact ⟨_, rfl⟩

end

variable {delegation : EndpointDelegationV1}

section

variable {endpointKey : EndpointKey} {delegationId : Hash} {followed : HnsaNamedRouteState}
  (independent : OrderIndependent protocol)
  (chosen : delegationFor protocol selecting authorization decoded endpointKey = .ok delegation)
  (id_eq : protocol.delegationId delegation = .ok delegationId)
  (advanced : NamedRoute.advanceDelegation endpointKey delegation.endpointSequence delegationId
    state = (.ok ⟨⟩, followed))

include independent chosen id_eq advanced

variable (RuntimeError) in
/-- Every order comes to the same choice of the delegation and follows it. -/
theorem selectEndpoint_of_perm {others : List (NamedRouteRecordV2 RelayTicket)}
    (perm : decoded.Perm others) :
    (selectEndpoint protocol selecting authorization others endpointKey :
      SelectionEffect ProtocolError RuntimeError _) state =
    (selectUnder protocol selecting authorization others endpointKey delegation :
      SelectionEffect ProtocolError RuntimeError _) followed := by
  have delegated := (delegationFor_perm independent selecting authorization perm
    endpointKey).symm.trans chosen
  rw [selectEndpoint_of_ok delegated id_eq]
  exact Effect.bind_ok (onState_of_ok advanced)

/-- Both ends of a tie cannot be the same state. -/
theorem settled_of_same (capable : hasRequiredCapabilities selecting.request delegation)
    (active : followed.status = .active)
    (room : followed.generation < u64Max) {held : Option HnsaDelegationState}
    (found : followed.endpoints.lookup endpointKey = some ⟨held, none⟩)
    {endpointKeys : List EndpointKey} (same : ∀ others, decoded.Perm others →
      ((selectEndpoints protocol selecting authorization others (endpointKey :: endpointKeys) :
        SelectionEffect ProtocolError RuntimeError _) state).2 =
      ((selectEndpoints protocol selecting authorization decoded (endpointKey :: endpointKeys) :
        SelectionEffect ProtocolError RuntimeError _) state).2) :
    Settled NamedRouteRecordV2.sequence
      (verifiedRoutes protocol selecting authorization decoded delegation) := by
  rintro ⟨top, isTop⟩ first firstMem second secondMem equal
  by_contra ne
  rcases scanLatest_tie_first firstMem secondMem equal.symm (Ne.symm ne) with
    ⟨tied, tiedPerm, tiedScan⟩
  rcases exists_perm_verifiedRoutes tiedPerm with ⟨tiedRecords, tiedRecordsPerm, tied_eq⟩
  rcases exists_perm_verifiedRoutes (List.perm_cons_erase isTop.1) with
    ⟨topRecords, topRecordsPerm, top_eq⟩
  have topScan := scanLatest_top_first isTop
  rw [← tied_eq] at tiedScan
  rw [← top_eq] at topScan
  have round {others : List (NamedRouteRecordV2 RelayTicket)} (perm : decoded.Perm others) :=
    selectEndpoint_of_perm RuntimeError independent chosen id_eq advanced perm
  have tiedEnd := selectEndpoints_cons_of_error
    ((round tiedRecordsPerm).trans (selectUnder_of_tie capable active room tiedScan))
    endpointKeys
  have ends := (same topRecords topRecordsPerm).trans (same tiedRecords tiedRecordsPerm).symm
  rw [tiedEnd] at ends
  have topRound := (round topRecordsPerm).trans
    (congrFun (selectUnder_of_some capable topScan) followed)
  rcases commitRoute_cases protocol selecting room found top with
    ⟨error, failed⟩ | ⟨selected, endpoints, committed⟩
  · rw [Effect.bind_error failed] at topRound
    rw [selectEndpoints_cons_of_error topRound] at ends
    have generations := congrArg HnsaNamedRouteState.generation ends
    exact absurd generations (Nat.ne_of_lt (Nat.lt_succ_self _))
  rw [Effect.bind_ok committed] at topRound
  rcases rest : (selectEndpoints protocol selecting authorization topRecords endpointKeys :
    SelectionEffect ProtocolError RuntimeError _) { followed.bumped with endpoints } with
    ⟨outcome, final⟩
  have grows := grows_selectEndpoints rest
  rw [selectEndpoints_cons_of_ok topRound, rest] at ends
  change final = _ at ends
  rw [ends] at grows
  rcases grows.generation with equal_states | less
  · have statuses := congrArg HnsaNamedRouteState.status equal_states
    have still : HnsaSequenceStateStatus.conflicted = .active := statuses.trans active
    cases still
  · exact absurd less (lt_irrefl _)

end

omit [DecidableEq RelayTicket] in
/-- A verified route that can be encoded is committed. -/
theorem committed_of_encoded {delegationId : Hash}
    (authorized : protocol.authorizationId authorization = .ok authorizationId)
    (id_eq : protocol.delegationId delegation = .ok delegationId)
    {top : NamedRouteRecordV2 RelayTicket} {encoded : Octets}
    (mem : top ∈ verifiedRoutes protocol selecting authorization decoded delegation)
    (encoded_eq : protocol.encodeRecord top = .ok encoded) :
    ∃ commitment, (commitmentFromCandidate protocol (candidateOf selecting top) :
      Except (HnsaRouteError ProtocolError RuntimeError) _) = .ok commitment := by
  have listed := (List.mem_filter.mp mem).2
  simp only [decide_eq_true_eq] at listed
  apply commitmentFromCandidate_ok
  · exact (congrArg protocol.authorizationId listed.1).trans authorized
  · exact (congrArg protocol.delegationId listed.2.1).trans id_eq
  · exact encoded_eq

/-- The rounds of a first selection that end alike in every order have settled routes. -/
theorem settlesFrom_of_same (independent : OrderIndependent protocol)
    (authorized : protocol.authorizationId authorization = .ok authorizationId)
    {endpointKeys : List EndpointKey} (distinct : endpointKeys.Nodup) {held : Nat}
    (isFirst : First held endpointKeys state)
    (same : ∀ others, decoded.Perm others →
      ((selectEndpoints protocol selecting authorization others endpointKeys :
        SelectionEffect ProtocolError RuntimeError _) state).2 =
      ((selectEndpoints protocol selecting authorization decoded endpointKeys :
        SelectionEffect ProtocolError RuntimeError _) state).2) :
    SettlesFrom protocol selecting authorization decoded held endpointKeys := by
  induction endpointKeys generalizing held state with
  | nil => trivial
  | cons endpointKey endpointKeys ih =>
    rw [List.nodup_cons] at distinct
    -- What a round that returns the same in every order leaves to the remaining ones.
    have remaining : ∀ {middle : HnsaNamedRouteState}
        {value : Option (SelectedHnsaNamedRoute RelayTicket)},
        (∀ others, decoded.Perm others →
          (selectEndpoint protocol selecting authorization others endpointKey :
            SelectionEffect ProtocolError RuntimeError _) state = (.ok value, middle)) →
        ∀ others, decoded.Perm others →
          ((selectEndpoints protocol selecting authorization others endpointKeys :
            SelectionEffect ProtocolError RuntimeError _) middle).2 =
          ((selectEndpoints protocol selecting authorization decoded endpointKeys :
            SelectionEffect ProtocolError RuntimeError _) middle).2 := by
      intro middle value run others perm
      rw [← selectEndpoints_cons_of_ok (run others perm),
        ← selectEndpoints_cons_of_ok (run decoded (List.Perm.refl decoded))]
      exact same others perm
    rw [SettlesFrom]
    cases chosen : delegationFor protocol selecting authorization decoded endpointKey with
    | error error =>
      cases error with
      | missing =>
        have skipped : First held endpointKeys state :=
          ⟨isFirst.active, isFirst.rows, isFirst.generation,
            fun key mem => isFirst.absent key (List.mem_cons_of_mem endpointKey mem)⟩
        apply ih distinct.2 skipped
        refine @remaining _ none ?_
        intro others perm
        have missing := (delegationFor_perm independent selecting authorization perm
          endpointKey).symm.trans chosen
        rw [selectEndpoint_of_missing missing]
        rfl
      | conflictingSequence => trivial
      | other code => trivial
    | ok delegation =>
      cases id_eq : protocol.delegationId delegation with
      | error error => simp only [id_eq]
      | ok delegationId =>
        simp only [id_eq]
        split
        next => trivial
        next notFull =>
          rcases isFirst.advanceDelegation distinct.1 (not_le.mp notFull)
            delegation.endpointSequence delegationId with
            ⟨followed, advanced, active, generation_eq, rows, found, absent⟩
          have room : followed.generation < u64Max := by
            rw [generation_eq]
            exact isFirst.room
          have generation := isFirst.generation
          have next : First (held + 1) endpointKeys followed :=
            ⟨active, rows, by omega, absent⟩
          have round {others : List (NamedRouteRecordV2 RelayTicket)}
              (perm : decoded.Perm others) :=
            selectEndpoint_of_perm RuntimeError independent chosen id_eq advanced perm
          split
          next incapable =>
            apply ih distinct.2 next
            refine @remaining _ none ?_
            intro others perm
            rw [round perm, selectUnder, if_pos incapable]
            rfl
          next notIncapable =>
            have capable := not_not.mp notIncapable
            have settled := settled_of_same independent chosen id_eq advanced capable
              active room found same
            constructor
            · exact settled
            · rintro (empty | ⟨top, encoded, isTop, encoded_eq⟩)
              · apply ih distinct.2 next
                refine @remaining _ none ?_
                intro others perm
                have nothing := scanLatest_perm settled
                  (verifiedRoutes_perm selecting authorization perm delegation)
                rw [empty, scanLatest_nil] at nothing
                exact (round perm).trans (selectUnder_of_none capable nothing)
              · have topScan := scanLatest_of_top isTop (settled ⟨top, isTop⟩)
                rcases committed_of_encoded authorized id_eq isTop.1 encoded_eq with
                  ⟨commitment, committed⟩
                rcases commitRoute_of_committed room found committed with
                  ⟨endpoints, run, length_eq, others_eq⟩
                have after : First (held + 1) endpointKeys
                    { followed.bumped with endpoints } := by
                  constructor
                  · exact active
                  · exact length_eq.trans rows
                  · change followed.generation + 1 ≤ _
                    omega
                  · intro key mem
                    have other : key ≠ endpointKey := fun isKey => distinct.1 (isKey ▸ mem)
                    exact (others_eq key other).trans (absent key mem)
                apply ih distinct.2 after
                refine @remaining _ (some ⟨candidateOf selecting top, commitment⟩) ?_
                intro others perm
                have scanned := (scanLatest_perm settled
                  (verifiedRoutes_perm selecting authorization perm delegation)).trans
                  topScan
                rw [round perm, selectUnder_of_some capable scanned]
                exact Effect.bind_ok run

/-! ## Whole selections -/

/-- The state of a first selection once it follows an authorization. -/
def authorizedState (scope : Scope AuthorityRecord) (request : HnsaNamedRouteRequest)
    (serial : Nat) (id : Hash) : HnsaNamedRouteState where
  generation := 2
  resourceGeneration := request.context.resourceGeneration
  authorityDigest := scope.authorityDigest
  routeKey := scope.routeKey
  status := .active
  authorization := some ⟨serial, id⟩
  endpoints := SortedTable.empty

theorem first_authorizedState (scope : Scope AuthorityRecord) (request : HnsaNamedRouteRequest)
    (serial : Nat) (id : Hash) (endpointKeys : List EndpointKey) :
    First 0 endpointKeys (authorizedState scope request serial id) where
  active := rfl
  rows := rfl
  generation := le_rfl
  absent _ _ := rfl

theorem bindScope_new (digest routeKey : Hash) (resourceGeneration : Nat) :
    bindScope digest routeKey resourceGeneration .new = (.ok ⟨⟩,
      ⟨1, resourceGeneration, digest, routeKey, .active, none, SortedTable.empty⟩) := by
  have unscoped : ¬ HnsaNamedRouteState.new.isScoped := by decide
  rw [bindScope, if_pos unscoped]

theorem ensureActive_of_active (active : state.status = .active) :
    ensureActive state = (.ok ⟨⟩, state) := by
  rw [ensureActive, active]

/-- A first selection ends in the state in which its rounds end. -/
theorem snd_selectBound_new {later : Engine} (nonempty : decoded ≠ [])
    (selected : protocol.selectServiceAuthorization (decoded.map NamedRouteRecordV2.authorization)
      selecting.scope.authority selecting.scope.identity selecting.resource.anchor.height
      selecting.request.context.policy.allowedAuthorizationFlags = .ok authorization)
    (identified : protocol.authorizationId authorization = .ok authorizationId) :
    ((selectBound protocol later selecting decoded :
      SelectionEffect ProtocolError RuntimeError _) .new).2 =
      ((selectEndpoints protocol selecting authorization decoded
        (endpointKeys authorization decoded) : SelectionEffect ProtocolError RuntimeError _)
        (authorizedState selecting.scope selecting.request authorization.serial
          authorizationId)).2 := by
  have notEmpty : ¬ decoded.isEmpty = true := by
    rw [List.isEmpty_iff]
    exact nonempty
  have choice : (chooseAuthorization protocol selecting decoded :
      SelectionEffect ProtocolError RuntimeError _) = pure authorization := by
    rw [chooseAuthorization, selected]
  have identity : (Effect.ofExcept ((protocol.authorizationId authorization).mapError .authority) :
      SelectionEffect ProtocolError RuntimeError _) = pure authorizationId := by
    rw [identified]
    rfl
  have advanced : advanceAuthorization authorization.serial authorizationId
      ⟨1, selecting.request.context.resourceGeneration, selecting.scope.authorityDigest,
        selecting.scope.routeKey, .active, none, SortedTable.empty⟩ =
      (.ok ⟨⟩, authorizedState selecting.scope selecting.request authorization.serial
        authorizationId) :=
    bumpThen_of_lt (by decide : 1 < u64Max)
  unfold selectBound
  rw [Effect.bind_ok (onState_of_ok (bindScope_new _ _ _)),
    Effect.bind_ok (onState_of_ok (ensureActive_of_active rfl)), if_neg notEmpty, choice,
    Effect.pure_bind, identity, Effect.pure_bind, Effect.bind_ok (onState_of_ok advanced)]
  apply Effect.snd_bind_of_same
  intro value state
  split
  next => rfl
  next =>
    apply Effect.snd_bind_of_same
    exact fun _ _ => rfl

/-- Orders that lead a first selection to the same state reach settled routes only. -/
theorem settles_of_same (independent : OrderIndependent protocol) {engine later : Engine}
    {resource : VerifiedHnsResource} {encodedRecords : List Octets}
    {request : HnsaNamedRouteRequest}
    (same : ∀ others, encodedRecords.Perm others →
      ((verifyAndSelectHnsaNamedRoutes protocol engine later resource others request :
        SelectionEffect ProtocolError RuntimeError _) .new).2 =
      ((verifyAndSelectHnsaNamedRoutes protocol engine later resource encodedRecords request :
        SelectionEffect ProtocolError RuntimeError _) .new).2) :
    Settles RuntimeError protocol engine resource encodedRecords request := by
  intro scope authorization authorizationId prepared selected identified
  by_cases empty : encodedRecords.filterMap protocol.decodeRecord = []
  · rw [empty]
    trivial
  -- The final state for any order of the decoded records.
  have final : ∀ others, encodedRecords.Perm others →
      ((verifyAndSelectHnsaNamedRoutes protocol engine later resource others request :
        SelectionEffect ProtocolError RuntimeError _) .new).2 =
      ((selectEndpoints protocol ⟨scope, resource, request⟩ authorization
        (others.filterMap protocol.decodeRecord)
        (endpointKeys authorization (encodedRecords.filterMap protocol.decodeRecord)) :
        SelectionEffect ProtocolError RuntimeError _)
        (authorizedState scope request authorization.serial authorizationId)).2 := by
    intro others perm
    have decodedPerm := perm.filterMap protocol.decodeRecord
    have nonempty : others.filterMap protocol.decodeRecord ≠ [] := fun nothing =>
      empty (List.perm_nil.mp (nothing ▸ decodedPerm))
    rw [verifyAndSelectHnsaNamedRoutes, ← prepare_perm perm, prepared]
    change ((selectBound protocol later ⟨scope, resource, request⟩
      (others.filterMap protocol.decodeRecord) :
      SelectionEffect ProtocolError RuntimeError _) .new).2 = _
    rw [snd_selectBound_new nonempty ((independent.authorization _ _ _ _
      (decodedPerm.map _)).symm.trans selected) identified,
      ← endpointKeys_perm authorization decodedPerm]
  apply settlesFrom_of_same independent identified (endpointKeys_nodup _ _)
    (first_authorizedState scope request authorization.serial authorizationId _)
  intro decodedOthers decodedPerm
  rcases exists_perm_filterMap protocol.decodeRecord decodedPerm with ⟨others, perm, rfl⟩
  rw [← final others perm, ← final encodedRecords (List.Perm.refl encodedRecords)]
  exact same others perm

/-- The same at the fresh state alone, which is active and binds any scope. -/
theorem selection_order_new_iff (independent : OrderIndependent protocol) (engine later : Engine)
    (resource : VerifiedHnsResource) (encodedRecords : List Octets)
    (request : HnsaNamedRouteRequest) :
    (∀ others, encodedRecords.Perm others →
      (verifyAndSelectHnsaNamedRoutes protocol engine later resource others request :
        SelectionEffect ProtocolError RuntimeError _) .new =
      (verifyAndSelectHnsaNamedRoutes protocol engine later resource encodedRecords request :
        SelectionEffect ProtocolError RuntimeError _) .new) ↔
      Settles RuntimeError protocol engine resource encodedRecords request := by
  constructor
  · intro same
    exact settles_of_same independent fun others perm => congrArg Prod.snd (same others perm)
  · intro settles others perm
    exact verifyAndSelect_perm independent perm settles .new

/-- Order independence: the order of a batch makes no difference, in the result and in the state,
exactly when no endpoint that a first selection of the batch reaches has routes that tie below
their greatest sequence. -/
theorem selection_order_iff (independent : OrderIndependent protocol) (engine later : Engine)
    (resource : VerifiedHnsResource) (encodedRecords : List Octets)
    (request : HnsaNamedRouteRequest) :
    (∀ state others, encodedRecords.Perm others →
      (verifyAndSelectHnsaNamedRoutes protocol engine later resource others request :
        SelectionEffect ProtocolError RuntimeError _) state =
      (verifyAndSelectHnsaNamedRoutes protocol engine later resource encodedRecords request :
        SelectionEffect ProtocolError RuntimeError _) state) ↔
      Settles RuntimeError protocol engine resource encodedRecords request := by
  constructor
  · intro same
    exact (selection_order_new_iff independent engine later resource encodedRecords request).mp
      (same .new)
  · intro settles state others perm
    exact verifyAndSelect_perm independent perm settles state

end

namespace ExampleRoutes

open Browser.Runtime Policy

def digest (byte : UInt8) : Hash :=
  ⟨byte :: List.replicate 31 1, rfl⟩

def key (byte : UInt8) : EndpointKey :=
  ⟨byte :: List.replicate 32 1, rfl⟩

def authorization : ServiceAuthorizationV1 :=
  ⟨1, digest 1, 3, [119, 101, 98], 2, key 1, 0, 1, 1, 100, 3600, []⟩

def delegation : EndpointDelegationV1 :=
  ⟨1, digest 2, key 2, 1, 50, 240, 1, digest 0, []⟩

/-- A route under the delegation with a sequence and an expiry. -/
def route (sequence expiresAt : Nat) : NamedRouteRecordV2 Unit :=
  ⟨digest 3, 2, sequence, 50, expiresAt, authorization, delegation, [()], []⟩

/-- Signed objects are told apart by membership; the signatures of this example hold. -/
def protocol : HnsaProtocol Unit Unit Unit where
  maxRecordsPerKey := 16
  hnsWebV1 := 2
  hnsChatV1 := 3
  networkMagic _ := 1
  blake2b256 octets := digest (octets.getLastD 0)
  selectAuthorityRecord strings := if strings.isEmpty then .error .missing else .ok ()
  encodeAuthority _ := .ok [7]
  namedRouteKey _ := .ok (digest 3)
  decodeRecord
    | [sequence, expiresAt] => some (route sequence.toNat expiresAt.toNat)
    | _ => none
  encodeRecord record := .ok [UInt8.ofNat record.sequence, UInt8.ofNat record.expiresAt]
  verifyRecord record _ now := decide (record.issuedAt ≤ now ∧ now < record.expiresAt)
  authorizationId _ := .ok (digest 2)
  delegationId _ := .ok (digest 4)
  selectServiceAuthorization candidates _ _ _ _ :=
    if authorization ∈ candidates then .ok authorization else .error .missing
  selectEndpointDelegation candidates _ _ _ _ accepts :=
    if delegation ∈ candidates ∧ accepts delegation = true then .ok delegation
    else .error .missing

theorem protocol_orderIndependent : OrderIndependent protocol where
  authorization _ _ _ _ perm := by
    simp only [protocol, perm.mem_iff]
  delegation _ _ _ _ _ perm := by
    simp only [protocol, perm.mem_iff]

/-- A name with one authority record, proved by a header that holds from 50 to 250. -/
def resource : VerifiedHnsResource where
  anchor := ⟨.regtest, 10, digest 5, digest 6, 1, 50, 250⟩
  nameHash := digest 1
  name := [97]
  records := [.txt [[104, 115, 97, 49]]]

theorem session_nonzero : List.replicate 16 (1 : UInt8) ≠ List.replicate 16 0 := by
  decide

def engine : Engine where
  network := .regtest
  runtime := ⟨⟨List.replicate 16 1, rfl, session_nonzero⟩, 1, 4, 0, .active⟩
  policy := .default

def context : HnsaNamedRouteContext :=
  ⟨1, 1, 100, ⟨900, 0, 1, 1, digest 0, true⟩, Nat.one_ne_zero, Nat.one_ne_zero⟩

def request : HnsaNamedRouteRequest :=
  ⟨[97], [119, 101, 98], 2, context, 100⟩

/-- Two different routes with sequence 5 around one with sequence 7. -/
def tiedBatch : List Octets :=
  [[5, 200], [7, 200], [5, 201]]

def select (batch : List Octets) : SelectionEffect Unit Unit (List (SelectedHnsaNamedRoute Unit)) :=
  verifyAndSelectHnsaNamedRoutes protocol engine engine resource batch request

/-- The order of the responses decides between a selection and a blocked name. -/
theorem order_matters : OrderIndependent protocol ∧
    ¬ ∀ state others, tiedBatch.Perm others → select others state = select tiedBatch state := by
  constructor
  · exact protocol_orderIndependent
  · intro same
    have swapped := same .new [[5, 200], [5, 201], [7, 200]] (by decide)
    have statuses := congrArg (fun pair => pair.2.status) swapped
    revert statuses
    decide

theorem selection_order_iff_tied :
    (∀ state others, tiedBatch.Perm others → select others state = select tiedBatch state) ↔
      Settles Unit protocol engine resource tiedBatch request :=
  selection_order_iff protocol_orderIndependent engine engine resource tiedBatch request

end ExampleRoutes

end HnsDaneEngine.NamedRoute
