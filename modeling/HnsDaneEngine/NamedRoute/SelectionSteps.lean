import HnsDaneEngine.NamedRoute.Selection

/-!
# What a round of the selection depends on and what it leaves

The rounds of a selection get the same objects for every order of the records, except in
the scan for the latest route.  Every round that changes the state does so under a greater
generation, and it forgets no endpoint.
-/

namespace HnsDaneEngine.NamedRoute

open Control Data HnsDaneEngine.Order Primitives HnsaNamedRouteState

/-- A change within the rounds comes with a greater generation; the authorization and the
endpoints stay. -/
structure Grows (before after : HnsaNamedRouteState) : Prop where
  generation : after = before ∨ before.generation < after.generation
  authorityState : after.authorityState = before.authorityState
  present : ∀ endpointKey, (before.endpoints.lookup endpointKey).isSome →
    (after.endpoints.lookup endpointKey).isSome

theorem Grows.refl (state : HnsaNamedRouteState) : Grows state state where
  generation := .inl rfl
  authorityState := rfl
  present _ found := found

theorem Grows.trans {first second third : HnsaNamedRouteState} (earlier : Grows first second)
    (later : Grows second third) : Grows first third where
  generation := by
    rcases earlier.generation with rfl | less
    · exact later.generation
    · rcases later.generation with rfl | lessAgain
      · exact .inr less
      · exact .inr (less.trans lessAgain)
  authorityState := later.authorityState.trans earlier.authorityState
  present endpointKey found := later.present endpointKey (earlier.present endpointKey found)

theorem grows_bumpThen {assign : HnsaNamedRouteState → HnsaNamedRouteState}
    {state : HnsaNamedRouteState}
    (kept : (assign state.bumped).generation = state.bumped.generation)
    (authorized : (assign state.bumped).authorityState = state.authorityState)
    (present : ∀ endpointKey, (state.endpoints.lookup endpointKey).isSome →
      ((assign state.bumped).endpoints.lookup endpointKey).isSome) :
    Grows state (bumpThen assign state).2 := by
  rcases bumpThen_cases assign state with failed | done
  · rw [failed]
    exact .refl state
  rw [done]
  constructor
  · right
    rw [kept]
    exact Nat.lt_succ_self _
  · exact authorized
  · exact present

theorem grows_markConflicted : Effect.Steps Grows markConflicted := by
  intro state
  rcases markConflicted_cases state with same | marked
  · rw [same]
    exact .refl state
  · rw [marked]
    exact ⟨.inr (Nat.lt_succ_self _), rfl, fun _ found => found⟩

theorem grows_markExhausted : Effect.Steps Grows markExhausted := by
  intro state
  rcases markExhausted_cases state with same | marked
  · rw [same]
    exact .refl state
  · rw [marked]
    exact ⟨.inr (Nat.lt_succ_self _), rfl, fun _ found => found⟩

theorem grows_refuseConflict : Effect.Steps Grows refuseConflict := by
  intro state
  rw [refuseConflict, snd_bind_throw]
  exact grows_markConflicted state

theorem isSome_lookup_modify {endpoints : SortedTable EndpointKey HnsaEndpointState
      maxHnsaNamedRouteEndpoints} {changed other : EndpointKey}
    {change : HnsaEndpointState → HnsaEndpointState} (found : (endpoints.lookup other).isSome) :
    ((endpoints.modify changed change).lookup other).isSome := by
  rw [SortedTable.lookup_modify]
  split
  · rwa [Option.isSome_map]
  · exact found

theorem grows_advanceDelegation (endpointKey : EndpointKey) (sequence : Nat) (id : Hash) :
    Effect.Steps Grows (advanceDelegation endpointKey sequence id) := by
  intro state
  unfold advanceDelegation
  split
  · split
    · exact .refl state
    · exact grows_refuseConflict state
    · exact .refl state
    · exact grows_bumpThen rfl rfl fun _ => isSome_lookup_modify
    · exact grows_bumpThen rfl rfl fun _ => isSome_lookup_modify
  · split
    · rw [snd_bind_throw]
      exact grows_markExhausted state
    next endpoints fits =>
      apply grows_bumpThen rfl rfl
      intro other found
      change (endpoints.lookup other).isSome
      rw [SortedTable.lookup_insert? fits]
      split
      · rfl
      · exact found

theorem grows_advanceRoute (endpointKey : EndpointKey) (sequence : Nat) (digest : Hash) :
    Effect.Steps Grows (advanceRoute endpointKey sequence digest) := by
  intro state
  unfold advanceRoute
  split
  · exact .refl state
  split
  · exact .refl state
  · exact grows_refuseConflict state
  · exact .refl state
  · exact grows_bumpThen rfl rfl fun _ => isSome_lookup_modify
  · exact grows_bumpThen rfl rfl fun _ => isSome_lookup_modify

/-- A delegation that was followed is in the table. -/
theorem present_of_advanceDelegation {endpointKey : EndpointKey} {sequence : Nat} {id : Hash}
    {state final : HnsaNamedRouteState}
    (run : advanceDelegation endpointKey sequence id state = (.ok ⟨⟩, final)) :
    (final.endpoints.lookup endpointKey).isSome := by
  rcases Option.bind_eq_some_iff.mp (delegation_of_advanceDelegation run) with ⟨_, found, -⟩
  rw [found]
  rfl

section

variable {AuthorityRecord RelayTicket ProtocolError RuntimeError : Type}
  {protocol : HnsaProtocol AuthorityRecord RelayTicket ProtocolError}
  {state final : HnsaNamedRouteState} {selecting : Selecting AuthorityRecord}
  {authorization : ServiceAuthorizationV1}
  {decoded first second : List (NamedRouteRecordV2 RelayTicket)} {endpointKey : EndpointKey}
  {result : Except (HnsaRouteError ProtocolError RuntimeError)
    (Option (SelectedHnsaNamedRoute RelayTicket))}

theorem onState_of_ok {α : Type} {action : StateEffect α} {value : α}
    (run : action state = (.ok value, final)) :
    (onState action : SelectionEffect ProtocolError RuntimeError α) state = (.ok value, final) :=
  Effect.mapError_of_ok run

/-- The mutators that the rounds call carry an invariant with related changes. -/
structure RoundsCarry (invariant : HnsaNamedRouteState → Prop)
    (relation : HnsaNamedRouteState → HnsaNamedRouteState → Prop) : Prop where
  refl : ∀ state, relation state state
  trans : ∀ {first second third}, relation first second → relation second third →
    relation first third
  markConflicted : ∀ state, invariant state → relation state (markConflicted state).2
  advanceDelegation : ∀ endpointKey sequence id,
    Effect.Carries invariant relation (advanceDelegation endpointKey sequence id)
  advanceRoute : ∀ endpointKey sequence digest,
    Effect.Carries invariant relation (advanceRoute endpointKey sequence digest)

namespace RoundsCarry

variable {invariant : HnsaNamedRouteState → Prop}
  {relation : HnsaNamedRouteState → HnsaNamedRouteState → Prop}
  (carry : RoundsCarry invariant relation)

include carry

theorem same {α : Type} {action : SelectionEffect ProtocolError RuntimeError α}
    (unchanged : ∀ state, (action state).2 = state) : Effect.Carries invariant relation action :=
  Effect.Carries.of_same carry.refl unchanged

theorem bind {α β : Type} {first : SelectionEffect ProtocolError RuntimeError α}
    {next : α → SelectionEffect ProtocolError RuntimeError β}
    (firstCarries : Effect.Carries invariant relation first)
    (nextCarries : ∀ value, Effect.Carries invariant relation (next value)) :
    Effect.Carries invariant relation (first >>= next) := by
  refine Effect.Carries.bind ?_ firstCarries nextCarries
  exact carry.trans

theorem failConflicted {α : Type} (error : HnsaRouteError ProtocolError RuntimeError) :
    Effect.Carries invariant relation
      (failConflicted error : SelectionEffect ProtocolError RuntimeError α) :=
  Effect.Carries.bind_throw carry.markConflicted

theorem commitRoute {record : NamedRouteRecordV2 RelayTicket} :
    Effect.Carries invariant relation (commitRoute protocol selecting endpointKey record :
      SelectionEffect ProtocolError RuntimeError _) := by
  unfold NamedRoute.commitRoute
  apply carry.bind (carry.same fun _ => rfl)
  intro commitment
  apply carry.bind (carry.advanceRoute _ _ _).mapError
  exact fun _ => carry.same fun _ => rfl

variable [DecidableEq RelayTicket] {delegation : EndpointDelegationV1}

theorem latestRoute :
    Effect.Carries invariant relation
      (latestRoute protocol selecting authorization decoded delegation :
        SelectionEffect ProtocolError RuntimeError _) := by
  unfold NamedRoute.latestRoute
  split
  · exact carry.failConflicted _
  · exact carry.same fun _ => rfl

theorem selectUnder :
    Effect.Carries invariant relation (selectUnder protocol selecting authorization decoded
      endpointKey delegation : SelectionEffect ProtocolError RuntimeError _) := by
  unfold NamedRoute.selectUnder
  split
  · exact carry.same fun _ => rfl
  apply carry.bind carry.latestRoute
  intro latest
  cases latest with
  | none => exact carry.same fun _ => rfl
  | some record =>
    apply carry.bind carry.commitRoute
    exact fun _ => carry.same fun _ => rfl

theorem selectRoute :
    Effect.Carries invariant relation (selectRoute protocol selecting authorization decoded
      endpointKey delegation : SelectionEffect ProtocolError RuntimeError _) := by
  unfold NamedRoute.selectRoute
  apply carry.bind (carry.same fun _ => rfl)
  intro delegationId
  apply carry.bind (carry.advanceDelegation _ _ _).mapError
  exact fun _ => carry.selectUnder

omit [DecidableEq RelayTicket] in
theorem chooseDelegation :
    Effect.Carries invariant relation (chooseDelegation protocol selecting authorization decoded
      endpointKey : SelectionEffect ProtocolError RuntimeError _) := by
  unfold NamedRoute.chooseDelegation
  split
  · exact carry.same fun _ => rfl
  · exact carry.same fun _ => rfl
  · exact carry.failConflicted _
  · exact carry.same fun _ => rfl

theorem selectEndpoint :
    Effect.Carries invariant relation (selectEndpoint protocol selecting authorization decoded
      endpointKey : SelectionEffect ProtocolError RuntimeError _) := by
  unfold NamedRoute.selectEndpoint
  apply carry.bind carry.chooseDelegation
  intro delegation
  cases delegation with
  | none => exact carry.same fun _ => rfl
  | some delegation => exact carry.selectRoute

theorem selectEndpoints {endpointKeys : List EndpointKey} :
    Effect.Carries invariant relation (selectEndpoints protocol selecting authorization decoded
      endpointKeys : SelectionEffect ProtocolError RuntimeError _) := by
  induction endpointKeys with
  | nil => exact carry.same fun _ => rfl
  | cons endpointKey endpointKeys ih =>
    unfold NamedRoute.selectEndpoints
    apply carry.bind carry.selectEndpoint
    intro first
    apply carry.bind ih
    exact fun _ => carry.same fun _ => rfl

end RoundsCarry

theorem growing : RoundsCarry (fun _ => True) Grows where
  refl := Grows.refl
  trans := Grows.trans
  markConflicted state _ := grows_markConflicted state
  advanceDelegation _ _ _ := .of_steps (grows_advanceDelegation _ _ _)
  advanceRoute _ _ _ := .of_steps (grows_advanceRoute _ _ _)

variable [DecidableEq RelayTicket]

theorem grows_selectUnder {delegation : EndpointDelegationV1}
    (run : selectUnder protocol selecting authorization decoded endpointKey delegation state =
      (result, final)) : Grows state final :=
  (growing.selectUnder.of_run trivial run).1

theorem grows_selectEndpoint
    (run : selectEndpoint protocol selecting authorization decoded endpointKey state =
      (result, final)) : Grows state final :=
  (growing.selectEndpoint.of_run trivial run).1

theorem grows_selectEndpoints {endpointKeys : List EndpointKey}
    {result : Except (HnsaRouteError ProtocolError RuntimeError)
      (List (SelectedHnsaNamedRoute RelayTicket))}
    (run : selectEndpoints protocol selecting authorization decoded endpointKeys state =
      (result, final)) : Grows state final :=
  (growing.selectEndpoints.of_run trivial run).1

/-- The selections of the other package do not depend on the order of the candidates. -/
structure OrderIndependent (protocol : HnsaProtocol AuthorityRecord RelayTicket ProtocolError) :
    Prop where
  authorization : ∀ {first second : List ServiceAuthorizationV1} (authority : AuthorityRecord)
    (identity : ServiceIdentity) (height flags : Nat), first.Perm second →
    protocol.selectServiceAuthorization first authority identity height flags =
      protocol.selectServiceAuthorization second authority identity height flags
  delegation : ∀ {first second : List EndpointDelegationV1}
    (authorization : ServiceAuthorizationV1) (now capabilities : Nat) (constraints : Hash)
    (accepts : EndpointDelegationV1 → Bool), first.Perm second →
    protocol.selectEndpointDelegation first authorization now capabilities constraints accepts =
      protocol.selectEndpointDelegation second authorization now capabilities constraints accepts

omit [DecidableEq RelayTicket]

theorem prepare_perm {engine : Engine} {resource : VerifiedHnsResource}
    {first second : List Octets} {request : HnsaNamedRouteRequest} (perm : first.Perm second) :
    (prepare protocol engine resource first request :
      Except (HnsaRouteError ProtocolError RuntimeError) _) =
      prepare protocol engine resource second request := by
  have checked : (checkRequest protocol resource first request :
      Except (HnsaRouteError ProtocolError RuntimeError) Unit) =
      checkRequest protocol resource second request := by
    unfold checkRequest
    rw [perm.length_eq, perm.isEmpty_eq]
  rw [prepare, checked, prepare]

theorem chooseAuthorization_perm (independent : OrderIndependent protocol)
    (selecting : Selecting AuthorityRecord) (perm : first.Perm second) :
    (chooseAuthorization protocol selecting first :
      SelectionEffect ProtocolError RuntimeError _) =
      chooseAuthorization protocol selecting second := by
  rw [chooseAuthorization, independent.authorization _ _ _ _ (perm.map _), chooseAuthorization]

theorem endpointKeys_perm (authorization : ServiceAuthorizationV1) (perm : first.Perm second) :
    endpointKeys authorization first = endpointKeys authorization second := by
  have keys := ((perm.filter fun record => record.authorization = authorization).map
    fun record => record.delegation.endpointKey).dedup
  have sorted := ((List.perm_insertionSort (fun first second : EndpointKey => first ≤ second) _).trans
    keys).trans (List.perm_insertionSort (fun first second : EndpointKey => first ≤ second) _).symm
  exact sorted.eq_of_pairwise' (List.pairwise_insertionSort _ _) (List.pairwise_insertionSort _ _)

theorem endpointKeys_nodup (authorization : ServiceAuthorizationV1)
    (decoded : List (NamedRouteRecordV2 RelayTicket)) :
    (endpointKeys authorization decoded).Nodup :=
  (List.perm_insertionSort (fun first second : EndpointKey => first ≤ second) _).nodup_iff.mpr
    (List.nodup_dedup _)

theorem delegationFor_perm (independent : OrderIndependent protocol)
    (selecting : Selecting AuthorityRecord) (authorization : ServiceAuthorizationV1)
    (perm : first.Perm second) (endpointKey : EndpointKey) :
    delegationFor protocol selecting authorization first endpointKey =
      delegationFor protocol selecting authorization second endpointKey :=
  independent.delegation _ _ _ _ _ ((perm.filter _).map _)

theorem verifiedRoutes_perm (selecting : Selecting AuthorityRecord)
    (authorization : ServiceAuthorizationV1) (perm : first.Perm second)
    (delegation : EndpointDelegationV1) :
    (verifiedRoutes protocol selecting authorization first delegation).Perm
      (verifiedRoutes protocol selecting authorization second delegation) :=
  perm.filter _

end

end HnsDaneEngine.NamedRoute
