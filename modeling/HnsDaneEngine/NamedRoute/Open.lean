import HnsDaneEngine.NamedRoute.Selection

/-!
# Opening a selected route

A selection is revalidated against the durable state, the resource and the platform floors
of the moment before the requester opens a circuit.  The trusted time of an attempt under the
current authorities is retained in the selection, also when the attempt fails later on.
-/

namespace HnsDaneEngine.NamedRoute

open Control Primitives

/-- Why a transport ends. -/
inductive HnsrTransportRevocationReason
  | explicit
  | authorityChanged
  | policyChanged

/-- A requester of the other package with the binding that admitted it. -/
structure HnsrRequesterRuntime (Requester : Type) where
  binding : HnsrTransportBinding
  requester : Requester
  revocationReason : Option HnsrTransportRevocationReason

/-- A peer under a binding. -/
structure AuthenticatedHnsrPeer (PeerId : Type) where
  binding : HnsrTransportBinding
  peerId : PeerId
  identity : Octets

/-- What a circuit is opened with. -/
structure CircuitRequest (PeerId RelayTicket : Type) where
  peerId : PeerId
  identity : Octets
  ticket : RelayTicket
  trustedNow : Nat
  deadline : Nat
  initialWindow : UInt32

/-- The functions of the requester, which belongs to another package. -/
structure HnsrRequester (Requester PeerId RelayTicket RuntimeError HnsrRoute : Type) where
  generation : Requester → Nat
  replaceEnabled : Requester → Nat → Bool → Except RuntimeError (List HnsrRoute) × Requester
  beginOpen : Requester → CircuitRequest PeerId RelayTicket →
    Except RuntimeError HnsrRoute × Requester

/-- The state still follows every object of the commitment. -/
def HnsaNamedRouteState.selectionIsCurrent (state : HnsaNamedRouteState)
    (commitment : HnsaSelectionCommitment) : Prop :=
  state.status = .active ∧ state.authorityDigest = commitment.authorityDigest ∧
    state.routeKey = commitment.routeKey ∧ state.authorization = some commitment.authorization ∧
    state.delegation? commitment.endpointKey = some commitment.delegation ∧
    state.route? commitment.endpointKey = some commitment.route

instance selectionIsCurrentDecidable (state : HnsaNamedRouteState)
    (commitment : HnsaSelectionCommitment) : Decidable (state.selectionIsCurrent commitment) :=
  inferInstanceAs (Decidable (_ ∧ _ ∧ _ ∧ _ ∧ _ ∧ _))

def compatibleRequesterBindings (candidate requester : HnsrTransportBinding) : Prop :=
  candidate.stamp.session = requester.stamp.session ∧
    candidate.stamp.generation = requester.stamp.generation ∧
    candidate.policyGeneration = requester.policyGeneration ∧
    candidate.network = requester.network ∧ candidate.networkMagic = requester.networkMagic ∧
    candidate.policyWireProfile = requester.policyWireProfile ∧
    candidate.resolvedWireProfile = requester.resolvedWireProfile ∧
    candidate.role = .requester ∧ requester.role = .requester ∧
    candidate.serviceProfile = requester.serviceProfile ∧
    candidate.allowPrivateAddress = requester.allowPrivateAddress

instance compatibleRequesterBindingsDecidable (candidate requester : HnsrTransportBinding) :
    Decidable (compatibleRequesterBindings candidate requester) :=
  inferInstanceAs (Decidable (_ ∧ _ ∧ _ ∧ _ ∧ _ ∧ _ ∧ _ ∧ _ ∧ _ ∧ _ ∧ _))

section

variable {Requester PeerId RelayTicket ProtocolError RuntimeError HnsrRoute : Type}
  {result : Except (HnsaRouteError ProtocolError RuntimeError) HnsrRoute}

/-- The selection after an attempt at a trusted time. -/
def SelectedHnsaNamedRoute.observing (selected : SelectedHnsaNamedRoute RelayTicket)
    (trustedNow : Nat) : SelectedHnsaNamedRoute RelayTicket :=
  { selected with candidate := { selected.candidate with trustedTimeHighWater := trustedNow } }

/-- The inputs of an attempt besides the engine, the state and the requester. -/
structure OpenRequest (PeerId : Type) where
  resource : VerifiedHnsResource
  context : HnsaNamedRouteContext
  relay : AuthenticatedHnsrPeer PeerId
  ticketIndex : Nat
  trustedNow : Nat
  deadline : Nat
  initialWindow : UInt32

/-- The comparisons that come before the time of the attempt is retained. -/
def checkAuthorities (candidate : VerifiedHnsaNamedRouteCandidate RelayTicket)
    (request : OpenRequest PeerId) : Except (HnsaRouteError ProtocolError RuntimeError) Unit :=
  if candidate.context.resourceGeneration ≠ request.context.resourceGeneration then
    .error .resourceGenerationChanged
  else if candidate.context.profilePolicyGeneration ≠ request.context.profilePolicyGeneration ∨
      candidate.context.policy ≠ request.context.policy then
    .error .profilePolicyChanged
  else if ¬ candidate.isBoundToResource request.resource then .error .resourceBindingChanged
  else if request.trustedNow < candidate.trustedTimeHighWater ∨
      request.trustedNow < request.context.trustedTimeHighWater then
    .error .trustedClockRollback
  else .ok ()

/-- The checks that come after it; the ticket is for the requester. -/
def checkSelected (selected : SelectedHnsaNamedRoute RelayTicket) (state : HnsaNamedRouteState)
    (request : OpenRequest PeerId) (requester : HnsrTransportBinding) :
    Except (HnsaRouteError ProtocolError RuntimeError) RelayTicket :=
  if state.resourceGeneration ≠ request.context.resourceGeneration ∨
      ¬ state.selectionIsCurrent selected.commitment then
    .error .selectedRouteStateChanged
  else if request.trustedNow < selected.candidate.validFrom ∨
      selected.candidate.validUntil ≤ request.trustedNow then
    .error .routeNotCurrent
  else if selected.candidate.validUntil ≤ request.deadline then .error .openDeadlineBeyondRoute
  else if ¬ compatibleRequesterBindings selected.candidate.binding requester then
    .error .requesterBindingMismatch
  else
    match selected.candidate.record.tickets[request.ticketIndex]? with
    | none => .error .ticketIndexOutOfRange
    | some ticket => .ok ticket

def revocationReasonForError :
    HnsrTransportError RuntimeError → HnsrTransportRevocationReason
  | .policyGenerationChanged => .policyChanged
  | .unsupportedWireProfile => .policyChanged
  | .roleDisabled _ => .policyChanged
  | .forbiddenProviderRoles => .policyChanged
  | _ => .authorityChanged

variable (circuits : HnsrRequester Requester PeerId RelayTicket RuntimeError HnsrRoute)

/-- The requester is disabled under the reason, also when it refuses to be. -/
def revokeFor (runtime : HnsrRequesterRuntime Requester)
    (reason : HnsrTransportRevocationReason) : HnsrRequesterRuntime Requester :=
  { runtime with
    revocationReason := some reason
    requester := (circuits.replaceEnabled runtime.requester
      (circuits.generation runtime.requester) false).2 }

def beginHnsrOpenWithAuthorityBinding (networkMagic : Resolver.Network → UInt32) (engine : Engine)
    (authorityBinding : HnsrTransportBinding) (request : OpenRequest PeerId)
    (ticket : RelayTicket) :
    Effect (HnsrRequesterRuntime Requester) (HnsrTransportError RuntimeError) HnsrRoute :=
  fun runtime =>
    match engine.validateHnsrTransportBinding networkMagic authorityBinding with
    | .error error => (.error error, runtime)
    | .ok () =>
      if runtime.revocationReason.isSome then (.error .bindingRevoked, runtime)
      else
        match engine.validateHnsrTransportBinding networkMagic runtime.binding with
        | .error error =>
          (.error error, revokeFor circuits runtime (revocationReasonForError error))
        | .ok () =>
          if request.relay.binding ≠ runtime.binding then
            (.error .peerBindingMismatch, runtime)
          else
            let (result, requester) := circuits.beginOpen runtime.requester
              ⟨request.relay.peerId, request.relay.identity, ticket, request.trustedNow,
                request.deadline, request.initialWindow⟩
            (result.mapError .runtime, { runtime with requester })

/-- The selection and the requester, which an attempt changes. -/
structure Opening (RelayTicket Requester : Type) where
  selected : SelectedHnsaNamedRoute RelayTicket
  runtime : HnsrRequesterRuntime Requester

def beginHnsaNamedRouteOpen (networkMagic : Resolver.Network → UInt32) (engine : Engine)
    (state : HnsaNamedRouteState) (request : OpenRequest PeerId) :
    Effect (Opening RelayTicket Requester) (HnsaRouteError ProtocolError RuntimeError)
      HnsrRoute :=
  fun ⟨selected, runtime⟩ =>
    match checkAuthorities selected.candidate request with
    | .error error => (.error error, ⟨selected, runtime⟩)
    | .ok () =>
      let observed := selected.observing request.trustedNow
      match checkSelected observed state request runtime.binding with
      | .error error => (.error error, ⟨observed, runtime⟩)
      | .ok ticket =>
        let (result, runtime) := beginHnsrOpenWithAuthorityBinding circuits networkMagic engine
          observed.candidate.binding request ticket runtime
        (result.mapError .transport, ⟨observed, runtime⟩)

variable {circuits}

variable {state : HnsaNamedRouteState} {request : OpenRequest PeerId}
  {selected : SelectedHnsaNamedRoute RelayTicket}
  {candidate : VerifiedHnsaNamedRouteCandidate RelayTicket} {requester : HnsrTransportBinding}

/-- An attempt is refused before its time is retained, refused after that, or left to the
requester. -/
theorem beginHnsaNamedRouteOpen_cases {networkMagic : Resolver.Network → UInt32} {engine : Engine}
    {runtime : HnsrRequesterRuntime Requester} {final : Opening RelayTicket Requester}
    (run : beginHnsaNamedRouteOpen circuits networkMagic engine state request
      ⟨selected, runtime⟩ = (result, final)) :
    (∃ error, checkAuthorities selected.candidate request = .error error ∧
      result = .error error ∧ final.selected = selected) ∨
    ((checkAuthorities selected.candidate request :
        Except (HnsaRouteError ProtocolError RuntimeError) Unit) = .ok () ∧
      final.selected = selected.observing request.trustedNow ∧
      ((∃ error, checkSelected (selected.observing request.trustedNow) state request
          runtime.binding = .error error ∧ result = .error error) ∨
        ∃ ticket, (checkSelected (selected.observing request.trustedNow) state request
            runtime.binding : Except (HnsaRouteError ProtocolError RuntimeError) _) = .ok ticket ∧
          ∀ error, result = .error error → ∃ transport, error = .transport transport)) := by
  rw [beginHnsaNamedRouteOpen] at run
  cases checked : (checkAuthorities selected.candidate request :
      Except (HnsaRouteError ProtocolError RuntimeError) Unit) with
  | error error =>
    rw [checked] at run
    cases run
    exact .inl ⟨error, rfl, rfl, rfl⟩
  | ok value =>
    right
    rw [checked] at run
    simp only at run
    cases revalidated : (checkSelected (selected.observing request.trustedNow) state request
        runtime.binding : Except (HnsaRouteError ProtocolError RuntimeError) _) with
    | error error =>
      rw [revalidated] at run
      cases run
      exact ⟨rfl, rfl, .inl ⟨error, rfl, rfl⟩⟩
    | ok ticket =>
      rw [revalidated] at run
      cases run
      refine ⟨rfl, rfl, .inr ⟨ticket, rfl, ?_⟩⟩
      intro error failed
      cases outcome : (beginHnsrOpenWithAuthorityBinding circuits networkMagic engine
          (selected.observing request.trustedNow).candidate.binding request ticket runtime).1 with
      | error transport =>
        rw [outcome] at failed
        cases failed
        exact ⟨transport, rfl⟩
      | ok route =>
        rw [outcome] at failed
        cases failed

/-- The resource and the floors of the selection are those of the attempt. -/
structure CurrentAuthorities (candidate : VerifiedHnsaNamedRouteCandidate RelayTicket)
    (request : OpenRequest PeerId) : Prop where
  resourceGeneration : candidate.context.resourceGeneration = request.context.resourceGeneration
  profilePolicyGeneration :
    candidate.context.profilePolicyGeneration = request.context.profilePolicyGeneration
  policy : candidate.context.policy = request.context.policy
  resource : candidate.isBoundToResource request.resource

theorem checkAuthorities_eq_ok_iff :
    (checkAuthorities candidate request :
      Except (HnsaRouteError ProtocolError RuntimeError) Unit) = .ok () ↔
      CurrentAuthorities candidate request ∧ candidate.trustedTimeHighWater ≤ request.trustedNow ∧
        request.context.trustedTimeHighWater ≤ request.trustedNow := by
  simp only [checkAuthorities, guard_eq_ok_iff, not_or, not_not, not_lt, and_true]
  constructor
  · rintro ⟨resourceGeneration, ⟨profilePolicyGeneration, policy⟩, resource, times⟩
    exact ⟨⟨resourceGeneration, profilePolicyGeneration, policy, resource⟩, times⟩
  · rintro ⟨⟨resourceGeneration, profilePolicyGeneration, policy, resource⟩, times⟩
    exact ⟨resourceGeneration, ⟨profilePolicyGeneration, policy⟩, resource, times⟩

theorem ne_of_resourceGenerationChanged
    (refused : (checkAuthorities candidate request :
      Except (HnsaRouteError ProtocolError RuntimeError) Unit) =
      .error .resourceGenerationChanged) :
    candidate.context.resourceGeneration ≠ request.context.resourceGeneration := by
  unfold checkAuthorities at refused
  split at refused
  next other => exact other
  next => split_ifs at refused <;> cases refused

theorem checkAuthorities_ne_selectedRouteStateChanged :
    (checkAuthorities candidate request :
      Except (HnsaRouteError ProtocolError RuntimeError) Unit) ≠
      .error .selectedRouteStateChanged := by
  unfold checkAuthorities
  split_ifs <;> simp

theorem not_current_of_selectedRouteStateChanged
    (refused : (checkSelected selected state request requester :
      Except (HnsaRouteError ProtocolError RuntimeError) _) = .error .selectedRouteStateChanged) :
    ¬ (state.resourceGeneration = request.context.resourceGeneration ∧
      state.selectionIsCurrent selected.commitment) := by
  rintro ⟨same, current⟩
  have notOutdated : ¬ (state.resourceGeneration ≠ request.context.resourceGeneration ∨
      ¬ state.selectionIsCurrent selected.commitment) := by
    rintro (other | notCurrent)
    · exact other same
    · exact notCurrent current
  rw [checkSelected, if_neg notOutdated] at refused
  cases found : selected.candidate.record.tickets[request.ticketIndex]? with
  | none =>
    rw [found] at refused
    split_ifs at refused <;> cases refused
  | some ticket =>
    rw [found] at refused
    split_ifs at refused <;> cases refused

theorem checkSelected_ne_resourceGenerationChanged :
    (checkSelected selected state request requester :
      Except (HnsaRouteError ProtocolError RuntimeError) _) ≠
      .error .resourceGenerationChanged := by
  unfold checkSelected
  cases selected.candidate.record.tickets[request.ticketIndex]? with
  | none => split_ifs <;> simp
  | some ticket => split_ifs <;> simp

/-- The route may be used now, and the circuit ends before it does. -/
structure Timely (candidate : VerifiedHnsaNamedRouteCandidate RelayTicket)
    (request : OpenRequest PeerId) : Prop where
  anchor_validated : candidate.anchor.validatedAt ≤ request.trustedNow
  route_issued : candidate.record.issuedAt ≤ request.trustedNow
  anchor_valid : request.trustedNow < candidate.anchor.validUntil
  route_valid : request.trustedNow < candidate.record.expiresAt
  anchor_deadline : request.deadline < candidate.anchor.validUntil
  route_deadline : request.deadline < candidate.record.expiresAt

theorem validFrom_le_iff {time : Nat} :
    candidate.validFrom ≤ time ↔
      candidate.anchor.validatedAt ≤ time ∧ candidate.record.issuedAt ≤ time := by
  unfold VerifiedHnsaNamedRouteCandidate.validFrom
  split_ifs <;> omega

theorem lt_validUntil_iff {time : Nat} :
    time < candidate.validUntil ↔
      time < candidate.anchor.validUntil ∧ time < candidate.record.expiresAt := by
  unfold VerifiedHnsaNamedRouteCandidate.validUntil
  split_ifs <;> omega

theorem timely_of_checkSelected {ticket : RelayTicket}
    (accepted : (checkSelected selected state request requester :
      Except (HnsaRouteError ProtocolError RuntimeError) _) = .ok ticket) :
    (state.resourceGeneration = request.context.resourceGeneration ∧
      state.selectionIsCurrent selected.commitment) ∧ Timely selected.candidate request := by
  simp only [checkSelected, guard_eq_ok_iff, not_or, not_not, not_lt, not_le] at accepted
  rcases accepted with ⟨current, ⟨from_le, now_lt⟩, deadline_lt, -, -⟩
  rw [validFrom_le_iff] at from_le
  rw [lt_validUntil_iff] at now_lt deadline_lt
  exact ⟨current, from_le.1, from_le.2, now_lt.1, now_lt.2, deadline_lt.1, deadline_lt.2⟩

section

variable {networkMagic : Resolver.Network → UInt32} {engine : Engine}
  {runtime : HnsrRequesterRuntime Requester} {final : Opening RelayTicket Requester}

/-- What an attempt can do to the selection. -/
theorem observed_of_attempt
    (run : beginHnsaNamedRouteOpen circuits networkMagic engine state request
      ⟨selected, runtime⟩ = (result, final)) :
    (final.selected = selected ∧ ¬ (CurrentAuthorities selected.candidate request ∧
        selected.candidate.trustedTimeHighWater ≤ request.trustedNow ∧
        request.context.trustedTimeHighWater ≤ request.trustedNow)) ∨
      (final.selected = selected.observing request.trustedNow ∧
        selected.candidate.trustedTimeHighWater ≤ request.trustedNow) := by
  rcases beginHnsaNamedRouteOpen_cases run with ⟨error, checked, -, same⟩ | ⟨checked, observed, -⟩
  · left
    constructor
    · exact same
    · intro accepted
      rw [checkAuthorities_eq_ok_iff.mpr accepted] at checked
      cases checked
  · exact .inr ⟨observed, (checkAuthorities_eq_ok_iff.mp checked).2.1⟩

theorem opened_of_attempt {route : HnsrRoute}
    (run : beginHnsaNamedRouteOpen circuits networkMagic engine state request
      ⟨selected, runtime⟩ =
        ((.ok route : Except (HnsaRouteError ProtocolError RuntimeError) HnsrRoute), final)) :
    CurrentAuthorities selected.candidate request ∧
      selected.candidate.trustedTimeHighWater ≤ request.trustedNow ∧
      request.context.trustedTimeHighWater ≤ request.trustedNow ∧
      (state.resourceGeneration = request.context.resourceGeneration ∧
        state.selectionIsCurrent selected.commitment) ∧
      Timely selected.candidate request := by
  rcases beginHnsaNamedRouteOpen_cases run with ⟨error, -, failed, -⟩ | ⟨checked, -, ended⟩
  · cases failed
  rcases checkAuthorities_eq_ok_iff.mp checked with ⟨authorities, highWater, floor⟩
  rcases ended with ⟨error, -, failed⟩ | ⟨ticket, accepted, -⟩
  · cases failed
  · rcases timely_of_checkSelected accepted with ⟨current, timely⟩
    exact ⟨authorities, highWater, floor, current, ⟨timely.1, timely.2, timely.3, timely.4,
      timely.5, timely.6⟩⟩

theorem outdated_of_attempt
    (run : beginHnsaNamedRouteOpen circuits networkMagic engine state request
      ⟨selected, runtime⟩ =
        ((.error .selectedRouteStateChanged :
          Except (HnsaRouteError ProtocolError RuntimeError) HnsrRoute), final)) :
    ¬ (state.resourceGeneration = selected.candidate.context.resourceGeneration ∧
      state.selectionIsCurrent selected.commitment) := by
  rcases beginHnsaNamedRouteOpen_cases run with ⟨error, checked, failed, -⟩ | ⟨checked, -, ended⟩
  · cases failed
    exact absurd checked checkAuthorities_ne_selectedRouteStateChanged
  · rw [(checkAuthorities_eq_ok_iff.mp checked).1.resourceGeneration]
    rcases ended with ⟨error, refused, failed⟩ | ⟨ticket, -, transports⟩
    · cases failed
      exact not_current_of_selectedRouteStateChanged refused
    · rcases transports _ rfl with ⟨transport, ⟨⟩⟩

theorem generation_ne_of_attempt
    (run : beginHnsaNamedRouteOpen circuits networkMagic engine state request
      ⟨selected, runtime⟩ =
        ((.error .resourceGenerationChanged :
          Except (HnsaRouteError ProtocolError RuntimeError) HnsrRoute), final)) :
    selected.candidate.context.resourceGeneration ≠ request.context.resourceGeneration := by
  rcases beginHnsaNamedRouteOpen_cases run with ⟨error, checked, failed, -⟩ | ⟨-, -, ended⟩
  · cases failed
    exact ne_of_resourceGenerationChanged checked
  · rcases ended with ⟨error, refused, failed⟩ | ⟨ticket, -, transports⟩
    · cases failed
      exact absurd refused checkSelected_ne_resourceGenerationChanged
    · rcases transports _ rfl with ⟨transport, ⟨⟩⟩

end

end

end HnsDaneEngine.NamedRoute
