import HnsDaneEngine.Engine.Calls
import HnsDaneEngine.Engine.Currency

/-!
# What a failed call leaves behind

A call that fails leaves the authority of the engine alone.  The one exception is a
binding whose transition takes the last but one event, so that none is left for the
stamp.
-/

namespace HnsDaneEngine.Engine

open Browser.Runtime Control NamespaceResolution Policy Primitives

variable {crypto : LocalCrypto}

/-- Only the event sequence has grown. -/
structure AuthorityKept (before after : EngineState) : Prop where
  session_eq : after.runtime.session = before.runtime.session
  invalidation_eq : after.runtime.invalidationSequence = before.runtime.invalidationSequence
  network_eq : after.network = before.network
  authorityState_eq : after.runtime.authorityState = before.runtime.authorityState
  generation_eq : after.runtime.generation = before.runtime.generation
  policy_eq : after.policy.snapshot = before.policy.snapshot
  provenance_eq : after.lastProvenance = before.lastProvenance
  evidence_eq : after.lastEvidence = before.lastEvidence
  sequence_le : before.runtime.eventSequence ≤ after.runtime.eventSequence

namespace AuthorityKept

theorem refl (state : EngineState) : AuthorityKept state state :=
  ⟨rfl, rfl, rfl, rfl, rfl, rfl, rfl, rfl, Nat.le_refl _⟩

theorem trans {first second third : EngineState} (earlier : AuthorityKept first second)
    (later : AuthorityKept second third) : AuthorityKept first third where
  session_eq := later.session_eq.trans earlier.session_eq
  invalidation_eq := later.invalidation_eq.trans earlier.invalidation_eq
  network_eq := later.network_eq.trans earlier.network_eq
  authorityState_eq := later.authorityState_eq.trans earlier.authorityState_eq
  generation_eq := later.generation_eq.trans earlier.generation_eq
  policy_eq := later.policy_eq.trans earlier.policy_eq
  provenance_eq := later.provenance_eq.trans earlier.provenance_eq
  evidence_eq := later.evidence_eq.trans earlier.evidence_eq
  sequence_le := earlier.sequence_le.trans later.sequence_le

variable {α : Type}

/-- A call that leaves the state alone. -/
theorem of_same {call : EngineM α} (same : ∀ state, (call state).2 = state) :
    call.Steps AuthorityKept :=
  Effect.Steps.of_same refl same

theorem admitEvent : Engine.admitEvent.Steps AuthorityKept := by
  intro state
  rcases admitEvent_cases state with ⟨error, refused, -⟩ | ⟨-, -, returned⟩
  · rw [refused]
    exact refl state
  · rw [returned]
    exact ⟨rfl, rfl, rfl, rfl, rfl, rfl, rfl, rfl, Nat.le_succ _⟩

theorem transition (next : AuthorityState) :
    (Engine.transition next).FailsWithin AuthorityKept := by
  intro state error final run
  rcases transition_cases next state with ⟨reason, refused, -⟩ | ⟨-, -, snapshot, returned⟩
  · rw [refused] at run
    cases run
    exact refl state
  · rw [returned] at run
    cases run

/-- A guard in front of a call. -/
theorem guard {condition : Prop} [Decidable condition] {error : EngineError} {call : EngineM α}
    (steps : call.Steps AuthorityKept) :
    (if condition then Effect.throw error else call : EngineM α).Steps AuthorityKept :=
  .ite (of_same fun _ => rfl) steps

theorem bind {α β : Type} {first : EngineM α} {next : α → EngineM β}
    (firstSteps : first.Steps AuthorityKept)
    (nextSteps : ∀ value, (next value).Steps AuthorityKept) :
    (first >>= next : EngineM β).Steps AuthorityKept :=
  @Effect.Steps.bind _ _ _ _ _ _ AuthorityKept @trans firstSteps nextSteps

/-- Before a call that may fail in its last part. -/
theorem bindFails {β : Type} {first : EngineM α} {next : α → EngineM β}
    (firstSteps : first.Steps AuthorityKept)
    (nextFails : ∀ value, (next value).FailsWithin AuthorityKept) :
    (first >>= next : EngineM β).FailsWithin AuthorityKept :=
  @Effect.FailsWithin.bind_steps _ _ _ _ AuthorityKept @trans _ _ firstSteps nextFails

/-- A check in front of a call. -/
theorem check {β : Type} {result : Except EngineError α} {next : α → EngineM β}
    (steps : ∀ value, (next value).Steps AuthorityKept) :
    (Effect.ofExcept result >>= next : EngineM β).Steps AuthorityKept :=
  bind (of_same fun _ => rfl) steps

theorem get {next : EngineState → EngineM α} (steps : ∀ state, (next state).Steps AuthorityKept) :
    (Effect.get >>= next : EngineM α).Steps AuthorityKept :=
  bind (of_same fun _ => rfl) steps

/-- An event whose stamp the rest only reads. -/
theorem stamped {next : RuntimeStamp → EngineM α}
    (same : ∀ stamp state, (next stamp state).2 = state) :
    (Engine.admitEvent >>= next : EngineM α).Steps AuthorityKept :=
  bind admitEvent fun stamp => of_same (same stamp)

end AuthorityKept

open AuthorityKept (of_same guard check stamped)

/-! ## Calls that only admit events -/

theorem admitResolution_keeps (transport : ResolutionTransport) (query : Wire.Query) :
    (admitResolution transport query).Steps AuthorityKept :=
  AuthorityKept.get fun _ => guard (check fun _ => stamped fun _ _ => rfl)

theorem admitGatewaySelection_keeps (selection : Transport.GatewaySelection) (query : Wire.Query)
    (limits : Wire.ParseLimits) :
    (admitGatewaySelection selection query limits).Steps AuthorityKept :=
  check fun _ => check fun _ => check fun _ => AuthorityKept.get fun _ => guard (guard (check fun _ =>
    stamped fun _ _ => rfl))

theorem parseResponse_keeps (attempt : ResolutionAttempt) (response : Octets)
    (limits : Wire.ParseLimits) : (parseResponse attempt response limits).Steps AuthorityKept :=
  AuthorityKept.get fun _ => check fun _ => check fun _ => check fun _ => of_same fun _ => rfl

theorem beginIcannBinding_keeps (decision : NamespaceDecision) (now : Nat) :
    (beginIcannBinding crypto decision now).Steps AuthorityKept :=
  check fun _ => AuthorityKept.get fun _ => guard (stamped fun _ _ => rfl)

theorem finishIcannBinding_keeps (decision : NamespaceDecision)
    (request : IcannOriginAuthenticationRequest)
    (authentication? : Option IcannOriginAuthentication) (now : Nat) :
    (finishIcannBinding crypto decision request authentication? now).Steps AuthorityKept :=
  check fun _ => AuthorityKept.get fun _ => guard (stamped fun _ _ => rfl)

/-! ## Calls that end with a transition -/

theorem forgetEvidence_never (next : AuthorityState) : (forgetEvidence next).NeverFails := by
  rintro state error final run
  cases next <;> cases run

theorem advanceAuthorityState_fails (next : AuthorityState) :
    (advanceAuthorityState next).FailsWithin AuthorityKept :=
  .bind_never (AuthorityKept.transition next) fun _ =>
    .bind (forgetEvidence_never next) fun _ => .bind .get fun _ => .pure _

theorem transitionOrAdmit_fails (start next : AuthorityState) :
    (transitionOrAdmit start next).FailsWithin AuthorityKept := by
  refine AuthorityKept.bindFails (of_same fun _ => rfl) fun state => .ite ?_ ?_
  · exact .bind_never (AuthorityKept.transition next) fun _ => .pure _
  · exact .of_steps (stamped fun _ _ => rfl)

theorem authorizeBrowserBridge_fails (completion : DaneCompletion) (now : Nat) :
    (authorizeBrowserBridge completion now).FailsWithin AuthorityKept := by
  refine AuthorityKept.bindFails (of_same fun _ => rfl) fun grant => ?_
  refine AuthorityKept.bindFails (of_same fun _ => rfl) fun before => ?_
  refine .ite (.of_steps (of_same fun _ => rfl)) (.ite (.of_steps (of_same fun _ => rfl)) ?_)
  exact .bind_never (transitionOrAdmit_fails _ _) fun _ => .bind .get fun _ => .pure _

/-- After its transition the completion of a verified resolution cannot fail. -/
theorem completeResolution_fails (attempt : ResolutionAttempt) (response : ParsedResponse)
    {evidence : ValidationEvidence} (verified : evidence.fullyVerified = true)
    (context : CompletionContext) :
    (completeResolution attempt response evidence context).FailsWithin AuthorityKept := by
  refine AuthorityKept.bindFails (of_same fun _ => rfl) fun _ => ?_
  refine AuthorityKept.bindFails (of_same fun _ => rfl) fun state => ?_
  refine AuthorityKept.bindFails (of_same fun _ => rfl) fun _ => ?_
  refine .ite (.of_steps (of_same fun _ => rfl)) ?_
  refine .bind_never (transitionOrAdmit_fails _ _) fun _ => .bind .get fun after => ?_
  refine .bind ?_ fun _ => .bind (.modify _) fun _ => .pure _
  rintro middle error final run
  simp [Effect.ofExcept, ResolutionProvenance.requireVerifiedHnsHttps, verified,
    Except.mapError] at run

theorem completeResolutionWithLocalDane_fails (attempt : ResolutionAttempt)
    (response : ParsedResponse) (prerequisites : LocalDanePrerequisites)
    (certificate : Octets) (limits : DaneLimits) (context : CompletionContext) :
    (completeResolutionWithLocalDane crypto attempt response prerequisites certificate limits
      context).FailsWithin AuthorityKept := by
  unfold completeResolutionWithLocalDane
  refine .ite (.of_steps (of_same fun _ => rfl)) (.ite (.of_steps (of_same fun _ => rfl))
    (.ite (.of_steps (of_same fun _ => rfl)) ?_))
  by_cases verified : prerequisites.fullyVerified = true
  · simp only [verified, Bool.not_true, Bool.false_eq_true, if_false]
    refine AuthorityKept.bindFails (of_same fun _ => rfl) fun daneMatch => ?_
    refine .bind_never (completeResolution_fails attempt response ?_ context) fun _ => .pure _
    rw [LocalDanePrerequisites.fullyVerified, beq_iff_eq] at verified
    rw [verified]
    rfl
  · simp only [verified, Bool.not_false, if_true]
    exact .of_steps (of_same fun _ => rfl)

theorem completeResolutionWithValidatedTlsa_fails (attempt : ResolutionAttempt)
    (response : ParsedResponse) (input : ValidatedDaneInput) (context : CompletionContext) :
    (completeResolutionWithValidatedTlsa crypto attempt response input context).FailsWithin
      AuthorityKept := by
  refine AuthorityKept.bindFails (of_same fun _ => rfl) fun state => ?_
  refine AuthorityKept.bindFails (of_same fun _ => rfl) fun authority => ?_
  refine AuthorityKept.bindFails (of_same fun _ => rfl) fun daneMatch => ?_
  refine .ite (.of_steps (of_same fun _ => rfl)) ?_
  exact .bind_never (completeResolution_fails attempt response rfl _) fun _ => .pure _

/-- A replacement changes nothing, or it changes the configuration. -/
theorem replace_eq_ok {controller policy : PolicyController} {expected : Nat} {next : PolicyConfig}
    {change : PolicyTransition}
    (replaced : controller.replace expected next = .ok (change, policy)) :
    change.changed = false ∧ policy = controller ∨
      change.changed = true ∧ controller.snapshot.config ≠ next := by
  unfold PolicyController.replace at replaced
  rw [guard_eq_ok_iff] at replaced
  rcases replaced with ⟨-, replaced⟩
  split at replaced
  next valid =>
    by_cases same : controller.snapshot.config = next
    · rw [if_pos same] at replaced
      cases replaced
      exact .inl ⟨rfl, rfl⟩
    rw [if_neg same] at replaced
    split at replaced
    next =>
      cases replaced
      exact .inr ⟨rfl, same⟩
    next => cases replaced
  next => cases replaced

variable {state : EngineState}

theorem ensurePolicyChangeCapacity_of_changed {next : PolicyConfig}
    (room : ensurePolicyCapacity state next = .ok ())
    (changed : state.policy.snapshot.config ≠ next) :
    state.runtime.ensurePolicyChangeCapacity = .ok () := by
  rw [ensurePolicyCapacity, if_pos changed] at room
  cases capacity : state.runtime.ensurePolicyChangeCapacity with
  | error error =>
    rw [capacity] at room
    cases room
  | ok => rfl

/-- With room in its counters the runtime takes a policy change. -/
theorem policyChanged_eq_ok {state : EngineState}
    (room : state.runtime.ensurePolicyChangeCapacity = .ok ()) :
    ∃ snapshot runtime, policyChanged state = (.ok snapshot, { state with runtime }) ∧
      runtime.invalidationSequence = state.runtime.eventSequence + 1 ∧
      runtime.eventSequence = state.runtime.eventSequence + 1 ∧
      runtime.session = state.runtime.session := by
  have called := show state.runtime.policyChanged = (.ok _, _) by
    rw [BrowserRuntime.policyChanged, room]
  exact ⟨_, _, onRuntime_ok called, rfl, rfl, rfl⟩

/-- A policy is replaced with the runtime, or nothing changes. -/
theorem updatePolicy_cases (expected : Nat) (next : PolicyConfig) (state : EngineState) :
    (∃ error, updatePolicy expected next state = (.error error, state)) ∨
      (∃ change, change.changed = false ∧ updatePolicy expected next state = (.ok change, state)) ∨
      ∃ change runtime policy, change.changed = true ∧ updatePolicy expected next state =
          (.ok change, ⟨runtime, state.network, policy, none, .revoked⟩) ∧
        runtime.invalidationSequence = state.runtime.eventSequence + 1 ∧
        runtime.eventSequence = state.runtime.eventSequence + 1 ∧
        runtime.session = state.runtime.session := by
  unfold updatePolicy
  rw [Effect.get_bind]
  cases capacity : ensurePolicyCapacity state next with
  | error error => exact .inl ⟨error, rfl⟩
  | ok room =>
    rw [Effect.ofExcept_ok_bind]
    cases replaced : state.policy.replace expected next with
    | error error => exact .inl ⟨.policy error, rfl⟩
    | ok replacement =>
      rcases replacement with ⟨change, policy⟩
      rcases replace_eq_ok replaced with ⟨unchanged, rfl⟩ | ⟨changed, differs⟩
      · refine .inr (.inl ⟨change, unchanged, ?_⟩)
        change (if change.changed = true then _ else _ : EngineM PolicyTransition) state = _
        rw [if_neg (by rw [unchanged]; exact Bool.false_ne_true)]
        rfl
      have capable := ensurePolicyChangeCapacity_of_changed capacity differs
      have called : ∃ snapshot runtime, policyChanged { state with policy } =
          (.ok snapshot, ⟨runtime, state.network, policy, state.lastProvenance,
            state.lastEvidence⟩) ∧
          runtime.invalidationSequence = state.runtime.eventSequence + 1 ∧
          runtime.eventSequence = state.runtime.eventSequence + 1 ∧
          runtime.session = state.runtime.session :=
        @policyChanged_eq_ok { state with policy } capable
      rcases called with ⟨snapshot, runtime, called, counters⟩
      refine .inr (.inr ⟨change, runtime, policy, changed, ?_, counters⟩)
      change (if change.changed = true then _ else _ : EngineM PolicyTransition)
        { state with policy } = _
      rw [if_pos changed, Effect.bind_ok called]
      rfl

theorem updatePolicy_fails (expected : Nat) (next : PolicyConfig) :
    (updatePolicy expected next).FailsWithin AuthorityKept := by
  intro state error final run
  rcases updatePolicy_cases expected next state with
    ⟨reason, refused⟩ | ⟨change, -, returned⟩ | ⟨change, runtime, policy, -, returned, -⟩
  · rw [refused] at run
    cases run
    exact .refl state
  · rw [returned] at run
    cases run
  · rw [returned] at run
    cases run

/-! ## Binding an HNS decision -/

/-- All that `bind_hns_origin_context` asks before it changes the runtime. -/
structure Bindable (state : EngineState) (decision : NamespaceDecision)
    (completion : DaneCompletion) (binding : BridgeBinding) (now : Nat) : Prop where
  origin_eq : completion.originSni = some binding.origin
  port_eq : completion.bridgeServicePort = some binding.servicePort
  records_eq : completion.bridgeTlsaRecords = some binding.records
  validFrom_eq : completion.bridgeValidFrom = some binding.validFrom
  validUntil_eq : completion.bridgeValidUntil = some binding.validUntil
  validFrom_le : binding.validFrom ≤ now
  le_validUntil : now ≤ binding.validUntil
  agrees : bindingAgrees decision completion binding now = true
  network : networkMatches state.network decision.hnsNetwork = true
  ready : state.runtime.authorityState ∈
    [AuthorityState.daneOriginVerified, .browserBridgeReady, .active]
  current : completionIsCurrent state completion = true

theorem bridgeBinding_eq_ok_iff {completion : DaneCompletion} {binding : BridgeBinding}
    {now : Nat} :
    bridgeBinding completion now = .ok binding ↔ completion.originSni = some binding.origin ∧
        completion.bridgeServicePort = some binding.servicePort ∧
        completion.bridgeTlsaRecords = some binding.records ∧
        completion.bridgeValidFrom = some binding.validFrom ∧
        completion.bridgeValidUntil = some binding.validUntil ∧
        binding.validFrom ≤ now ∧ now ≤ binding.validUntil := by
  rcases binding with ⟨origin, servicePort, records, validFrom, validUntil⟩
  unfold bridgeBinding
  cases completion.originSni with
  | none => simp
  | some origin =>
    cases completion.bridgeServicePort with
    | none => simp
    | some servicePort =>
      cases completion.bridgeTlsaRecords with
      | none => simp
      | some records =>
        cases completion.bridgeValidFrom with
        | none => simp
        | some validFrom =>
          cases completion.bridgeValidUntil with
          | none => simp
          | some validUntil =>
            dsimp only
            rw [guard_eq_ok_iff, guard_eq_ok_iff, Nat.not_lt, Nat.not_lt]
            simp only [Except.ok.injEq, BridgeBinding.mk.injEq, Option.some.injEq]
            constructor
            · rintro ⟨validFrom_le, le_validUntil, rfl, rfl, rfl, rfl, rfl⟩
              exact ⟨rfl, rfl, rfl, rfl, rfl, validFrom_le, le_validUntil⟩
            · rintro ⟨rfl, rfl, rfl, rfl, rfl, validFrom_le, le_validUntil⟩
              exact ⟨validFrom_le, le_validUntil, rfl, rfl, rfl, rfl, rfl⟩

/-- The part of the binding that changes the runtime. -/
def bindRuntime (crypto : LocalCrypto) (decision : NamespaceDecision) (binding : BridgeBinding) :
    EngineM AuthenticatedOriginContext := do
  readyBridge
  let contextStamp ← admitEvent
  let state ← Effect.get
  return stampOriginContext crypto state decision .hnsDaneVerified binding.validFrom
    (min decision.expiresAtUnix (saturatingAdd binding.validUntil 1)) (some contextStamp)

/-- A binding is refused without a change, or it comes to the runtime. -/
theorem bindHnsOriginContext_cases (crypto : LocalCrypto) (decision : NamespaceDecision)
    (completion : DaneCompletion) (now : Nat) (state : EngineState) :
    (∃ error, bindHnsOriginContext crypto decision completion now state = (.error error, state) ∧
        ∀ binding, ¬Bindable state decision completion binding now) ∨
      ∃ binding, Bindable state decision completion binding now ∧
        bindHnsOriginContext crypto decision completion now state =
          bindRuntime crypto decision binding state := by
  unfold bindHnsOriginContext
  cases binding_eq : bridgeBinding completion now with
  | error error =>
    refine .inl ⟨error, rfl, fun binding bindable => ?_⟩
    have bound := bridgeBinding_eq_ok_iff.mpr ⟨bindable.origin_eq, bindable.port_eq,
      bindable.records_eq, bindable.validFrom_eq, bindable.validUntil_eq, bindable.validFrom_le,
      bindable.le_validUntil⟩
    rw [binding_eq] at bound
    cases bound
  | ok binding =>
    rw [Effect.ofExcept_ok_bind]
    rcases bridgeBinding_eq_ok_iff.mp binding_eq with ⟨origin_eq, port_eq, records_eq,
      validFrom_eq, validUntil_eq, validFrom_le, le_validUntil⟩
    have unique : ∀ other, Bindable state decision completion other now → other = binding := by
      intro other bindable
      have bound := bridgeBinding_eq_ok_iff.mpr ⟨bindable.origin_eq, bindable.port_eq,
        bindable.records_eq, bindable.validFrom_eq, bindable.validUntil_eq,
        bindable.validFrom_le, bindable.le_validUntil⟩
      rw [binding_eq] at bound
      exact (Except.ok.inj bound).symm
    cases agrees : bindingAgrees decision completion binding now with
    | false =>
      refine .inl ⟨_, rfl, fun other bindable => ?_⟩
      have agreed := bindable.agrees
      rw [unique other bindable, agrees] at agreed
      cases agreed
    | true =>
      rw [if_neg Bool.true_eq_false.mp, Effect.get_bind]
      by_cases wrong : networkMatches state.network decision.hnsNetwork = false ∨
          state.runtime.authorityState ∉
            [AuthorityState.daneOriginVerified, .browserBridgeReady, .active]
      · rw [if_pos wrong]
        refine .inl ⟨_, rfl, fun other bindable => ?_⟩
        rcases wrong with mismatch | unready
        · have network := bindable.network
          rw [mismatch] at network
          cases network
        · exact unready bindable.ready
      · rw [if_neg wrong]
        rw [not_or, Bool.not_eq_false, not_not] at wrong
        cases current : completionIsCurrent state completion with
        | false =>
          refine .inl ⟨_, rfl, fun other bindable => ?_⟩
          have isCurrent := bindable.current
          rw [current] at isCurrent
          cases isCurrent
        | true =>
          exact .inr ⟨binding, ⟨origin_eq, port_eq, records_eq, validFrom_eq, validUntil_eq,
            validFrom_le, le_validUntil, agrees, wrong.1, wrong.2, current⟩, rfl⟩

/-- The bridge is not ready yet and one event is left besides the one that makes it so. -/
def OneEventLeft (state : EngineState) : Prop :=
  state.runtime.authorityState = .daneOriginVerified ∧ state.runtime.eventSequence + 1 = u64Max

/-- The last event of the later state is the one of the stamp. -/
structure Stamps (before : EngineState) (stamp : RuntimeStamp) (after : EngineState) : Prop where
  session_eq : after.runtime.session = before.runtime.session
  stamp_session_eq : stamp.session = after.runtime.session
  invalidation_eq : after.runtime.invalidationSequence = before.runtime.invalidationSequence
  sequence_le : before.runtime.eventSequence ≤ after.runtime.eventSequence
  stamp_sequence_eq : stamp.eventSequence = after.runtime.eventSequence

theorem admitEvent_stamps {final : EngineState} {stamp : RuntimeStamp}
    (admitted : admitEvent state = (.ok stamp, final)) : Stamps state stamp final := by
  rcases admitEvent_cases state with ⟨error, refused, -⟩ | ⟨-, -, returned⟩
  · rw [refused] at admitted
    cases admitted
  · rw [returned] at admitted
    cases admitted
    exact ⟨rfl, rfl, rfl, Nat.le_succ _, rfl⟩

/-- What the binding does to the runtime: nothing, or all of it, or only the transition
when its second event does not fit. -/
theorem bindRuntime_cases {state : EngineState} {decision : NamespaceDecision}
    {binding : BridgeBinding} :
    (∃ error, bindRuntime crypto decision binding state = (.error error, state) ∧
        ¬OneEventLeft state) ∨
      (OneEventLeft state ∧ ∃ error final,
        bindRuntime crypto decision binding state = (.error error, final) ∧
          final.runtime.authorityState = .browserBridgeReady) ∨
      ∃ stamp final, Stamps state stamp final ∧ bindRuntime crypto decision binding state =
          (.ok (stampOriginContext crypto final decision .hnsDaneVerified binding.validFrom
            (min decision.expiresAtUnix (saturatingAdd binding.validUntil 1)) (some stamp)), final) ∧
        ¬OneEventLeft state := by
  unfold bindRuntime
  by_cases verified : state.runtime.authorityState = .daneOriginVerified
  · have valid : validAuthorityTransition state.runtime.authorityState .browserBridgeReady =
        true := by
      rw [verified]
      rfl
    have readying : readyBridge state =
        (Engine.transition .browserBridgeReady >>= fun _ => pure ()) state := by
      unfold readyBridge
      rw [Effect.get_bind, if_pos verified]
    rcases transition_cases .browserBridgeReady state with
      ⟨error, refused, full⟩ | ⟨fits, -, snapshot, moved⟩
    · rw [Effect.bind_error refused] at readying
      rw [Effect.bind_error readying]
      refine .inl ⟨error, rfl, fun last => ?_⟩
      have room := full valid
      rw [last.2] at room
      exact Nat.lt_irrefl _ room
    · rw [Effect.bind_ok moved] at readying
      rw [Effect.bind_ok readying]
      rcases admitEvent_cases { state with
          runtime :=
            { state.runtime with
              eventSequence := state.runtime.eventSequence + 1
              invalidationSequence := state.runtime.invalidationSequence
              authorityState := .browserBridgeReady } } with
        ⟨error, refused, full⟩ | ⟨room, -, returned⟩
      · have last : OneEventLeft state :=
          ⟨verified, Nat.le_antisymm fits (Nat.le_of_lt_succ (full rfl))⟩
        refine .inr (.inl ⟨last, error, _, Effect.bind_error refused, rfl⟩)
      · have notLast : ¬OneEventLeft state := by
          intro last
          change state.runtime.eventSequence + 1 + 1 ≤ u64Max at room
          rw [last.2] at room
          exact Nat.not_succ_le_self _ room
        have stamps := admitEvent_stamps returned
        refine .inr (.inr ⟨_, _, ?_, Effect.bind_ok returned, notLast⟩)
        exact ⟨rfl, rfl, rfl, (Nat.le_succ _).trans stamps.sequence_le, rfl⟩
  · have readied : readyBridge state = (.ok (), state) := by
      unfold readyBridge
      rw [Effect.get_bind, if_neg verified]
      rfl
    rw [Effect.bind_ok readied]
    have notLast : ¬OneEventLeft state := fun last => verified last.1
    rcases admitEvent_cases state with ⟨error, refused, -⟩ | ⟨-, -, returned⟩
    · rw [Effect.bind_error refused]
      exact .inl ⟨error, rfl, notLast⟩
    · rw [Effect.bind_ok returned]
      exact .inr (.inr ⟨_, _, admitEvent_stamps returned, rfl, notLast⟩)

/-- A call that fails without a change, or returns, leaves no trace of failure. -/
theorem bindHnsOriginContext_fails {decision : NamespaceDecision} {completion : DaneCompletion}
    {now : Nat}
    (notLast : ¬(OneEventLeft state ∧ ∃ binding, Bindable state decision completion binding now))
    {error : EngineError} {final : EngineState}
    (run : bindHnsOriginContext crypto decision completion now state = (.error error, final)) :
    final = state := by
  rcases bindHnsOriginContext_cases crypto decision completion now state with
    ⟨reason, refused, -⟩ | ⟨binding, bindable, bound⟩
  · rw [refused] at run
    cases run
    rfl
  rw [bound] at run
  rcases @bindRuntime_cases crypto state decision binding with
    ⟨reason, refused, -⟩ | ⟨last, -⟩ | ⟨stamp, after, -, returned, -⟩
  · rw [refused] at run
    cases run
    rfl
  · exact absurd ⟨last, binding, bindable⟩ notLast
  · rw [returned] at run
    cases run

/-! ## Every call -/

/-- The call binds an HNS decision that passes all checks when one event is left. -/
def Overruns (state : EngineState) : Call → Prop
  | .bindHnsOriginContext decision completion now =>
    OneEventLeft state ∧ ∃ binding, Bindable state decision completion binding now
  | _ => False

theorem failsWithin_replying {α : Type} {wrap : α → Reply} {call : EngineM α}
    (fails : call.FailsWithin AuthorityKept) : (replying wrap call).FailsWithin AuthorityKept :=
  .bind_never fails fun _ => .pure _

theorem perform_failsWithin (call : Call)
    (notHns : ∀ decision completion now, call ≠ .bindHnsOriginContext decision completion now) :
    (perform crypto call).FailsWithin AuthorityKept := by
  cases call with
  | advanceAuthorityState next => exact failsWithin_replying (advanceAuthorityState_fails next)
  | updatePolicy expected next => exact failsWithin_replying (updatePolicy_fails expected next)
  | admitResolution transport query =>
    exact failsWithin_replying (.of_steps (admitResolution_keeps transport query))
  | admitGatewaySelection selection query limits =>
    exact failsWithin_replying (.of_steps (admitGatewaySelection_keeps selection query limits))
  | parseResponse attempt response limits =>
    exact failsWithin_replying (.of_steps (parseResponse_keeps attempt response limits))
  | completeResolutionWithLocalDane attempt response prerequisites certificate limits context =>
    exact failsWithin_replying (completeResolutionWithLocalDane_fails attempt response
      prerequisites certificate limits context)
  | completeResolutionWithValidatedTlsa attempt response input context =>
    exact failsWithin_replying
      (completeResolutionWithValidatedTlsa_fails attempt response input context)
  | authorizeBrowserBridge completion now =>
    exact failsWithin_replying (authorizeBrowserBridge_fails completion now)
  | bindUnauthenticatedOriginContext decision now =>
    exact failsWithin_replying (.of_steps (of_same fun _ => rfl))
  | beginIcannBinding decision now =>
    exact failsWithin_replying (.of_steps (beginIcannBinding_keeps decision now))
  | finishIcannBinding decision request authentication? now =>
    exact failsWithin_replying
      (.of_steps (finishIcannBinding_keeps decision request authentication? now))
  | bindHnsOriginContext decision completion now => exact absurd rfl (notHns _ _ _)
  | authorizeProviderInjection decision context now =>
    exact failsWithin_replying (.of_steps (of_same fun _ => rfl))
  | revalidateProviderAuthority decision authority now =>
    exact failsWithin_replying (.of_steps (of_same fun _ => rfl))
  | providerAuthorityIsCurrent authority now =>
    exact failsWithin_replying (.of_steps (of_same fun _ => rfl))

/-- The state after a sequence of calls. -/
def run (crypto : LocalCrypto) (start : EngineState) (calls : List Call) : EngineState :=
  runFrom (apply crypto) start calls

/-- Without room for the stamp the transition of a binding stays. -/
theorem authorityState_of_overruns {decision : NamespaceDecision} {completion : DaneCompletion}
    {now : Nat} {state : EngineState}
    (overruns : Overruns state (.bindHnsOriginContext decision completion now)) :
    ∃ error final, bindHnsOriginContext crypto decision completion now state =
      (.error error, final) ∧ final.runtime.authorityState = .browserBridgeReady := by
  rcases overruns with ⟨last, binding, bindable⟩
  rcases bindHnsOriginContext_cases crypto decision completion now state with
    ⟨reason, -, refused⟩ | ⟨other, -, bound⟩
  · exact absurd bindable (refused binding)
  rw [bound]
  rcases @bindRuntime_cases crypto state decision other with
    ⟨reason, -, notLast⟩ | ⟨-, failed⟩ | ⟨stamp, after, -, -, notLast⟩
  · exact absurd last notLast
  · exact failed
  · exact absurd last notLast

/-- One of the two parts of binding an ICANN decision. -/
def IcannPart : Call → Prop
  | .beginIcannBinding _ _ => True
  | .finishIcannBinding _ _ _ _ => True
  | _ => False

theorem authorityKept_of_icannPart {call : Call} (isPart : IcannPart call) (state : EngineState) :
    AuthorityKept state (apply crypto state call) := by
  cases call with
  | beginIcannBinding decision now =>
    rw [apply, perform, snd_replying]
    exact beginIcannBinding_keeps decision now state
  | finishIcannBinding decision request authentication? now =>
    rw [apply, perform, snd_replying]
    exact finishIcannBinding_keeps decision request authentication? now state
  | _ => exact isPart.elim

/-- From every state, whatever the values of its counters, and after every sequence of
calls: a call that fails leaves all but the event sequence as it was, exactly if it does
not bind an HNS decision that passes all checks when one event is left for the
transition and none for the stamp.  The parts of binding an ICANN decision leave it so
in any case, hence also when only the second one fails. -/
theorem failed_call_keeps_authority_iff (crypto : LocalCrypto) (start : EngineState)
    (calls : List Call) (call : Call) :
    ((∀ error, reply crypto (run crypto start calls) call = .error error →
        AuthorityKept (run crypto start calls) (apply crypto (run crypto start calls) call)) ↔
      ¬Overruns (run crypto start calls) call) ∧
    (IcannPart call →
      AuthorityKept (run crypto start calls) (apply crypto (run crypto start calls) call)) := by
  generalize run crypto start calls = state
  refine ⟨?_, fun isPart => authorityKept_of_icannPart isPart state⟩
  constructor
  · rintro kept overruns
    cases call with
    | bindHnsOriginContext decision completion now =>
      rcases @authorityState_of_overruns crypto decision completion now state overruns with
        ⟨error, final, failed, ready⟩
      have replied : perform crypto (.bindHnsOriginContext decision completion now) state =
          (.error error, final) :=
        Effect.bind_error failed
      have same := (kept error (congrArg Prod.fst replied)).authorityState_eq
      rw [apply, replied, ready, overruns.1.1] at same
      cases same
    | _ => exact overruns
  · rintro notOverruns error failed
    have performed : perform crypto call state = (.error error, apply crypto state call) :=
      Prod.ext failed rfl
    by_cases binds : ∃ decision completion now, call = .bindHnsOriginContext decision completion now
    · rcases binds with ⟨decision, completion, now, rfl⟩
      rcases Effect.bind_cases performed with ⟨reason, bound, -⟩ | ⟨context, middle, -, continued⟩
      · rw [bindHnsOriginContext_fails notOverruns bound]
        exact .refl state
      · cases continued
    · refine perform_failsWithin call ?_ state error _ performed
      rintro decision completion now rfl
      exact binds ⟨decision, completion, now, rfl⟩

/-! ## A binding with one event left -/

namespace ExampleOrigin

theorem owner_valid :
    Wire.ValidLabels [[0x5f, 0x34, 0x34, 0x33], [0x5f, 0x74, 0x63, 0x70], [0x61]] := by decide

/-- `_443._tcp.a`. -/
def owner : Wire.Name :=
  ⟨[[0x5f, 0x34, 0x34, 0x33], [0x5f, 0x74, 0x63, 0x70], [0x61]], owner_valid⟩

theorem zone_valid : Wire.ValidLabels [[0x61]] := by decide

def zone : Wire.Name := ⟨[[0x61]], zone_valid⟩

def tlsaQuery : Wire.Query := ⟨0, ⟨owner, .tlsa, Wire.classIn⟩⟩

def tlsa : Wire.Tlsa := ⟨3, 1, 0, [7]⟩

/-- One TLSA record for the owner, with a compressed name. -/
def answer : Octets :=
  [0, 0, 0x80, 0, 0, 1, 0, 1, 0, 0, 0, 0, 4, 0x5f, 0x34, 0x34, 0x33, 4, 0x5f, 0x74, 0x63, 0x70,
    1, 0x61, 0, 0, 52, 0, 1, 0xc0, 12, 0, 52, 0, 1, 0, 0, 0, 60, 0, 4, 3, 1, 0, 7]

def attempt : ResolutionAttempt :=
  ⟨⟨session, 1, 6⟩, ⟨1, .directAuthoritativeUdp⟩, tlsaQuery⟩

def response : ParsedResponse where
  attemptStamp := ⟨session, 1, 6⟩
  message :=
    { header := ⟨0, ⟨0x8000⟩, 1, 1, 0, 0⟩
      questions := [tlsaQuery.question]
      answers := [⟨owner, .tlsa, Wire.classIn, 60, .tlsa tlsa⟩]
      authorities := []
      additionals := [] }
  untrustedAdClaim := false

theorem treeRoot_length : treeRoot.length = 32 := by decide

/-- The record, validated from time 20 to time 59. -/
def validated : Resolver.ValidatedTlsa where
  requestedOwner := owner
  terminalOwner := owner
  baseDomain := zone
  baseDomainAscii := [97]
  records := [tlsa]
  cnameChain := []
  rrset := ⟨owner, .tlsa, 1, 8, 0, 60, 20, 60⟩
  hnsAuthority := some {
    anchor := ⟨.mainnet, 1, ⟨treeRoot, treeRoot_length⟩, ⟨treeRoot, treeRoot_length⟩, 1, 20, 59⟩
    zone := zone
    validationTime := 20
    expiresAtUnix := 60 }
  validatedAtUnix := 20
  expiresAtUnix := 60

def daneInput : ValidatedDaneInput :=
  ⟨validated, [[0x30]], [97], 20, ⟨65536, 8192, 32, 4096, 8⟩⟩

def direct : CompletionContext :=
  ⟨none, none, none, none, false⟩

def freshState : EngineState :=
  .new session .mainnet .default

/-- The calls of one resolution up to its completion. -/
def resolving : List Call :=
  [.advanceAuthorityState .localStateOpened, .advanceAuthorityState .headerSyncing,
    .advanceAuthorityState .headerCurrent, .advanceAuthorityState .proofReady,
    .advanceAuthorityState .resolutionTransportReady,
    .admitResolution .directAuthoritativeUdp tlsaQuery,
    .parseResponse attempt answer .browser, .advanceAuthorityState .dnssecVerified]

def completing : Call :=
  .completeResolutionWithValidatedTlsa attempt response daneInput direct

def provenance : ResolutionProvenance where
  schemaVersion := 1
  runtimeSession := session.bytes
  runtimeGeneration := 1
  policyGeneration := 1
  eventSequence := 8
  network := .mainnet
  chainAnchor := some ⟨1, treeRoot⟩
  transport := .directAuthoritativeUdp
  peerIdentity := none
  proxyIdentity := none
  targetIdentity := none
  directRelayFallback := false
  registryProfile := .auto
  evidence := .uniform .verified
  untrustedAdClaim := false

def completion : DaneCompletion where
  admissionStamp := ⟨session, 1, 6⟩
  provenance := provenance
  daneMatch := ⟨0, .daneEe, .subjectPublicKeyInfo, .exact⟩
  originSni := some [97]
  bridgeServicePort := some 443
  bridgeTlsaRecords := some [[3, 1, 0, 7]]
  bridgeValidFrom := some 20
  bridgeValidUntil := some 59

/-- The origin is verified after eight events. -/
def verifiedState (eventSequence : Nat) : EngineState where
  runtime := ⟨session, 1, eventSequence, 0, .daneOriginVerified⟩
  network := .mainnet
  policy := ⟨.default⟩
  lastProvenance := some provenance
  lastEvidence := .uniform .verified

theorem run_completing :
    run acceptingCrypto freshState (resolving ++ [completing]) = verifiedState 8 := by
  rfl

/-- Every further admission takes one event. -/
theorem apply_verifiedState {eventSequence : Nat} (room : eventSequence + 1 ≤ u64Max) :
    apply acceptingCrypto (verifiedState eventSequence)
      (.admitResolution .directAuthoritativeUdp tlsaQuery) = verifiedState (eventSequence + 1) := by
  rcases admitEvent_cases (verifiedState eventSequence) with ⟨error, -, full⟩ | ⟨-, -, returned⟩
  · exact absurd (full rfl) (Nat.not_lt.mpr room)
  have allowed : admitResolution .directAuthoritativeUdp tlsaQuery (verifiedState eventSequence) =
      (admitEvent >>= fun stamp => pure ⟨stamp, ⟨1, .directAuthoritativeUdp⟩, tlsaQuery⟩ :
        EngineM ResolutionAttempt) (verifiedState eventSequence) :=
    rfl
  rw [apply, perform, snd_replying, allowed, Effect.bind_ok returned]
  rfl

theorem run_verifiedState (count : Nat) :
    ∀ eventSequence, eventSequence + count ≤ u64Max →
      run acceptingCrypto (verifiedState eventSequence)
        (List.replicate count (.admitResolution .directAuthoritativeUdp tlsaQuery)) =
        verifiedState (eventSequence + count) := by
  induction count with
  | zero => exact fun _ _ => rfl
  | succ count ih =>
    intro eventSequence room
    have first : eventSequence + 1 ≤ u64Max := le_trans (by omega) room
    have rest : eventSequence + 1 + count ≤ u64Max := le_trans (by omega) room
    rw [List.replicate_succ, run, runFrom_cons, apply_verifiedState first]
    exact (ih (eventSequence + 1) rest).trans (congrArg verifiedState (by omega))

/-- The resolution, and admissions until one event is left. -/
def exhausting : List Call :=
  resolving ++ [completing] ++
    List.replicate (u64Max - 9) (.admitResolution .directAuthoritativeUdp tlsaQuery)

theorem run_exhausting :
    run acceptingCrypto freshState exhausting = verifiedState (u64Max - 1) := by
  have start := run_completing
  unfold run at start
  rw [exhausting, run, runFrom_append, start]
  exact run_verifiedState (u64Max - 9) 8 (by decide)

theorem binding_overruns :
    Overruns (verifiedState (u64Max - 1))
      (.bindHnsOriginContext (secureDecision lifetime) completion 30) :=
  ⟨⟨rfl, rfl⟩, ⟨[97], 443, [[3, 1, 0, 7]], 20, 59⟩, rfl, rfl, rfl, rfl, rfl, by decide, by decide,
    rfl, rfl, by decide, rfl⟩

/-- In a run of a fresh engine the binding fails, and the bridge is ready. -/
theorem failed_binding_moves_authority :
    ¬∀ (calls : List Call) (call : Call) (error : EngineError),
      reply acceptingCrypto (run acceptingCrypto freshState calls) call = .error error →
      AuthorityKept (run acceptingCrypto freshState calls)
        (apply acceptingCrypto (run acceptingCrypto freshState calls) call) := by
  intro kept
  rcases @authorityState_of_overruns acceptingCrypto _ _ _ _ binding_overruns with
    ⟨error, final, failed, ready⟩
  have replied : perform acceptingCrypto
      (.bindHnsOriginContext (secureDecision lifetime) completion 30)
      (verifiedState (u64Max - 1)) = (.error error, final) :=
    Effect.bind_error failed
  have same := kept exhausting (.bindHnsOriginContext (secureDecision lifetime) completion 30) error
  rw [run_exhausting] at same
  have state_eq := (same (congrArg Prod.fst replied)).authorityState_eq
  rw [apply, replied, ready] at state_eq
  cases state_eq

end ExampleOrigin

end HnsDaneEngine.Engine
