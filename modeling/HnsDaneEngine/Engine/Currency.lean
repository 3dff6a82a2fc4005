import HnsDaneEngine.Engine.Provider

/-!
# Two checks of one authority

An authority that was obtained for a decision keeps what that decision says about it.
So its own fields decide whether it can still be renewed for the decision.
-/

namespace HnsDaneEngine.Engine

open Browser.Runtime NamespaceResolution

variable {crypto : LocalCrypto} {state : EngineState} {decision : NamespaceDecision}
  {context : AuthenticatedOriginContext} {authority : ProviderAuthorityContext} {now : Nat}

/-- A rejection that does not happen. -/
theorem reject_eq_none_iff {α : Type} {condition : Prop} [Decidable condition] {reason : α}
    {rest : Option α} :
    (if condition then some reason else rest) = none ↔ ¬condition ∧ rest = none := by
  by_cases holds : condition
  · simp [holds]
  · simp [holds]

/-- The engine accepts the context as current at a time. -/
structure Accepts (state : EngineState) (context : AuthenticatedOriginContext) (now : Nat) :
    Prop where
  ready : authorityDenial state.runtime.authorityState = none
  session_eq : context.runtimeSession = state.runtime.session.bytes
  generation_eq : context.runtimeGeneration = state.runtime.generation
  policy_eq : context.policyGeneration = state.policy.snapshot.generation
  isAdmitted : authenticatedContextIsAdmitted state context = true
  validFrom_le : context.validFrom ≤ now
  lt_validUntil : now < context.validUntil

/-- The context was authenticated for the decision. -/
structure Authenticates (crypto : LocalCrypto) (decision : NamespaceDecision)
    (context : AuthenticatedOriginContext) : Prop where
  https : (LogicalOrigin.fromNamespaceDecision decision).scheme = .https
  authenticated : context.status ≠ .unauthenticated
  origin_eq : context.logicalOrigin = .fromNamespaceDecision decision
  namespace_eq : context.selectedNamespace = decision.selectedNamespace
  fingerprint_eq : context.decisionFingerprint = crypto.decisionFingerprint decision
  policy : authenticationPolicyDenial decision context.status = none

theorem authenticationPolicyDenial_eq_none_iff {status : AuthenticatedContextStatus} :
    authenticationPolicyDenial decision status = none ↔
      ∃ plan selected, decision.selectedPlan = some plan ∧
        decision.selectedNamespace = some selected ∧
        authenticationMatches selected plan.tlsPolicy status = true := by
  rw [authenticationPolicyDenial]
  cases decision.selectedPlan with
  | none => simp
  | some plan =>
    cases decision.selectedNamespace with
    | none => simp
    | some selected => simp

/-- There is no reason against an injection exactly for an authenticated context that the
engine accepts while the decision is fresh on its network. -/
theorem denialReason_eq_none_iff :
    denialReason crypto state decision context now = none ↔
      Authenticates crypto decision context ∧ Accepts state context now ∧
        decision.isFreshAt now = true ∧
        networkMatches state.network decision.hnsNetwork = true := by
  simp only [denialReason, reject_eq_none_iff, Option.or_eq_none_iff, ne_eq, not_not,
    Bool.not_eq_false, Nat.not_lt, Nat.not_le, and_true]
  constructor
  · rintro ⟨secure, https, selected, authenticated, origin_eq, namespace_eq, fingerprint_eq, fresh,
      network, ready, session_eq, generation_eq, policy_eq, isAdmitted, policy, validFrom_le,
      lt_validUntil⟩
    exact ⟨⟨https, authenticated, origin_eq, namespace_eq, fingerprint_eq, policy⟩,
      ⟨ready, session_eq, generation_eq, policy_eq, isAdmitted, validFrom_le, lt_validUntil⟩,
      fresh, network⟩
  · rintro ⟨⟨https, authenticated, origin_eq, namespace_eq, fingerprint_eq, policy⟩,
      ⟨ready, session_eq, generation_eq, policy_eq, isAdmitted, validFrom_le, lt_validUntil⟩,
      fresh, network⟩
    have secure : (LogicalOrigin.fromNamespaceDecision decision).isSecure = true := by
      rw [LogicalOrigin.isSecure, https]
      rfl
    have selected : ¬decision.selectedNamespace = none := by
      rcases authenticationPolicyDenial_eq_none_iff.mp policy with ⟨plan, root, -, root_eq, -⟩
      rw [root_eq]
      exact Option.some_ne_none root
    exact ⟨secure, https, selected, authenticated, origin_eq, namespace_eq, fingerprint_eq, fresh,
      network, ready, session_eq, generation_eq, policy_eq, isAdmitted, policy, validFrom_le,
      lt_validUntil⟩

/-- The authority names the selected plan of the decision. -/
structure NamesPlan (decision : NamespaceDecision) (authority : ProviderAuthorityContext) :
    Prop where
  network_eq : decision.hnsNetwork = authority.hnsNetwork
  selected_eq : decision.selectedNamespace = some authority.selectedNamespace
  plan_eq : ∃ plan, decision.selectedPlan = some plan ∧ plan.service.transport = .tcp ∧
    plan.service.effectivePort.val = authority.servicePort ∧ plan.tlsPolicy = authority.tlsPolicy

theorem providerAuthorityOutcome_eq_authorized_iff {evaluation : ProviderInjectionDecision} :
    providerAuthorityOutcome decision context evaluation now = .authorized authority ↔
      evaluation.permitted = true ∧ authority.originContext = context.narrow decision now ∧
        NamesPlan decision authority := by
  rw [providerAuthorityOutcome]
  cases permitted : evaluation.permitted with
  | false => simp
  | true =>
    cases selected_eq : decision.selectedNamespace with
    | none =>
      have unnamed : ¬NamesPlan decision authority := by
        intro names
        rw [names.selected_eq] at selected_eq
        cases selected_eq
      simp [unnamed]
    | some selected =>
      cases plan_eq : decision.selectedPlan with
      | none =>
        have unnamed : ¬NamesPlan decision authority := by
          rintro ⟨-, -, plan, named, -⟩
          rw [named] at plan_eq
          cases plan_eq
        simp [unnamed]
      | some plan =>
        by_cases tcp : plan.service.transport = .tcp
        · simp only [tcp, Bool.true_eq_false, if_false, ne_eq, not_true_eq_false, true_and]
          constructor
          · intro authorized
            cases authorized
            exact ⟨rfl, rfl, selected_eq, plan, plan_eq, tcp, rfl, rfl⟩
          · rintro ⟨context_eq, network_eq, named, other, other_eq, -, port_eq, policy_eq⟩
            rw [plan_eq] at other_eq
            rw [selected_eq] at named
            cases other_eq
            cases named
            rcases authority with ⟨originContext, root, network, port, policy⟩
            cases context_eq
            cases network_eq
            cases port_eq
            cases policy_eq
            rfl
        · have unnamed : ¬NamesPlan decision authority := by
            rintro ⟨-, -, other, named, isTcp, -⟩
            rw [plan_eq] at named
            cases named
            exact tcp isTcp
          simp [tcp, unnamed]

theorem matchesDecision_iff :
    authority.matchesDecision crypto decision = true ↔
      authority.logicalOrigin = .fromNamespaceDecision decision ∧ NamesPlan decision authority ∧
        crypto.decisionFingerprint decision = authority.decisionFingerprint := by
  rw [ProviderAuthorityContext.matchesDecision, Option.any_eq_true]
  simp only [Bool.and_eq_true, beq_iff_eq, and_assoc]
  constructor
  · rintro ⟨plan, plan_eq, origin_eq, selected_eq, network_eq, tcp, port_eq, policy_eq,
      fingerprint_eq⟩
    exact ⟨origin_eq, ⟨network_eq, selected_eq, plan, plan_eq, tcp, port_eq, policy_eq⟩,
      fingerprint_eq⟩
  · rintro ⟨origin_eq, ⟨network_eq, selected_eq, plan, plan_eq, tcp, port_eq, policy_eq⟩,
      fingerprint_eq⟩
    exact ⟨plan, plan_eq, origin_eq, selected_eq, network_eq, tcp, port_eq, policy_eq,
      fingerprint_eq⟩

theorem fst_authorizeProviderInjection :
    (authorizeProviderInjection crypto decision context now state).1 =
      .ok (providerAuthorityOutcome decision context
        (evaluateProviderInjection crypto state decision context now) now) :=
  rfl

theorem fst_revalidateProviderAuthority :
    (revalidateProviderAuthority crypto decision authority now state).1 =
      .ok (providerAuthorityOutcome decision authority.originContext
        (reevaluate crypto state decision authority now) now) :=
  rfl

theorem fst_providerAuthorityIsCurrent :
    (providerAuthorityIsCurrent authority now state).1 =
      .ok (providerAuthorityIsCurrentInState state authority now) :=
  rfl

theorem evaluate_permitted_iff :
    (evaluateProviderInjection crypto state decision context now).permitted = true ↔
      Authenticates crypto decision context ∧ Accepts state context now ∧
        decision.isFreshAt now = true ∧
        networkMatches state.network decision.hnsNetwork = true := by
  rw [← denialReason_eq_none_iff, ← Option.isNone_iff_eq_none]
  rfl

theorem reevaluate_permitted_iff :
    (reevaluate crypto state decision authority now).permitted = true ↔
      (evaluateProviderInjection crypto state decision authority.originContext now).permitted =
          true ∧ authority.matchesDecision crypto decision = true := by
  unfold reevaluate
  cases permitted : (evaluateProviderInjection crypto state decision authority.originContext
      now).permitted with
  | false => simp [permitted]
  | true =>
    cases matched : authority.matchesDecision crypto decision with
    | false => simp [permitted, ProviderInjectionDecision.deny]
    | true => simp [permitted]

/-- A context is authorized exactly if it was authenticated for the decision and is accepted
while the decision is fresh; the lifetime of the authority is narrowed. -/
theorem authorize_eq_authorized_iff :
    (authorizeProviderInjection crypto decision context now state).1 = .ok (.authorized authority) ↔
      (Authenticates crypto decision context ∧ Accepts state context now ∧
          decision.isFreshAt now = true ∧
          networkMatches state.network decision.hnsNetwork = true) ∧
        authority.originContext = context.narrow decision now ∧ NamesPlan decision authority := by
  rw [fst_authorizeProviderInjection, Except.ok.injEq, providerAuthorityOutcome_eq_authorized_iff,
    evaluate_permitted_iff]

/-- An authority is renewed exactly if its context would be authorized and it matches the
decision. -/
theorem revalidate_eq_authorized_iff {renewed : ProviderAuthorityContext} :
    (revalidateProviderAuthority crypto decision authority now state).1 =
        .ok (.authorized renewed) ↔
      ((Authenticates crypto decision authority.originContext ∧
          Accepts state authority.originContext now ∧ decision.isFreshAt now = true ∧
          networkMatches state.network decision.hnsNetwork = true) ∧
        authority.matchesDecision crypto decision = true) ∧
        renewed.originContext = authority.originContext.narrow decision now ∧
        NamesPlan decision renewed := by
  rw [fst_revalidateProviderAuthority, Except.ok.injEq, providerAuthorityOutcome_eq_authorized_iff,
    reevaluate_permitted_iff, evaluate_permitted_iff]

/-- What the fields of an authority alone say about it. -/
structure SelfConsistent (authority : ProviderAuthorityContext) : Prop where
  https : authority.originContext.logicalOrigin.scheme = .https
  namespace_eq : authority.originContext.selectedNamespace = some authority.selectedNamespace
  port_ne : authority.servicePort ≠ 0
  authenticated : authenticationMatches authority.selectedNamespace authority.tlsPolicy
    authority.originContext.status = true

theorem isCurrentInState_iff :
    providerAuthorityIsCurrentInState state authority now = true ↔
      SelfConsistent authority ∧ Accepts state authority.originContext now ∧
        networkMatches state.network authority.hnsNetwork = true := by
  simp only [providerAuthorityIsCurrentInState, Bool.and_eq_true, beq_iff_eq, bne_iff_ne,
    decide_eq_true_eq, Option.isNone_iff_eq_none, and_assoc]
  constructor
  · rintro ⟨ready, secure, https, namespace_eq, port_ne, authenticated, session_eq, generation_eq,
      policy_eq, network, isAdmitted, validFrom_le, lt_validUntil⟩
    exact ⟨⟨https, namespace_eq, port_ne, authenticated⟩,
      ⟨ready, session_eq, generation_eq, policy_eq, isAdmitted, validFrom_le, lt_validUntil⟩,
      network⟩
  · rintro ⟨⟨https, namespace_eq, port_ne, authenticated⟩,
      ⟨ready, session_eq, generation_eq, policy_eq, isAdmitted, validFrom_le, lt_validUntil⟩,
      network⟩
    have secure : authority.originContext.logicalOrigin.isSecure = true := by
      rw [LogicalOrigin.isSecure, https]
      rfl
    exact ⟨ready, secure, https, namespace_eq, port_ne, authenticated, session_eq, generation_eq,
      policy_eq, network, isAdmitted, validFrom_le, lt_validUntil⟩

/-- Authorized for the decision in some state of an engine, or renewed for it any number of
times since. -/
inductive ObtainedFor (crypto : LocalCrypto) (decision : NamespaceDecision) :
    ProviderAuthorityContext → Prop
  | authorized {state : EngineState} {context : AuthenticatedOriginContext} {now : Nat}
      {authority : ProviderAuthorityContext}
      (granted : (authorizeProviderInjection crypto decision context now state).1 =
        .ok (.authorized authority)) : ObtainedFor crypto decision authority
  | renewed {state : EngineState} {now : Nat} {earlier authority : ProviderAuthorityContext}
      (obtained : ObtainedFor crypto decision earlier)
      (granted : (revalidateProviderAuthority crypto decision earlier now state).1 =
        .ok (.authorized authority)) : ObtainedFor crypto decision authority

/-- An authority that agrees with the decision, within whose lifetime the decision is
fresh. -/
structure AgreesWith (crypto : LocalCrypto) (decision : NamespaceDecision)
    (authority : ProviderAuthorityContext) : Prop where
  authenticates : Authenticates crypto decision authority.originContext
  names : NamesPlan decision authority
  observed : decision.outcome.freshnesses.1.observedAtUnix ≤ authority.originContext.validFrom ∧
    decision.outcome.freshnesses.2.observedAtUnix ≤ authority.originContext.validFrom
  expires : authority.originContext.validUntil ≤ decision.expiresAtUnix

/-- Narrowing for a fresh decision leaves a lifetime within that of the decision. -/
theorem AgreesWith.of_narrow (authenticates : Authenticates crypto decision context)
    (fresh : decision.isFreshAt now = true)
    (context_eq : authority.originContext = context.narrow decision now)
    (names : NamesPlan decision authority) : AgreesWith crypto decision authority := by
  rcases NamespaceOutcome.isFreshAt_iff.mp fresh with ⟨firstSeen, secondSeen, -⟩
  refine ⟨?_, names, ?_, ?_⟩
  · rw [context_eq]
    exact ⟨authenticates.https, authenticates.authenticated, authenticates.origin_eq,
      authenticates.namespace_eq, authenticates.fingerprint_eq, authenticates.policy⟩
  · rw [context_eq]
    exact ⟨firstSeen.trans (Nat.le_max_right _ _), secondSeen.trans (Nat.le_max_right _ _)⟩
  · rw [context_eq]
    exact Nat.min_le_right _ _

theorem ObtainedFor.agreesWith (obtained : ObtainedFor crypto decision authority) :
    AgreesWith crypto decision authority := by
  cases obtained with
  | authorized granted =>
    rcases authorize_eq_authorized_iff.mp granted with
      ⟨⟨authenticates, -, fresh, -⟩, context_eq, names⟩
    exact .of_narrow authenticates fresh context_eq names
  | renewed _ granted =>
    rcases revalidate_eq_authorized_iff.mp granted with
      ⟨⟨⟨authenticates, -, fresh, -⟩, -⟩, context_eq, names⟩
    exact .of_narrow authenticates fresh context_eq names

namespace AgreesWith

theorem selfConsistent (agrees : AgreesWith crypto decision authority) :
    SelfConsistent authority := by
  rcases agrees.names with ⟨-, selected_eq, plan, plan_eq, -, port_eq, policy_eq⟩
  rcases authenticationPolicyDenial_eq_none_iff.mp agrees.authenticates.policy with
    ⟨other, root, other_eq, root_eq, authenticated⟩
  rw [plan_eq] at other_eq
  rw [selected_eq] at root_eq
  cases other_eq
  cases root_eq
  constructor
  · rw [agrees.authenticates.origin_eq]
    exact agrees.authenticates.https
  · rw [agrees.authenticates.namespace_eq]
    exact selected_eq
  · rw [← port_eq]
    exact plan.service.effectivePort.property
  · rw [← policy_eq]
    exact authenticated

theorem matchesDecision (agrees : AgreesWith crypto decision authority) :
    authority.matchesDecision crypto decision = true :=
  matchesDecision_iff.mpr ⟨agrees.authenticates.origin_eq, agrees.names,
    agrees.authenticates.fingerprint_eq.symm⟩

/-- Within the lifetime of the authority the decision is fresh. -/
theorem isFreshAt (agrees : AgreesWith crypto decision authority)
    (accepts : Accepts state authority.originContext now) : decision.isFreshAt now = true :=
  NamespaceOutcome.isFreshAt_iff.mpr ⟨agrees.observed.1.trans accepts.validFrom_le,
    agrees.observed.2.trans accepts.validFrom_le,
    accepts.lt_validUntil.trans_le agrees.expires⟩

end AgreesWith

/-- The check of an authority by its own fields says exactly whether it can be renewed for
the decision that it was obtained for. -/
theorem isCurrent_iff_renewed (state : EngineState) (now : Nat)
    (obtained : ObtainedFor crypto decision authority) :
    (providerAuthorityIsCurrent authority now state).1 = .ok true ↔
      ∃ renewed, (revalidateProviderAuthority crypto decision authority now state).1 =
        .ok (.authorized renewed) := by
  have agrees := obtained.agreesWith
  rw [fst_providerAuthorityIsCurrent, Except.ok.injEq, isCurrentInState_iff]
  constructor
  · rintro ⟨-, accepts, network⟩
    rw [← agrees.names.network_eq] at network
    refine ⟨{ authority with originContext := authority.originContext.narrow decision now }, ?_⟩
    have names := agrees.names
    exact revalidate_eq_authorized_iff.mpr ⟨⟨⟨agrees.authenticates, accepts,
      agrees.isFreshAt accepts, network⟩, agrees.matchesDecision⟩, rfl,
      names.network_eq, names.selected_eq, names.plan_eq⟩
  · rintro ⟨renewed, granted⟩
    rcases revalidate_eq_authorized_iff.mp granted with ⟨⟨⟨-, accepts, -, network⟩, -⟩, -, -⟩
    rw [agrees.names.network_eq] at network
    exact ⟨agrees.selfConsistent, accepts, network⟩

variable (freshness : Freshness)

namespace ExampleOrigin

theorem host_length_le : [(97 : UInt8)].length ≤ maxHostBytes := by decide

/-- The host `a`. -/
def host : CanonicalHost := ⟨[97], host_length_le⟩

/-- `https://a/` for a browser that speaks HTTP/1.1. -/
def query : OriginQuery :=
  ⟨host, .https, none, ⟨true, false, false, ProtocolCapabilities.http11_nonempty⟩⟩

def serviceInput : ServiceBindingInput where
  priority := none
  serviceTarget := host
  mandatoryKeys := []
  advertisedAlpn := []
  selectedProtocol := .http11
  effectivePort := query.originPort
  transport := .tcp
  connectionHints := []
  echConfig := none
  parameters := []

theorem serviceInput_bounded : serviceInput.Bounded := by
  refine ⟨by decide, by decide, by decide, by decide, ?_, ?_⟩
  · rintro identifier ⟨⟩
  · rintro value ⟨⟩

theorem record_length_le : [(3 : UInt8), 1, 0, 7].length ≤ maxParameterBytes := by decide

/-- A DANE-EE record for the key `7`. -/
def record : CanonicalTlsa := ⟨[3, 1, 0, 7], record_length_le⟩

def treeRoot : Octets :=
  List.replicate 32 0

def planInput (freshness : Freshness) : OriginPlanInput where
  «namespace» := .hns
  query := query
  aliasPath := []
  terminalTarget := host
  endpointAliasPath := []
  endpointTarget := host
  endpoints := [.v4 ⟨203, 0, 113, 1⟩ 443]
  service := ⟨serviceInput, serviceInput_bounded⟩
  tlsPolicy := .dane
  tlsaRecords := [record]
  provenance := .hns .mainnet treeRoot 1
  freshness := freshness

theorem planInput_isFor :
    (planInput freshness).provenance.isFor (planInput freshness).namespace = true := rfl

theorem planInput_aliases :
    (planInput freshness).aliasPath.length ≤ maxAliasSteps := Nat.zero_le _

theorem planInput_endpointAliases :
    (planInput freshness).endpointAliasPath.length ≤ maxAliasSteps := Nat.zero_le _

theorem planInput_endpoints : (planInput freshness).endpoints.length ≤ maxEndpoints :=
  show 1 ≤ 32 by decide

theorem planInput_records : (planInput freshness).tlsaRecords.length ≤ maxTlsaRecords :=
  show 1 ≤ 32 by decide

def plan (freshness : Freshness) : ValidatedOriginPlan where
  toOriginPlanInput := planInput freshness
  isFor := planInput_isFor freshness
  aliasPath_le := planInput_aliases freshness
  endpointAliasPath_le := planInput_endpointAliases freshness
  endpoints_le := planInput_endpoints freshness
  tlsaRecords_le := planInput_records freshness

theorem provenance_agrees : absenceAgrees .icann .icannInsecureNxDomain
    (.icannDoh .provenInsecure) = true := rfl

def icannAbsence (freshness : Freshness) : ValidatedAbsence :=
  ⟨.icann, query, .icannInsecureNxDomain, .icannDoh .provenInsecure, freshness, provenance_agrees⟩

/-- The host exists under the HNS root alone. -/
def secureDecision (freshness : Freshness) : NamespaceDecision where
  query := query
  policy := ⟨none, none, .preferIcann, 0⟩
  outcome := .hnsOnly (plan freshness) (icannAbsence freshness) .singleRoot

/-- What `decide_namespace` makes of the plan and the absence at a time. -/
def decided (freshness : Freshness) (now : Nat) : Except ClassificationError NamespaceDecision :=
  decideNamespace query (.present (plan freshness)) (.absent (icannAbsence freshness))
    ⟨none, none, .preferIcann, 0⟩ now

theorem lifetime_nonempty : 20 < 60 := by decide

def lifetime : Freshness := ⟨20, 60, lifetime_nonempty⟩

theorem session_length : (List.replicate 16 (7 : UInt8)).length = 16 := by decide

theorem session_nonzero : List.replicate 16 (7 : UInt8) ≠ List.replicate 16 0 := by decide

def session : RuntimeSessionId :=
  ⟨List.replicate 16 7, session_length, session_nonzero⟩

/-- A stand-in for the cryptography that accepts every chain. -/
def acceptingCrypto : LocalCrypto where
  sha256 := id
  verifyDaneEe := fun _ _ _ => .error .mismatch
  verifyDaneChain := fun _ _ _ _ _ => .ok ⟨0, .daneEe, .subjectPublicKeyInfo, .exact⟩

/-- An engine whose browser bridge is ready. -/
def readyState : EngineState where
  runtime := ⟨session, 1, 8, 0, .browserBridgeReady⟩
  network := .mainnet
  policy := ⟨.default⟩
  lastProvenance := none
  lastEvidence := .notAttempted

def readyContext : AuthenticatedOriginContext :=
  stampOriginContext acceptingCrypto readyState (secureDecision lifetime) .hnsDaneVerified 20 60
    (some ⟨session, 1, 8⟩)

def readyAuthority : ProviderAuthorityContext where
  originContext := readyContext.narrow (secureDecision lifetime) 30
  selectedNamespace := .hns
  hnsNetwork := .mainnet
  servicePort := 443
  tlsPolicy := .dane

theorem readyAuthority_obtained :
    ObtainedFor acceptingCrypto (secureDecision lifetime) readyAuthority :=
  @ObtainedFor.authorized acceptingCrypto (secureDecision lifetime) readyState readyContext 30
    readyAuthority
    (by decide +kernel)

theorem isCurrent_iff_renewed_ready :
    decided lifetime 30 = .ok (secureDecision lifetime) ∧
      (providerAuthorityIsCurrent readyAuthority 40 readyState).1 = .ok true ∧
      ∃ renewed, (revalidateProviderAuthority acceptingCrypto (secureDecision lifetime)
        readyAuthority 40 readyState).1 = .ok (.authorized renewed) := by
  have current : (providerAuthorityIsCurrent readyAuthority 40 readyState).1 = .ok true := by
    decide +kernel
  exact ⟨rfl, current, (isCurrent_iff_renewed readyState 40 readyAuthority_obtained).mp current⟩

end ExampleOrigin

end HnsDaneEngine.Engine
