import HnsDaneEngine.Engine.Resolution

/-!
# Binding origins

The calls that mint an authenticated context for a namespace decision, and the one
that authorizes the browser bridge.  The call for an ICANN decision gives up the lock
while the browser authenticates the origin, so it is two steps: one up to the request
that the browser answers, and one from the answer on.
-/

namespace HnsDaneEngine.Engine

open Browser.Runtime Control NamespaceResolution Policy

variable (crypto : LocalCrypto)

/-- The fields of a context that name the runtime event it was stamped with. -/
def stampOriginContext (state : EngineState) (decision : NamespaceDecision)
    (status : AuthenticatedContextStatus) (validFrom validUntil : Nat)
    (admissionStamp : Option RuntimeStamp) : AuthenticatedOriginContext where
  logicalOrigin := .fromNamespaceDecision decision
  selectedNamespace := decision.selectedNamespace
  status := status
  runtimeSession := (admissionStamp.elim state.runtime.session RuntimeStamp.session).bytes
  runtimeGeneration := admissionStamp.elim state.runtime.generation RuntimeStamp.generation
  policyGeneration := state.policy.snapshot.generation
  eventSequence := admissionStamp.elim state.runtime.eventSequence RuntimeStamp.eventSequence
  admissionStamp := admissionStamp
  decisionFingerprint := crypto.decisionFingerprint decision
  validFrom := validFrom
  validUntil := validUntil

/-- Mint an unauthenticated context, which every evaluation denies. -/
def bindUnauthenticatedOriginContext (decision : NamespaceDecision) (now : Nat) :
    EngineM AuthenticatedOriginContext := do
  let state ← Effect.get
  return stampOriginContext crypto state decision .unauthenticated now decision.expiresAtUnix none

/-- What TLS rests on. -/
inductive IcannTlsAuthenticationKind
  | daneVerified
  | webPkiVerified

/-- What the browser is asked to authenticate. -/
structure IcannOriginAuthenticationRequest where
  logicalOrigin : LogicalOrigin
  servicePort : UInt16
  decisionFingerprint : Octets
  hnsNetwork : HnsNetwork
  tlsPolicy : TlsTrustPolicy
  validUntil : Nat
  runtimeStamp : RuntimeStamp
  policyGeneration : Nat
  deriving DecidableEq

/-- A request that TLS answers. -/
structure IcannOriginAuthentication where
  request : IcannOriginAuthenticationRequest
  kind : IcannTlsAuthenticationKind

/-- The plan of a decision that `bind_icann_origin_context` accepts. -/
def icannPlan (decision : NamespaceDecision) (now : Nat) : Except EngineError ValidatedOriginPlan :=
  match decision.selectedPlan with
  | none => .error .providerAuthenticationMismatch
  | some plan =>
    if (LogicalOrigin.fromNamespaceDecision decision).scheme ≠ .https ∨
        decision.selectedNamespace ≠ some .icann ∨ plan.service.transport ≠ .tcp ∨
        decision.isFreshAt now = false then .error .providerAuthenticationMismatch
    else .ok plan

/-- `bind_icann_origin_context` up to the request. -/
def beginIcannBinding (decision : NamespaceDecision) (now : Nat) :
    EngineM IcannOriginAuthenticationRequest := do
  let plan ← Effect.ofExcept (icannPlan decision now)
  let state ← Effect.get
  if networkMatches state.network decision.hnsNetwork = false ∨
      state.runtime.authorityState ∉ [.browserBridgeReady, .active] then
    Effect.throw .providerAuthenticationMismatch
  else do
    let runtimeStamp ← admitEvent
    return {
      logicalOrigin := .fromNamespaceDecision decision
      servicePort := plan.service.effectivePort.val
      decisionFingerprint := crypto.decisionFingerprint decision
      hnsNetwork := decision.hnsNetwork
      tlsPolicy := plan.tlsPolicy
      validUntil := decision.expiresAtUnix
      runtimeStamp := runtimeStamp
      policyGeneration := state.policy.snapshot.generation }

/-- The status that an answer gives a context, if it answers the request. -/
def icannStatus (request : IcannOriginAuthenticationRequest) :
    Option IcannOriginAuthentication → Except EngineError AuthenticatedContextStatus
  | none => .error .providerAuthenticationMismatch
  | some authentication =>
    if authentication.request ≠ request then .error .providerAuthenticationMismatch
    else
      match request.tlsPolicy, authentication.kind with
      | .dane, .daneVerified => .ok .icannDaneVerified
      | .webPkiAuthenticatedAbsence, .webPkiVerified => .ok .icannWebPkiAuthenticatedAbsence
      | .webPkiInsecureDelegation, .webPkiVerified => .ok .icannWebPkiInsecureDelegation
      | _, _ => .error .providerAuthenticationMismatch

/-- `bind_icann_origin_context` from the answer on.  The network, the policy generation,
the admission of the request and the freshness are checked again. -/
def finishIcannBinding (decision : NamespaceDecision) (request : IcannOriginAuthenticationRequest)
    (authentication? : Option IcannOriginAuthentication) (now : Nat) :
    EngineM AuthenticatedOriginContext := do
  let status ← Effect.ofExcept (icannStatus request authentication?)
  let state ← Effect.get
  if networkMatches state.network decision.hnsNetwork = false ∨
      state.policy.snapshot.generation ≠ request.policyGeneration ∨
      state.runtime.admits request.runtimeStamp = false ∨ decision.isFreshAt now = false then
    Effect.throw .providerAuthenticationMismatch
  else do
    let contextStamp ← admitEvent
    let state ← Effect.get
    return stampOriginContext crypto state decision status now decision.expiresAtUnix
      (some contextStamp)

/-- Whether a completion belongs to the current security epoch of the engine. -/
def completionIsCurrent (state : EngineState) (completion : DaneCompletion) : Bool :=
  let provenance := completion.provenance
  state.runtime.admits completion.admissionStamp &&
    completion.admissionStamp.session.bytes == provenance.runtimeSession &&
    completion.admissionStamp.generation == provenance.runtimeGeneration &&
    completion.admissionStamp.eventSequence ≤ provenance.eventSequence &&
    provenance.runtimeSession == state.runtime.session.bytes &&
    provenance.runtimeGeneration == state.runtime.generation &&
    provenance.eventSequence ≤ state.runtime.eventSequence &&
    provenance.policyGeneration == state.policy.snapshot.generation &&
    provenance.network == state.network &&
    provenance.evidence.fullyVerified

/-- The records of the plan are those of the completion, in the same order. -/
def planRecordsMatch (plan : ValidatedOriginPlan) (records : List Octets) : Bool :=
  plan.tlsaRecords.map CanonicalTlsa.rdata == records

/-- The plan was proved under the anchor of the completion. -/
def anchorMatches (decision : NamespaceDecision) (plan : ValidatedOriginPlan)
    (completion : DaneCompletion) : Bool :=
  completion.provenance.chainAnchor.any fun anchor =>
    match plan.provenance with
    | .hns network treeRoot height =>
      network == decision.hnsNetwork && treeRoot == anchor.treeRoot && height.toNat == anchor.height
    | .icannDoh _ => false

/-- What a completion contributes to a binding. -/
structure BridgeBinding where
  origin : Octets
  servicePort : UInt16
  records : List Octets
  validFrom : Nat
  validUntil : Nat

/-- The fields of a strict completion, if `now` is within its validity. -/
def bridgeBinding (completion : DaneCompletion) (now : Nat) : Except EngineError BridgeBinding :=
  match completion.originSni, completion.bridgeServicePort, completion.bridgeTlsaRecords,
      completion.bridgeValidFrom, completion.bridgeValidUntil with
  | none, _, _, _, _ => .error .legacyCompletionNotBridgeable
  | some _, none, _, _, _ => .error .unsupportedBridgeService
  | some _, some _, none, _, _ => .error .legacyCompletionNotBridgeable
  | some _, some _, some _, none, _ => .error .legacyCompletionNotBridgeable
  | some _, some _, some _, some _, none => .error .legacyCompletionNotBridgeable
  | some origin, some servicePort, some records, some validFrom, some validUntil =>
    if now < validFrom then .error .completionNotYetValid
    else if validUntil < now then .error .completionExpired
    else .ok ⟨origin, servicePort, records, validFrom, validUntil⟩

/-- The decision is a fresh HTTPS decision for HNS with DANE over TCP whose plan agrees
with the completion. -/
def bindingAgrees (decision : NamespaceDecision) (completion : DaneCompletion)
    (binding : BridgeBinding) (now : Nat) : Bool :=
  decision.selectedPlan.any fun plan =>
    (LogicalOrigin.fromNamespaceDecision decision).scheme == .https &&
      (LogicalOrigin.fromNamespaceDecision decision).host == binding.origin &&
      decision.selectedNamespace == some .hns && plan.tlsPolicy == .dane &&
      plan.service.transport == .tcp && plan.service.effectivePort.val == binding.servicePort &&
      decision.isFreshAt now && planRecordsMatch plan binding.records &&
      anchorMatches decision plan completion

/-- The transition into BrowserBridgeReady, if the state is the one before it. -/
def readyBridge : EngineM Unit := do
  let state ← Effect.get
  if state.runtime.authorityState = .daneOriginVerified then do
    let _ ← transition .browserBridgeReady
    return ()
  else return ()

/-- Bind a strict HNS completion to one exact namespace decision. -/
def bindHnsOriginContext (decision : NamespaceDecision) (completion : DaneCompletion) (now : Nat) :
    EngineM AuthenticatedOriginContext := do
  let binding ← Effect.ofExcept (bridgeBinding completion now)
  if bindingAgrees decision completion binding now = false then
    Effect.throw .providerAuthenticationMismatch
  else do
    let before ← Effect.get
    if networkMatches before.network decision.hnsNetwork = false ∨
        before.runtime.authorityState ∉ [.daneOriginVerified, .browserBridgeReady, .active] then
      Effect.throw .providerAuthenticationMismatch
    else if completionIsCurrent before completion = false then Effect.throw .completionNotCurrent
    else do
      readyBridge
      let contextStamp ← admitEvent
      let state ← Effect.get
      return stampOriginContext crypto state decision .hnsDaneVerified binding.validFrom
        (min decision.expiresAtUnix (Primitives.saturatingAdd binding.validUntil 1))
        (some contextStamp)

/-- The fields of a completion that a bridge needs, if `now` is within its validity. -/
def bridgeGrant (completion : DaneCompletion) (now : Nat) :
    Except EngineError (Octets × UInt16 × Nat × Nat) :=
  match completion.originSni, completion.bridgeValidFrom, completion.bridgeValidUntil,
      completion.bridgeServicePort with
  | none, _, _, _ => .error .legacyCompletionNotBridgeable
  | some _, none, _, _ => .error .legacyCompletionNotBridgeable
  | some _, some _, none, _ => .error .legacyCompletionNotBridgeable
  | some _, some _, some _, none => .error .unsupportedBridgeService
  | some origin, some validFrom, some validUntil, some servicePort =>
    if now < validFrom then .error .completionNotYetValid
    else if validUntil < now then .error .completionExpired
    else .ok (origin, servicePort, validFrom, validUntil)

/-- Authorize the exact origin of a completion for the browser bridge. -/
def authorizeBrowserBridge (completion : DaneCompletion) (now : Nat) :
    EngineM BrowserBridgeAuthorization := do
  let (origin, servicePort, validFrom, validUntil) ← Effect.ofExcept (bridgeGrant completion now)
  let before ← Effect.get
  if before.runtime.authorityState ∉ [.daneOriginVerified, .browserBridgeReady, .active] then
    Effect.throw .authorityNotReady
  else if completionIsCurrent before completion = false then Effect.throw .completionNotCurrent
  else do
    transitionOrAdmit .daneOriginVerified .browserBridgeReady
    let state ← Effect.get
    return {
      runtimeSession := state.runtime.session.bytes
      runtimeGeneration := state.runtime.generation
      policyGeneration := state.policy.snapshot.generation
      eventSequence := state.runtime.eventSequence
      validFrom := validFrom
      validUntil := validUntil
      origin := origin
      servicePort := servicePort }

end HnsDaneEngine.Engine

/-!
## Provider authorities

A context becomes an authority when the engine permits the injection of a wallet
provider for a decision.  An authority is checked again in two ways: against the
decision, which replaces it, and by its own fields alone.
-/

namespace HnsDaneEngine.Engine

open Browser.Runtime Control NamespaceResolution

variable (crypto : LocalCrypto)

/-- Why a grant is denied. -/
inductive ProviderInjectionDenialReason
  | insecureOrigin
  | noSelectedNamespace
  | unauthenticatedContext
  | originMismatch
  | namespaceMismatch
  | decisionMismatch
  | decisionStale
  | networkMismatch
  | staleRuntimeSession
  | staleRuntimeGeneration
  | stalePolicyGeneration
  | staleAuthenticationEvent
  | authorityNotReady
  | authorityDegraded
  | authorityRevoked
  | authorityStopped
  | authenticationPolicyMismatch
  | authenticationNotYetValid
  | authenticationExpired
  | unsupportedOriginScheme
  deriving DecidableEq

/-- A grant as shown to a page. -/
structure ProviderInjectionDecision where
  logicalOrigin : LogicalOrigin
  selectedNamespace : Option Namespace
  authenticatedContext : AuthenticatedContextStatus
  runtimeSession : Octets
  runtimeGeneration : Nat
  policyGeneration : Nat
  eventSequence : Nat
  decisionFingerprint : Octets
  authorityState : AuthorityState
  permitted : Bool
  denialReason : Option ProviderInjectionDenialReason
  deriving DecidableEq

/-- A grant or a denial. -/
inductive ProviderAuthorityOutcome
  | authorized (context : ProviderAuthorityContext)
  | denied (decision : ProviderInjectionDecision)
  deriving DecidableEq

def authorityDenial : AuthorityState → Option ProviderInjectionDenialReason
  | .browserBridgeReady | .active => none
  | .degraded => some .authorityDegraded
  | .revoked => some .authorityRevoked
  | .stopped => some .authorityStopped
  | _ => some .authorityNotReady

/-- The namespace and TLS policy that an authentication path belongs to. -/
def authenticationMatches : Namespace → TlsTrustPolicy → AuthenticatedContextStatus → Bool
  | .hns, .dane, .hnsDaneVerified => true
  | .icann, .dane, .icannDaneVerified => true
  | .icann, .webPkiAuthenticatedAbsence, .icannWebPkiAuthenticatedAbsence => true
  | .icann, .webPkiInsecureDelegation, .icannWebPkiInsecureDelegation => true
  | _, _, _ => false

def authenticationPolicyDenial (decision : NamespaceDecision)
    (status : AuthenticatedContextStatus) : Option ProviderInjectionDenialReason :=
  match decision.selectedPlan with
  | none => some .authenticationPolicyMismatch
  | some plan =>
    if decision.selectedNamespace.any fun selected =>
        authenticationMatches selected plan.tlsPolicy status then none
    else some .authenticationPolicyMismatch

def authenticatedContextIsAdmitted (state : EngineState) (context : AuthenticatedOriginContext) :
    Bool :=
  context.admissionStamp.any fun stamp =>
    stamp.session.bytes == context.runtimeSession &&
      stamp.generation == context.runtimeGeneration &&
      stamp.eventSequence == context.eventSequence && state.runtime.admits stamp

/-- The first reason against the injection. -/
def denialReason (state : EngineState) (decision : NamespaceDecision)
    (context : AuthenticatedOriginContext) (now : Nat) : Option ProviderInjectionDenialReason :=
  let logicalOrigin := LogicalOrigin.fromNamespaceDecision decision
  if logicalOrigin.isSecure = false then some .insecureOrigin
  else if logicalOrigin.scheme ≠ .https then some .unsupportedOriginScheme
  else if decision.selectedNamespace = none then some .noSelectedNamespace
  else if context.status = .unauthenticated then some .unauthenticatedContext
  else if context.logicalOrigin ≠ logicalOrigin then some .originMismatch
  else if context.selectedNamespace ≠ decision.selectedNamespace then some .namespaceMismatch
  else if context.decisionFingerprint ≠ crypto.decisionFingerprint decision then
    some .decisionMismatch
  else if decision.isFreshAt now = false then some .decisionStale
  else if networkMatches state.network decision.hnsNetwork = false then some .networkMismatch
  else
    (authorityDenial state.runtime.authorityState).or <|
      if context.runtimeSession ≠ state.runtime.session.bytes then some .staleRuntimeSession
      else if context.runtimeGeneration ≠ state.runtime.generation then some .staleRuntimeGeneration
      else if context.policyGeneration ≠ state.policy.snapshot.generation then
        some .stalePolicyGeneration
      else if authenticatedContextIsAdmitted state context = false then
        some .staleAuthenticationEvent
      else
        (authenticationPolicyDenial decision context.status).or <|
          if now < context.validFrom then some .authenticationNotYetValid
          else if context.validUntil ≤ now then some .authenticationExpired
          else none

def evaluateProviderInjection (state : EngineState) (decision : NamespaceDecision)
    (context : AuthenticatedOriginContext) (now : Nat) : ProviderInjectionDecision where
  logicalOrigin := .fromNamespaceDecision decision
  selectedNamespace := decision.selectedNamespace
  authenticatedContext := context.status
  runtimeSession := state.runtime.session.bytes
  runtimeGeneration := state.runtime.generation
  policyGeneration := state.policy.snapshot.generation
  eventSequence := state.runtime.eventSequence
  decisionFingerprint := crypto.decisionFingerprint decision
  authorityState := state.runtime.authorityState
  permitted := (denialReason crypto state decision context now).isNone
  denialReason := denialReason crypto state decision context now

/-- The evaluation with its permission withdrawn. -/
def ProviderInjectionDecision.deny (evaluation : ProviderInjectionDecision)
    (reason : ProviderInjectionDenialReason) : ProviderInjectionDecision :=
  { evaluation with permitted := false, denialReason := some reason }

/-- The lifetime of a context, narrowed to the decision and to what is left of it. -/
def AuthenticatedOriginContext.narrow (context : AuthenticatedOriginContext)
    (decision : NamespaceDecision) (now : Nat) : AuthenticatedOriginContext :=
  { context with
    validFrom := max context.validFrom now
    validUntil := min context.validUntil decision.expiresAtUnix }

def providerAuthorityOutcome (decision : NamespaceDecision) (context : AuthenticatedOriginContext)
    (evaluation : ProviderInjectionDecision) (now : Nat) : ProviderAuthorityOutcome :=
  if evaluation.permitted = false then .denied evaluation
  else
    match decision.selectedNamespace, decision.selectedPlan with
    | some selectedNamespace, some plan =>
      if plan.service.transport ≠ .tcp then
        .denied (evaluation.deny .authenticationPolicyMismatch)
      else
        .authorized {
          originContext := context.narrow decision now
          selectedNamespace := selectedNamespace
          hnsNetwork := decision.hnsNetwork
          servicePort := plan.service.effectivePort.val
          tlsPolicy := plan.tlsPolicy }
    | _, _ => .denied (evaluation.deny .noSelectedNamespace)

def ProviderAuthorityContext.matchesDecision (authority : ProviderAuthorityContext)
    (decision : NamespaceDecision) : Bool :=
  decision.selectedPlan.any fun plan =>
    authority.logicalOrigin == .fromNamespaceDecision decision &&
      decision.selectedNamespace == some authority.selectedNamespace &&
      decision.hnsNetwork == authority.hnsNetwork && plan.service.transport == .tcp &&
      plan.service.effectivePort.val == authority.servicePort &&
      plan.tlsPolicy == authority.tlsPolicy &&
      crypto.decisionFingerprint decision == authority.decisionFingerprint

/-- The evaluation of an authority, which must also match the decision. -/
def reevaluate (state : EngineState) (decision : NamespaceDecision)
    (authority : ProviderAuthorityContext) (now : Nat) : ProviderInjectionDecision :=
  let evaluation := evaluateProviderInjection crypto state decision authority.originContext now
  if evaluation.permitted && !authority.matchesDecision crypto decision then
    evaluation.deny .decisionMismatch
  else evaluation

def authorizeProviderInjection (decision : NamespaceDecision)
    (context : AuthenticatedOriginContext) (now : Nat) : EngineM ProviderAuthorityOutcome := do
  let state ← Effect.get
  return providerAuthorityOutcome decision context
    (evaluateProviderInjection crypto state decision context now) now

def revalidateProviderAuthority (decision : NamespaceDecision)
    (authority : ProviderAuthorityContext) (now : Nat) : EngineM ProviderAuthorityOutcome := do
  let state ← Effect.get
  return providerAuthorityOutcome decision authority.originContext
    (reevaluate crypto state decision authority now) now

def providerAuthorityIsCurrentInState (state : EngineState) (authority : ProviderAuthorityContext)
    (now : Nat) : Bool :=
  let context := authority.originContext
  (authorityDenial state.runtime.authorityState).isNone && context.logicalOrigin.isSecure &&
    context.logicalOrigin.scheme == .https &&
    context.selectedNamespace == some authority.selectedNamespace && authority.servicePort != 0 &&
    authenticationMatches authority.selectedNamespace authority.tlsPolicy context.status &&
    context.runtimeSession == state.runtime.session.bytes &&
    context.runtimeGeneration == state.runtime.generation &&
    context.policyGeneration == state.policy.snapshot.generation &&
    networkMatches state.network authority.hnsNetwork &&
    authenticatedContextIsAdmitted state context &&
    decide (context.validFrom ≤ now) && decide (now < context.validUntil)

def providerAuthorityIsCurrent (authority : ProviderAuthorityContext) (now : Nat) :
    EngineM Bool := do
  let state ← Effect.get
  return providerAuthorityIsCurrentInState state authority now

end HnsDaneEngine.Engine
