import HnsDaneEngine.Browser.Resolver.Doh
import HnsDaneEngine.Engine.State
import HnsDaneEngine.Wire.Parse
import Mathlib.Data.List.DropRight

/-!
# Policy, authority and resolutions

The calls that change the policy and the authority state, and those that carry one
resolution from its admission to its completion.
-/

namespace HnsDaneEngine.Engine

open Browser.Runtime Control Policy
open Transport (GatewaySelection)
open Wire (Message ParseLimits Query Rdata RecordType Tlsa)

/-- The capacity check of `update_policy`, which runs only for a changed configuration. -/
def ensurePolicyCapacity (state : EngineState) (next : PolicyConfig) : Except EngineError Unit :=
  if state.policy.snapshot.config ≠ next then
    state.runtime.ensurePolicyChangeCapacity.mapError mapRuntimeError
  else .ok ()

/-- Replace policy and increment runtime generation when it changes. -/
def updatePolicy (expectedPolicyGeneration : Nat) (next : PolicyConfig) :
    EngineM PolicyTransition := do
  let state ← Effect.get
  Effect.ofExcept (ensurePolicyCapacity state next)
  let (change, policy) ← Effect.ofExcept
    ((state.policy.replace expectedPolicyGeneration next).mapError .policy)
  Effect.modify fun state => { state with policy }
  if change.changed then do
    let _ ← policyChanged
    setEvidence none .revoked
    return change
  else return change

/-- What a transition of the authority leaves of the last resolution. -/
def forgetEvidence : AuthorityState → EngineM Unit
  | .degraded => setEvidence none unavailableEvidence
  | .revoked | .stopped => setEvidence none .revoked
  | _ => return ()

/-- Advance the explicit authority state machine. -/
def advanceAuthorityState (next : AuthorityState) : EngineM EngineSnapshot := do
  let _ ← transition next
  forgetEvidence next
  let state ← Effect.get
  return state.snapshot

def resolutionTransportReady : AuthorityState → Bool
  | .resolutionTransportReady => true
  | .dnssecVerified => true
  | .daneOriginVerified => true
  | .browserBridgeReady => true
  | .active => true
  | _ => false

/-- Admit one exact query on one current transport. -/
def admitResolution (transport : ResolutionTransport) (query : Query) :
    EngineM ResolutionAttempt := do
  let state ← Effect.get
  if !resolutionTransportReady state.runtime.authorityState then Effect.throw .authorityNotReady
  else do
    let admission ← Effect.ofExcept ((state.policy.permit transport).mapError .policy)
    let runtimeStamp ← admitEvent
    return ⟨runtimeStamp, admission, query⟩

def ensureCurrent (state : EngineState) (attempt : ResolutionAttempt) : Except EngineError Unit :=
  if !state.runtime.admits attempt.runtimeStamp then .error .staleRuntimeGeneration
  else (state.policy.acceptCompletion attempt.admission).mapError .policy

/-- The AD bit of a response, which is no evidence. -/
def untrustedAdClaim (message : Message) : Bool :=
  message.header.flags.bits &&& 0x0020 != 0

/-- Parse and correlate transport bytes. -/
def parseResponse (attempt : ResolutionAttempt) (response : Octets) (limits : ParseLimits) :
    EngineM ParsedResponse := do
  let state ← Effect.get
  Effect.ofExcept (ensureCurrent state attempt)
  let message ← Effect.ofExcept ((Message.parseWithLimits response limits).mapError .wire)
  Effect.ofExcept ((attempt.query.correlate message).mapError .wire)
  return ⟨attempt.runtimeStamp, message, untrustedAdClaim message⟩

def maxTransportIdentityBytes : Nat := 256

def validIdentity (identity? : Option Octets) : Bool :=
  identity?.all fun identity => !identity.isEmpty && identity.length ≤ maxTransportIdentityBytes

/-- The identities that a transport must and may have. -/
def validateCompletionContext (transport : ResolutionTransport) (context : CompletionContext) :
    Except EngineError Unit :=
  if !(validIdentity context.peerIdentity && validIdentity context.proxyIdentity &&
      validIdentity context.targetIdentity) then .error .invalidTransportIdentity
  else
    match transport with
    | .handshakeP2pOdoh =>
      if context.proxyIdentity.isNone then .error .missingTransportIdentity
      else if context.targetIdentity.isNone then .error .missingTransportIdentity
      else if context.proxyIdentity = context.targetIdentity then .error .proxyTargetNotSeparated
      else if context.peerIdentity.isSome || context.directRelayFallback then
        .error .invalidCompletionContext
      else .ok ()
    | .handshakeP2pDnsRelay =>
      if context.peerIdentity.isNone then .error .missingTransportIdentity
      else if context.proxyIdentity.isSome || context.targetIdentity.isSome then
        .error .invalidCompletionContext
      else .ok ()
    | .directAuthoritativeUdp | .directAuthoritativeTcp | .authenticatedAuthoritativeDoh
    | .userConfiguredRecursiveHnsDoh =>
      if context.peerIdentity.isSome || context.proxyIdentity.isSome ||
          context.targetIdentity.isSome || context.directRelayFallback then
        .error .invalidCompletionContext
      else .ok ()
    | .unavailable | .validatingIcannDoh | .localHnsProof => .error .invalidCompletionContext

/-- Admit a gateway selection under the current policy and runtime. -/
def admitGatewaySelection (selection : GatewaySelection) (query : Query) (limits : ParseLimits) :
    EngineM GatewayResolution := do
  let message ← Effect.ofExcept ((Message.parseWithLimits selection.response limits).mapError .wire)
  Effect.ofExcept ((query.correlate message).mapError .wire)
  let context : CompletionContext :=
    ⟨none, selection.identities.peer, selection.identities.proxy, selection.identities.target,
      selection.directRelayFallback⟩
  Effect.ofExcept (validateCompletionContext selection.transport context)
  let state ← Effect.get
  if state.policy.snapshot.generation ≠ selection.policyGeneration then
    Effect.throw .staleGatewaySelection
  else if !resolutionTransportReady state.runtime.authorityState then
    Effect.throw .authorityNotReady
  else do
    let admission ← Effect.ofExcept ((state.policy.permit selection.transport).mapError .policy)
    let runtimeStamp ← admitEvent
    return ⟨⟨runtimeStamp, admission, query⟩, ⟨runtimeStamp, message, untrustedAdClaim message⟩,
      context⟩

/-- Move from a state into the next one, or admit an event in a later state. -/
def transitionOrAdmit (start next : AuthorityState) : EngineM Unit := do
  let state ← Effect.get
  if state.runtime.authorityState = start then do
    let _ ← transition next
    return ()
  else do
    let _ ← admitEvent
    return ()

/-- Record a completed resolution of a current attempt. -/
def completeResolution (attempt : ResolutionAttempt) (response : ParsedResponse)
    (evidence : ValidationEvidence) (context : CompletionContext) :
    EngineM ResolutionProvenance := do
  Effect.ofExcept (validateCompletionContext attempt.transport context)
  let state ← Effect.get
  Effect.ofExcept (ensureCurrent state attempt)
  if state.runtime.authorityState ∉ [.dnssecVerified, .daneOriginVerified, .browserBridgeReady,
      .active] then Effect.throw .authorityNotReady
  else do
    transitionOrAdmit .dnssecVerified .daneOriginVerified
    let state ← Effect.get
    let provenance : ResolutionProvenance :=
      { schemaVersion := 1
        runtimeSession := state.runtime.session.bytes
        runtimeGeneration := state.runtime.generation
        policyGeneration := attempt.admission.policyGeneration
        eventSequence := state.runtime.eventSequence
        network := state.network
        chainAnchor := context.chainAnchor
        transport := attempt.admission.transport
        peerIdentity := context.peerIdentity
        proxyIdentity := context.proxyIdentity
        targetIdentity := context.targetIdentity
        directRelayFallback := context.directRelayFallback
        registryProfile := state.policy.snapshot.config.wireProfile
        evidence := evidence
        untrustedAdClaim := response.untrustedAdClaim }
    Effect.ofExcept (provenance.requireVerifiedHnsHttps.mapError .policy)
    setEvidence (some provenance) provenance.evidence
    return provenance

/-- The TLSA answers for the exact query. -/
def exactTlsaAnswers (attempt : ResolutionAttempt) (response : ParsedResponse) : List Tlsa :=
  (response.message.answers.filter fun record =>
    record.name == attempt.query.question.name && record.recordType == .tlsa &&
      record.class_ == attempt.query.question.class_).filterMap fun record =>
    match record.rdata with
    | .tlsa tlsa => some tlsa
    | _ => none

/-- Complete a TLSA response after matching its records to the leaf certificate. -/
def completeResolutionWithLocalDane (crypto : LocalCrypto) (attempt : ResolutionAttempt)
    (response : ParsedResponse) (prerequisites : LocalDanePrerequisites)
    (certificateDer : Octets) (limits : DaneLimits) (context : CompletionContext) :
    EngineM DaneCompletion :=
  if response.attemptStamp ≠ attempt.runtimeStamp then Effect.throw .responseAttemptMismatch
  else if response.message.header.flags.rcode ≠ 0 then Effect.throw .unsuccessfulDnsResponse
  else if attempt.query.question.recordType ≠ .tlsa ∨
      attempt.query.question.class_ ≠ Wire.classIn then Effect.throw .expectedTlsaQuery
  else if !prerequisites.fullyVerified then Effect.throw (.policy .unverifiedEvidence)
  else do
    let daneMatch ← Effect.ofExcept
      ((crypto.verifyDaneEe certificateDer (exactTlsaAnswers attempt response) limits).mapError
        .dane)
    let evidence : ValidationEvidence :=
      ⟨prerequisites.hnsProof, prerequisites.dnssec, .verified, .verified,
        prerequisites.chainCurrent, prerequisites.originSni⟩
    let provenance ← completeResolution attempt response evidence context
    return ⟨attempt.runtimeStamp, provenance, daneMatch, none, none, none, none, none⟩

def networkId : Network → UInt8
  | .mainnet => 0
  | .testnet => 1
  | .regtest => 2
  | .simnet => 3

/-- `Network::id` of the anchor that authenticated a resource. -/
def anchorNetworkId : Resolver.Network → UInt8
  | .mainnet => 0
  | .testnet => 1
  | .regtest => 2
  | .simnet => 3

/-- The data of the records, sorted and without repetition. -/
def canonicalTlsaRdata (records : List Tlsa) : List Octets :=
  NamespaceResolution.dedup <| NamespaceResolution.sortByKey (fun rdata => rdata.map UInt8.toNat) <|
    records.map fun record =>
      record.usage :: record.selector :: record.matchingType :: record.associationData

/-- The port of an owner `_port._tcp`. -/
def tlsaTcpServicePort (owner : Wire.Name) : Option UInt16 :=
  match owner.labels with
  | (0x5f :: digits) :: [0x5f, 0x74, 0x63, 0x70] :: _ => do
    let port ← Browser.Resolver.parseU16 (← Browser.Resolver.fromUtf8 digits)
    if port ≠ 0 then some port else none
  | _ => none

/-- What `complete_resolution_with_validated_tlsa` checks before it matches records. -/
def checkValidatedTlsa (state : EngineState) (attempt : ResolutionAttempt)
    (response : ParsedResponse) (input : ValidatedDaneInput) :
    Except EngineError Resolver.HnsAuthorityEvidence :=
  if response.attemptStamp ≠ attempt.runtimeStamp then .error .responseAttemptMismatch
  else if response.message.header.flags.rcode ≠ 0 then .error .unsuccessfulDnsResponse
  else if attempt.query.question.recordType ≠ .tlsa ∨ attempt.query.question.class_ ≠ Wire.classIn ∨
      attempt.query.question.name ≠ input.validated.terminalOwner then .error .expectedTlsaQuery
  else
    match input.validated.hnsAuthority with
    | none => .error .missingHnsAuthority
    | some authority =>
      if input.validationUnixTime ≠ authority.validationTime.toNat then
        .error .validationTimeMismatch
      else if input.validated.expiresAtUnix ≤ input.validated.validatedAtUnix then
        .error .completionExpired
      else if networkId state.network ≠ anchorNetworkId authority.anchor.network then
        .error .hnsNetworkMismatch
      else if input.originSni ≠ input.validated.baseDomainAscii then .error .originSniMismatch
      else if exactTlsaAnswers attempt response ≠ input.validated.records then
        .error .responseEvidenceMismatch
      else .ok authority

/-- Complete from non-forgeable local DNSSEC and TLSA evidence. -/
def completeResolutionWithValidatedTlsa (crypto : LocalCrypto) (attempt : ResolutionAttempt)
    (response : ParsedResponse) (input : ValidatedDaneInput) (context : CompletionContext) :
    EngineM DaneCompletion := do
  let state ← Effect.get
  let authority ← Effect.ofExcept (checkValidatedTlsa state attempt response input)
  let daneMatch ← Effect.ofExcept
    ((crypto.verifyDaneChain input.certificateChainDer input.validated.baseDomainAscii
      input.validated.records input.validationUnixTime input.limits).mapError .dane)
  let derivedAnchor : ChainAnchor := ⟨authority.anchor.height, authority.anchor.treeRoot.bytes⟩
  if context.chainAnchor.any (· != derivedAnchor) then Effect.throw .chainAnchorMismatch
  else do
    let provenance ← completeResolution attempt response (.uniform .verified)
      { context with chainAnchor := some derivedAnchor }
    return {
      admissionStamp := attempt.runtimeStamp
      provenance := provenance
      daneMatch := daneMatch
      originSni := some ((input.originSni.rdropWhile (· == 0x2e)).map Wire.toAsciiLowercase)
      bridgeServicePort := tlsaTcpServicePort input.validated.requestedOwner
      bridgeTlsaRecords := some (canonicalTlsaRdata input.validated.records)
      bridgeValidFrom := some input.validated.validatedAtUnix
      bridgeValidUntil :=
        if input.validated.expiresAtUnix = 0 then none
        else some (input.validated.expiresAtUnix - 1) }

end HnsDaneEngine.Engine
