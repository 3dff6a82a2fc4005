import HnsDaneEngine.Data.Keyed
import HnsDaneEngine.LoopbackProxy.Request

/-!
# The session of a loopback proxy

A session admits authenticated requests, publishes provider authorities and turns a
request into a tunnel grant under one publication.  The engine is shared with other
threads: each of its answers during a call is arbitrary.
-/

namespace HnsDaneEngine.LoopbackProxy

open Browser.Runtime (AuthorityState)
open Control
open Data (Store)
open Engine
open NamespaceResolution (HnsNetwork Namespace SocketAddr TlsTrustPolicy)
open Primitives (checkedAdd)

/-- Native process and listener lifecycle identity. -/
structure ProxyInstanceIdentity where
  processSession : Octets
  processGeneration : Nat
  listenerGeneration : Nat
  session_ne : processSession ≠ List.replicate 16 0
  process_ne : processGeneration ≠ 0
  listener_ne : listenerGeneration ≠ 0

def ProxyInstanceIdentity.new (processSession : Octets)
    (processGeneration listenerGeneration : Nat) : Except ProxyError ProxyInstanceIdentity :=
  if session_eq : processSession = List.replicate 16 0 then .error .zeroProcessSession
  else if process_eq : processGeneration = 0 then .error .zeroProcessGeneration
  else if listener_eq : listenerGeneration = 0 then .error .zeroListenerGeneration
  else .ok ⟨processSession, processGeneration, listenerGeneration, session_eq, process_eq,
    listener_eq⟩

/-- One proxy instance configuration. -/
structure ProxyConfig where
  endpoint : LoopbackEndpoint
  instanceIdentity : ProxyInstanceIdentity
  runtimeSession : Octets
  runtimeGeneration : Nat
  scope : HostScope
  authorization : ProxyAuthorization
  limits : ProxyLimits
  session_ne : runtimeSession ≠ List.replicate 16 0
  generation_ne : runtimeGeneration ≠ 0
  limits_valid : limits.Valid

def ProxyConfig.new (endpoint : LoopbackEndpoint) (instanceIdentity : ProxyInstanceIdentity)
    (runtimeSession : Octets) (runtimeGeneration : Nat) (scope : HostScope)
    (authorization : ProxyAuthorization) (limits : ProxyLimits) : Except ProxyError ProxyConfig :=
  if session_eq : runtimeSession = List.replicate 16 0 then .error .zeroRuntimeSession
  else if generation_eq : runtimeGeneration = 0 then .error .zeroRuntimeGeneration
  else if valid : limits.Valid then
    .ok ⟨endpoint, instanceIdentity, runtimeSession, runtimeGeneration, scope, authorization,
      limits, session_eq, generation_eq, valid⟩
  else .error .invalidLimits

/-- A request under way. -/
structure PendingRecord where
  host : NormalizedHost
  port : UInt16
  admittedAt : Nat
  expiresAt : Nat
  deriving DecidableEq

/-- Authenticated CONNECT that waits for its provider authority. -/
structure PendingConnect where
  instanceId : Nat
  sequence : Nat
  host : NormalizedHost
  port : UInt16
  admittedAt : Nat
  expiresAt : Nat
  deriving DecidableEq

def PendingConnect.record (pending : PendingConnect) : PendingRecord :=
  ⟨pending.host, pending.port, pending.admittedAt, pending.expiresAt⟩

/-- A published authority. -/
structure PublicationRecord where
  publicationId : Nat
  publicationGeneration : Nat
  selectedNamespace : Namespace
  authenticatedContext : AuthenticatedContextStatus
  hnsNetwork : HnsNetwork
  servicePort : UInt16
  tlsPolicy : TlsTrustPolicy
  runtimeSession : Octets
  runtimeGeneration : Nat
  policyGeneration : Nat
  eventSequence : Nat
  decisionFingerprint : Octets
  authorityValidFrom : Nat
  authorityValidUntil : Nat
  publishedAt : Nat
  publicationValidUntil : Nat
  endpoint : LoopbackEndpoint
  processSession : Octets
  processGeneration : Nat
  listenerGeneration : Nat
  authority : ProviderAuthorityContext

/-- Handle to one published provider authority. -/
structure PublishedAdmission where
  instanceId : Nat
  logicalOrigin : LogicalOrigin
  publicationId : Nat
  publicationGeneration : Nat
  registryGeneration : Nat
  endpoint : LoopbackEndpoint
  processSession : Octets
  processGeneration : Nat
  listenerGeneration : Nat
  deriving DecidableEq

/-- Short-lived permission for one tunnel. -/
structure TunnelGrant where
  instanceId : Nat
  logicalOrigin : LogicalOrigin
  selectedNamespace : Namespace
  authenticatedContext : AuthenticatedContextStatus
  hnsNetwork : HnsNetwork
  servicePort : UInt16
  tlsPolicy : TlsTrustPolicy
  runtimeSession : Octets
  runtimeGeneration : Nat
  policyGeneration : Nat
  eventSequence : Nat
  decisionFingerprint : Octets
  authorityValidFrom : Nat
  authorityValidUntil : Nat
  endpoint : LoopbackEndpoint
  processSession : Octets
  processGeneration : Nat
  listenerGeneration : Nat
  registryGeneration : Nat
  publicationId : Nat
  publicationGeneration : Nat
  connectSequence : Nat
  issuedAt : Nat
  expiresAt : Nat
  deriving DecidableEq

/-- What one call sees of the engine.  Every currency check has its own answer, because
other threads may use the engine between two of them. -/
structure EngineView where
  snapshot : Except EngineError EngineSnapshot
  providerAuthorityIsCurrent : Nat → ProviderAuthorityContext → Nat → Except EngineError Bool

/-- The registry of one proxy. -/
structure ProxySession where
  instanceId : Nat
  config : ProxyConfig
  lastObservedTime : Option Nat
  sequence : Nat
  pending : Store Nat PendingRecord
  registryGeneration : Nat
  publicationSequence : Nat
  publications : Store LogicalOrigin PublicationRecord

variable (session : ProxySession)

namespace ProxySession

/-- The state of a session that nobody has used. -/
def opened (instanceId : Nat) (config : ProxyConfig) : ProxySession where
  instanceId := instanceId
  config := config
  lastObservedTime := none
  sequence := 0
  pending := ∅
  registryGeneration := 1
  publicationSequence := 0
  publications := ∅

/-- Open one session with the next identifier of the process. -/
def new (nextInstanceId : Nat) (config : ProxyConfig) : Except ProxyError (ProxySession × Nat) :=
  match checkedAdd nextInstanceId 1 with
  | some next => .ok (opened nextInstanceId config, next)
  | none => .error .instanceSequenceExhausted

def ensureRegistryGeneration (expected : Nat) : Except ProxyError Unit :=
  if expected ≠ session.registryGeneration then .error .staleRegistryGeneration else .ok ()

/-- The session with the clock value, which must not be before the last one. -/
def observeTime (now : Nat) : Except ProxyError ProxySession :=
  if session.lastObservedTime.any (now < ·) then .error .clockRollback
  else .ok { session with lastObservedTime := some now }

def nextRegistryGeneration : Except ProxyError Nat :=
  match checkedAdd session.registryGeneration 1 with
  | some next => .ok next
  | none => .error .registryGenerationExhausted

def isReady (bridgeRequired : Bool) : AuthorityState → Bool
  | .browserBridgeReady | .active => true
  | .resolutionTransportReady | .dnssecVerified | .daneOriginVerified => !bridgeRequired
  | _ => false

def ensureRuntimeReady (snapshot : EngineSnapshot)
    (bridgeRequired : Bool) : Except ProxyError Unit :=
  if snapshot.runtimeSession ≠ session.config.runtimeSession ∨
      snapshot.runtimeGeneration ≠ session.config.runtimeGeneration then .error .staleRuntime
  else if !isReady bridgeRequired snapshot.authorityState then .error .authorityNotReady
  else .ok ()

/-- The snapshot of an engine that is ready for the call. -/
def readyEngine (engine : EngineView) (bridgeRequired : Bool) :
    Except ProxyError EngineSnapshot := do
  let snapshot ← engine.snapshot.mapError .engine
  session.ensureRuntimeReady snapshot bridgeRequired
  return snapshot


/-- What a record repeats of its authority is still true of it. -/
def agreesWithAuthority (publication : PublicationRecord) : Bool :=
  let authority := publication.authority
  publication.selectedNamespace == authority.selectedNamespace &&
    publication.authenticatedContext == authority.authenticatedContext &&
    publication.hnsNetwork == authority.hnsNetwork &&
    publication.servicePort == authority.servicePort &&
    publication.tlsPolicy == authority.tlsPolicy &&
    publication.runtimeSession == authority.runtimeSession &&
    publication.runtimeGeneration == authority.runtimeGeneration &&
    publication.policyGeneration == authority.policyGeneration &&
    publication.eventSequence == authority.eventSequence &&
    publication.decisionFingerprint == authority.decisionFingerprint &&
    publication.authorityValidFrom == authority.validFrom &&
    publication.authorityValidUntil == authority.validUntil

/-- The record has begun and has not expired, and neither has its authority. -/
def isWithinLifetime (publication : PublicationRecord) (now : Nat) : Bool :=
  publication.authorityValidFrom ≤ now && now < publication.authorityValidUntil &&
    publication.publishedAt ≤ now && now < publication.publicationValidUntil

/-- Whether a record is current; `read` numbers the question to the engine. -/
def publicationIsCurrent (engine : EngineView) (read : Nat) (publication : PublicationRecord)
    (now : Nat) : Except ProxyError Bool :=
  if agreesWithAuthority publication && isWithinLifetime publication now then
    (engine.providerAuthorityIsCurrent read publication.authority now).mapError .engine
  else .ok false

/-- The record that an admission was issued for. -/
def validateAdmission (admission : PublishedAdmission) : Except ProxyError PublicationRecord :=
  let identity := session.config.instanceIdentity
  if admission.instanceId ≠ session.instanceId ∨ admission.endpoint ≠ session.config.endpoint ∨
      admission.processSession ≠ identity.processSession ∨
      admission.processGeneration ≠ identity.processGeneration ∨
      admission.listenerGeneration ≠ identity.listenerGeneration then .error .publicationMismatch
  else
    match session.publications.lookup admission.logicalOrigin with
    | none => .error .publicationMismatch
    | some record =>
      if record.publicationId ≠ admission.publicationId ∨
          record.publicationGeneration ≠ admission.publicationGeneration ∨
          record.endpoint ≠ admission.endpoint ∨
          record.processSession ≠ admission.processSession ∨
          record.processGeneration ≠ admission.processGeneration ∨
          record.listenerGeneration ≠ admission.listenerGeneration then
        .error .publicationMismatch
      else .ok record

/-- The token of a request that passes every check behind the client's address. -/
def prepareConnect (requestHead : Octets) (now : Nat) : Except ProxyError PendingConnect :=
  if session.config.limits.maximumPending ≤ session.pending.size then .error .pendingLimit
  else do
    let parsed ← parseConnectHead requestHead session.config.limits
    let host ← session.config.scope.authorize parsed.host.asStr
    if !session.config.authorization.verifyHeaderValues parsed.authorization then
      .error .authenticationFailed
    else
      match checkedAdd session.sequence 1 with
      | none => .error .requestSequenceExhausted
      | some sequence =>
        match checkedAdd now session.config.limits.maximumPendingLifetimeSeconds with
        | none => .error .timeOverflow
        | some expiresAt =>
          .ok ⟨session.instanceId, sequence, host, parsed.port, now, expiresAt⟩

/-- The session without the requests that have expired. -/
def retainPending (now : Nat) : ProxySession :=
  { session with pending := session.pending.retain fun record => now < record.expiresAt }

def admitConnect (engine : EngineView) (client : SocketAddr)
    (requestHead : Octets) (now : Nat) : Except ProxyError PendingConnect × ProxySession :=
  match (session.readyEngine engine false >>= fun _ => session.observeTime now) with
  | .error error => (.error error, session)
  | .ok observed =>
    if !isLoopback client.ip then (.error .nonLoopbackClient, observed)
    else
      let retained := observed.retainPending now
      match retained.prepareConnect requestHead now with
      | .error error => (.error error, retained)
      | .ok pending =>
        (.ok pending,
          { retained with
            pending := retained.pending.insert pending.sequence pending.record
            sequence := pending.sequence })

/-- Cancel one pending request. -/
def cancel (pending : PendingConnect) : Except ProxyError Unit × ProxySession :=
  if pending.instanceId ≠ session.instanceId then (.error .pendingMismatch, session)
  else
    match session.pending.lookup pending.sequence with
    | none => (.error .pendingMismatch, session)
    | some _ => (.ok (), { session with pending := session.pending.erase pending.sequence })

/-- The authority is for an origin that the proxy serves and for the runtime that the
snapshot shows. -/
def authorityMatches (host : NormalizedHost) (authority : ProviderAuthorityContext)
    (snapshot : EngineSnapshot) : Bool :=
  let logicalOrigin := authority.logicalOrigin
  logicalOrigin.scheme == .https && host.asStr == logicalOrigin.host && logicalOrigin.port != 0 &&
    authority.servicePort != 0 && authority.authenticatedContext != .unauthenticated &&
    authority.tlsPolicy != .cleartext && authority.runtimeSession == snapshot.runtimeSession &&
    authority.runtimeGeneration == snapshot.runtimeGeneration &&
    authority.policyGeneration == snapshot.policy.generation &&
    authority.hnsNetwork == snapshot.hnsNetwork

/-- The record of an authority. -/
def publicationRecord (authority : ProviderAuthorityContext)
    (publicationId publicationGeneration now publicationValidUntil : Nat) : PublicationRecord where
  publicationId := publicationId
  publicationGeneration := publicationGeneration
  selectedNamespace := authority.selectedNamespace
  authenticatedContext := authority.authenticatedContext
  hnsNetwork := authority.hnsNetwork
  servicePort := authority.servicePort
  tlsPolicy := authority.tlsPolicy
  runtimeSession := authority.runtimeSession
  runtimeGeneration := authority.runtimeGeneration
  policyGeneration := authority.policyGeneration
  eventSequence := authority.eventSequence
  decisionFingerprint := authority.decisionFingerprint
  authorityValidFrom := authority.validFrom
  authorityValidUntil := authority.validUntil
  publishedAt := now
  publicationValidUntil := publicationValidUntil
  endpoint := session.config.endpoint
  processSession := session.config.instanceIdentity.processSession
  processGeneration := session.config.instanceIdentity.processGeneration
  listenerGeneration := session.config.instanceIdentity.listenerGeneration
  authority := authority

/-- The record of an authority that is current and in scope. -/
def bindAuthority (engine : EngineView)
    (authority : ProviderAuthorityContext) (publicationId publicationGeneration now : Nat) :
    Except ProxyError (LogicalOrigin × PublicationRecord) := do
  let snapshot ← session.readyEngine engine true
  let host ← session.config.scope.authorize authority.logicalOrigin.host
  if !authorityMatches host authority snapshot then .error .providerAuthorityMismatch
  else if now < authority.validFrom then .error .providerAuthorityNotYetValid
  else if authority.validUntil ≤ now then .error .providerAuthorityExpired
  else do
    let current ← (engine.providerAuthorityIsCurrent 0 authority now).mapError .engine
    if !current then .error .providerAuthorityMismatch
    else
      match checkedAdd now session.config.limits.maximumPublicationLifetimeSeconds with
      | none => .error .timeOverflow
      | some publicationDeadline =>
        let publicationValidUntil := min authority.validUntil publicationDeadline
        if publicationValidUntil ≤ now then .error .providerAuthorityExpired
        else
          .ok (authority.logicalOrigin,
            session.publicationRecord authority publicationId publicationGeneration now
              publicationValidUntil)

def admissionFor (logicalOrigin : LogicalOrigin)
    (publicationId publicationGeneration : Nat) : PublishedAdmission where
  instanceId := session.instanceId
  logicalOrigin := logicalOrigin
  publicationId := publicationId
  publicationGeneration := publicationGeneration
  registryGeneration := publicationGeneration
  endpoint := session.config.endpoint
  processSession := session.config.instanceIdentity.processSession
  processGeneration := session.config.instanceIdentity.processGeneration
  listenerGeneration := session.config.instanceIdentity.listenerGeneration

/-- What a look at all records before a publication finds. -/
structure Scan where
  reclaimable : List LogicalOrigin
  currentPublications : Nat
  duplicate : Bool

/-- Every record is either current or can be reclaimed; the first failing question
ends the scan. -/
def scanPublications (engine : EngineView) (logicalOrigin : LogicalOrigin) (now : Nat) :
    Nat → List (Sigma fun _ : LogicalOrigin => PublicationRecord) → Except ProxyError Scan
  | _, [] => .ok ⟨[], 0, false⟩
  | read, ⟨origin, existing⟩ :: rest => do
    let current ← publicationIsCurrent engine read existing now
    let scan ← scanPublications engine logicalOrigin now (read + 1) rest
    if current then
      return ⟨scan.reclaimable, scan.currentPublications + 1,
        scan.duplicate || origin == logicalOrigin⟩
    else return ⟨origin :: scan.reclaimable, scan.currentPublications, scan.duplicate⟩

/-- A publication that only waits for the records that are already there. -/
structure Publication where
  logicalOrigin : LogicalOrigin
  record : PublicationRecord
  scan : Scan

def preparePublication (engine : EngineView)
    (authority : ProviderAuthorityContext) (now : Nat) : Except ProxyError Publication := do
  let nextRegistryGeneration ← session.nextRegistryGeneration
  match checkedAdd session.publicationSequence 1 with
  | none => .error .publicationSequenceExhausted
  | some publicationId => do
    let (logicalOrigin, record) ←
      session.bindAuthority engine authority publicationId nextRegistryGeneration now
    let scan ← scanPublications engine logicalOrigin now 1 session.publications.entries
    return ⟨logicalOrigin, record, scan⟩

/-- The session without the records that can be reclaimed. -/
def reclaim (reclaimable : List LogicalOrigin) : ProxySession :=
  { session with publications := session.publications.keep fun origin => !reclaimable.contains origin }

/-- Publish one engine-issued authority. -/
def publishAuthority (engine : EngineView)
    (expectedRegistryGeneration : Nat) (authority : ProviderAuthorityContext) (now : Nat) :
    Except ProxyError PublishedAdmission × ProxySession :=
  match (session.ensureRegistryGeneration expectedRegistryGeneration >>= fun _ =>
      session.observeTime now) with
  | .error error => (.error error, session)
  | .ok observed =>
    match observed.preparePublication engine authority now with
    | .error error => (.error error, observed)
    | .ok ⟨logicalOrigin, record, scan⟩ =>
      let reclaimed := observed.reclaim scan.reclaimable
      if scan.duplicate then (.error .publicationAlreadyExists, reclaimed)
      else if session.config.limits.maximumPublications ≤ scan.currentPublications then
        (.error .publicationLimit, reclaimed)
      else
        (.ok (session.admissionFor logicalOrigin record.publicationId
            record.publicationGeneration),
          { reclaimed with
            publications := reclaimed.publications.insert logicalOrigin record
            publicationSequence := record.publicationId
            registryGeneration := record.publicationGeneration })

/-- The record that replaces the one of the admission. -/
def prepareReplacement (engine : EngineView)
    (admission : PublishedAdmission) (authority : ProviderAuthorityContext) (now : Nat) :
    Except ProxyError PublicationRecord := do
  let publication ← session.validateAdmission admission
  let nextRegistryGeneration ← session.nextRegistryGeneration
  let (logicalOrigin, record) ←
    session.bindAuthority engine authority publication.publicationId nextRegistryGeneration now
  if logicalOrigin ≠ admission.logicalOrigin then .error .publicationMismatch else .ok record

/-- Replace one publication under the same origin and identifier. -/
def replaceAuthority (engine : EngineView)
    (expectedRegistryGeneration : Nat) (admission : PublishedAdmission)
    (authority : ProviderAuthorityContext) (now : Nat) :
    Except ProxyError PublishedAdmission × ProxySession :=
  match (session.ensureRegistryGeneration expectedRegistryGeneration >>= fun _ =>
      session.observeTime now) with
  | .error error => (.error error, session)
  | .ok observed =>
    match observed.prepareReplacement engine admission authority now with
    | .error error => (.error error, observed)
    | .ok record =>
      (.ok (session.admissionFor admission.logicalOrigin record.publicationId
          record.publicationGeneration),
        { observed with
          publications := observed.publications.insert admission.logicalOrigin record
          registryGeneration := record.publicationGeneration })

/-- The generation after the revocation of an admission's record. -/
def prepareRevocation (expectedRegistryGeneration : Nat)
    (admission : PublishedAdmission) : Except ProxyError Nat := do
  session.ensureRegistryGeneration expectedRegistryGeneration
  let _ ← session.validateAdmission admission
  session.nextRegistryGeneration

/-- Revoke one publication.  An admission that validates names a resident record. -/
def revokeAuthority (expectedRegistryGeneration : Nat)
    (admission : PublishedAdmission) : Except ProxyError Nat × ProxySession :=
  match session.prepareRevocation expectedRegistryGeneration admission with
  | .error error => (.error error, session)
  | .ok nextRegistryGeneration =>
    (.ok nextRegistryGeneration,
      { session with
        publications := session.publications.erase admission.logicalOrigin
        registryGeneration := nextRegistryGeneration })

/-- The record of a pending token. -/
def checkPending (pending : PendingConnect) : Except ProxyError PendingRecord :=
  if pending.instanceId ≠ session.instanceId then .error .pendingMismatch
  else
    match session.pending.lookup pending.sequence with
    | none => .error .pendingMismatch
    | some record => if record ≠ pending.record then .error .pendingMismatch else .ok record

/-- The grant under a publication. -/
def tunnelGrant (logicalOrigin : LogicalOrigin)
    (publication : PublicationRecord) (sequence now expiresAt : Nat) : TunnelGrant where
  instanceId := session.instanceId
  logicalOrigin := logicalOrigin
  selectedNamespace := publication.selectedNamespace
  authenticatedContext := publication.authenticatedContext
  hnsNetwork := publication.hnsNetwork
  servicePort := publication.servicePort
  tlsPolicy := publication.tlsPolicy
  runtimeSession := publication.runtimeSession
  runtimeGeneration := publication.runtimeGeneration
  policyGeneration := publication.policyGeneration
  eventSequence := publication.eventSequence
  decisionFingerprint := publication.decisionFingerprint
  authorityValidFrom := publication.authorityValidFrom
  authorityValidUntil := publication.authorityValidUntil
  endpoint := publication.endpoint
  processSession := publication.processSession
  processGeneration := publication.processGeneration
  listenerGeneration := publication.listenerGeneration
  registryGeneration := session.registryGeneration
  publicationId := publication.publicationId
  publicationGeneration := publication.publicationGeneration
  connectSequence := sequence
  issuedAt := now
  expiresAt := expiresAt

/-- The grant for a request that has been taken out of the session. -/
def issueGrant (engine : EngineView) (sequence : Nat)
    (record : PendingRecord) (admission : PublishedAdmission)
    (expectedRegistryGeneration now : Nat) :
    Except ProxyError TunnelGrant :=
  if now < record.admittedAt ∨ record.expiresAt ≤ now then .error .pendingExpired
  else do
    session.ensureRegistryGeneration expectedRegistryGeneration
    let _ ← session.readyEngine engine true
    let publication ← session.validateAdmission admission
    if admission.logicalOrigin.scheme ≠ .https ∨ admission.logicalOrigin.host ≠ record.host.asStr ∨
        admission.logicalOrigin.port ≠ record.port then .error .providerAuthorityMismatch
    else do
      let current ← publicationIsCurrent engine 0 publication now
      if !current then .error .providerAuthorityMismatch
      else
        match checkedAdd now session.config.limits.maximumGrantLifetimeSeconds with
        | none => .error .timeOverflow
        | some grantDeadline =>
          let grantExpiresAt := min publication.publicationValidUntil grantDeadline
          if grantExpiresAt ≤ now then .error .providerAuthorityExpired
          else
            .ok (session.tunnelGrant admission.logicalOrigin publication sequence now
              grantExpiresAt)

/-- Convert one pending request into a grant.  The request is taken out before
anything else is checked. -/
def authorizeConnect (engine : EngineView) (pending : PendingConnect)
    (admission : PublishedAdmission) (expectedRegistryGeneration now : Nat) :
    Except ProxyError TunnelGrant × ProxySession :=
  match session.checkPending pending with
  | .error error => (.error error, session)
  | .ok record =>
    let consumed := { session with pending := session.pending.erase pending.sequence }
    match consumed.observeTime now with
    | .error error => (.error error, consumed)
    | .ok observed =>
      (observed.issueGrant engine pending.sequence record admission expectedRegistryGeneration
        now, observed)

/-- The grant repeats what the record says. -/
def grantMatches (publication : PublicationRecord) (grant : TunnelGrant) : Bool :=
  publication.publicationId == grant.publicationId &&
    publication.publicationGeneration == grant.publicationGeneration &&
    publication.selectedNamespace == grant.selectedNamespace &&
    publication.authenticatedContext == grant.authenticatedContext &&
    publication.hnsNetwork == grant.hnsNetwork && publication.servicePort == grant.servicePort &&
    publication.tlsPolicy == grant.tlsPolicy &&
    publication.runtimeSession == grant.runtimeSession &&
    publication.runtimeGeneration == grant.runtimeGeneration &&
    publication.policyGeneration == grant.policyGeneration &&
    publication.eventSequence == grant.eventSequence &&
    publication.decisionFingerprint == grant.decisionFingerprint &&
    publication.authorityValidFrom == grant.authorityValidFrom &&
    publication.authorityValidUntil == grant.authorityValidUntil &&
    publication.endpoint == grant.endpoint &&
    publication.processSession == grant.processSession &&
    publication.processGeneration == grant.processGeneration &&
    publication.listenerGeneration == grant.listenerGeneration &&
    grant.expiresAt ≤ publication.publicationValidUntil

/-- The grant belongs to this listener and to the expected generation. -/
def grantIsOwn (grant : TunnelGrant) (expectedRegistryGeneration : Nat) : Bool :=
  let identity := session.config.instanceIdentity
  grant.registryGeneration == expectedRegistryGeneration &&
    grant.instanceId == session.instanceId && grant.endpoint == session.config.endpoint &&
    grant.processSession == identity.processSession &&
    grant.processGeneration == identity.processGeneration &&
    grant.listenerGeneration == identity.listenerGeneration

/-- The checks of a grant behind those of generation and clock. -/
def checkGrant (engine : EngineView) (grant : TunnelGrant)
    (expectedRegistryGeneration now : Nat) : Except ProxyError Unit :=
  if !session.grantIsOwn grant expectedRegistryGeneration then .error .publicationMismatch
  else if now < grant.issuedAt ∨ grant.expiresAt ≤ now then .error .providerAuthorityExpired
  else do
    let _ ← session.readyEngine engine true
    match session.publications.lookup grant.logicalOrigin with
    | none => .error .publicationMismatch
    | some publication =>
      if !grantMatches publication grant then .error .providerAuthorityMismatch
      else do
        let current ← publicationIsCurrent engine 0 publication now
        if !current then .error .providerAuthorityMismatch else .ok ()

/-- Revalidate a grant before it is used. -/
def revalidateTunnelGrant (engine : EngineView) (grant : TunnelGrant)
    (expectedRegistryGeneration now : Nat) : Except ProxyError Unit × ProxySession :=
  match (session.ensureRegistryGeneration expectedRegistryGeneration >>= fun _ =>
      session.observeTime now) with
  | .error error => (.error error, session)
  | .ok observed => (observed.checkGrant engine grant expectedRegistryGeneration now, observed)

end ProxySession

end HnsDaneEngine.LoopbackProxy
