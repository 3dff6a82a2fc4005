import HnsDaneEngine.Control.Effect
import HnsDaneEngine.Engine.Origin
import HnsDaneEngine.NamespaceResolution.Fingerprint
import HnsDaneEngine.Resolver.Tlsa
import HnsDaneEngine.Transport.Gateway

/-!
# The state of the browser engine

The engine owns a browser runtime, a policy controller, and the provenance and the
evidence of the last completed resolution.  The other values here are what its calls
take and return.
-/

namespace HnsDaneEngine.Engine

open Browser.Runtime Control NamespaceResolution Policy

/-- How far evidence has come. -/
inductive EvidenceState
  | verified
  | failed
  | unavailable
  | unsupported
  | notAttempted
  | stale
  | revoked
  deriving DecidableEq

/-- Local validation evidence required for HNS HTTPS. -/
structure ValidationEvidence where
  hnsProof : EvidenceState
  dnssec : EvidenceState
  tlsa : EvidenceState
  dane : EvidenceState
  chainCurrent : EvidenceState
  originSni : EvidenceState
  deriving DecidableEq

namespace ValidationEvidence

/-- All parts in one state. -/
def uniform (state : EvidenceState) : ValidationEvidence :=
  ⟨state, state, state, state, state, state⟩

def notAttempted : ValidationEvidence :=
  uniform .notAttempted

def revoked : ValidationEvidence :=
  uniform .revoked

def fullyVerified (evidence : ValidationEvidence) : Bool :=
  evidence == uniform .verified

end ValidationEvidence

def unavailableEvidence : ValidationEvidence :=
  .uniform .unavailable

/-- A tree root and its height. -/
structure ChainAnchor where
  height : Nat
  treeRoot : Octets
  deriving DecidableEq

/-- Where a completed resolution came from. -/
structure ResolutionProvenance where
  schemaVersion : Nat
  runtimeSession : Octets
  runtimeGeneration : Nat
  policyGeneration : Nat
  eventSequence : Nat
  network : Network
  chainAnchor : Option ChainAnchor
  transport : ResolutionTransport
  peerIdentity : Option Octets
  proxyIdentity : Option Octets
  targetIdentity : Option Octets
  directRelayFallback : Bool
  registryProfile : WireProfile
  evidence : ValidationEvidence
  untrustedAdClaim : Bool

def ResolutionProvenance.requireVerifiedHnsHttps (provenance : ResolutionProvenance) :
    Except PolicyError Unit :=
  if provenance.evidence.fullyVerified then .ok () else .error .unverifiedEvidence

/-- A query and transport admission bound to engine generations. -/
structure ResolutionAttempt where
  runtimeStamp : RuntimeStamp
  admission : Admission
  query : Wire.Query

def ResolutionAttempt.transport (attempt : ResolutionAttempt) : ResolutionTransport :=
  attempt.admission.transport

/-- A message of an attempt. -/
structure ParsedResponse where
  attemptStamp : RuntimeStamp
  message : Wire.Message
  untrustedAdClaim : Bool

/-- Identities and chain anchor attached to a completed resolution. -/
structure CompletionContext where
  chainAnchor : Option ChainAnchor
  peerIdentity : Option Octets
  proxyIdentity : Option Octets
  targetIdentity : Option Octets
  directRelayFallback : Bool

/-- An attempt with its response. -/
structure GatewayResolution where
  attempt : ResolutionAttempt
  response : ParsedResponse
  context : CompletionContext

/-- Evidence the caller asserts before the engine matches TLSA records. -/
structure LocalDanePrerequisites where
  hnsProof : EvidenceState
  dnssec : EvidenceState
  chainCurrent : EvidenceState
  originSni : EvidenceState
  deriving DecidableEq

def LocalDanePrerequisites.fullyVerified (prerequisites : LocalDanePrerequisites) : Bool :=
  prerequisites == ⟨.verified, .verified, .verified, .verified⟩

/-- The bounds of a validation. -/
structure DaneLimits where
  maxCertificateLen : Nat
  maxSpkiLen : Nat
  maxTlsaRecords : Nat
  maxAssociationLen : Nat
  maxChainCertificates : Nat

/-- The usages without a public CA. -/
inductive CertificateUsage
  | daneTa
  | daneEe

/-- What a record selects. -/
inductive Selector
  | fullCertificate
  | subjectPublicKeyInfo

/-- How a record matches. -/
inductive MatchingType
  | exact
  | sha256
  | sha512

/-- The record that matched. -/
structure DaneMatch where
  recordIndex : Nat
  usage : CertificateUsage
  selector : Selector
  matchingType : MatchingType

/-- The cryptography that the engine calls: the hash of fingerprints, and the
verification of a certificate, or of a chain for a host at a time, against TLSA
records. -/
structure LocalCrypto where
  sha256 : Octets → Octets
  verifyDaneEe : Octets → List Wire.Tlsa → DaneLimits → Except DaneError DaneMatch
  verifyDaneChain : List Octets → Octets → List Wire.Tlsa → Int → DaneLimits →
    Except DaneError DaneMatch

def LocalCrypto.decisionFingerprint (crypto : LocalCrypto) (decision : NamespaceDecision) :
    Octets :=
  crypto.sha256 (decisionInput decision)

/-- A chain and validated records. -/
structure ValidatedDaneInput where
  validated : Resolver.ValidatedTlsa
  certificateChainDer : List Octets
  originSni : Octets
  validationUnixTime : Int
  limits : DaneLimits

/-- Completed provenance with the matched TLSA record. -/
structure DaneCompletion where
  admissionStamp : RuntimeStamp
  provenance : ResolutionProvenance
  daneMatch : DaneMatch
  originSni : Option Octets
  bridgeServicePort : Option UInt16
  bridgeTlsaRecords : Option (List Octets)
  bridgeValidFrom : Option Nat
  bridgeValidUntil : Option Nat

/-- Permission of the current generation for an exact browser origin. -/
structure BrowserBridgeAuthorization where
  runtimeSession : Octets
  runtimeGeneration : Nat
  policyGeneration : Nat
  eventSequence : Nat
  validFrom : Nat
  validUntil : Nat
  origin : Octets
  servicePort : UInt16

/-- The state of the engine. -/
structure EngineState where
  runtime : BrowserRuntime
  network : Network
  policy : PolicyController
  lastProvenance : Option ResolutionProvenance
  lastEvidence : ValidationEvidence

def mapRuntimeError : RuntimeError → EngineError
  | .zeroSession => .invalidRuntimeSession
  | .invalidAuthorityTransition => .invalidAuthorityTransition
  | .counterExhausted => .generationExhausted
  | .stopped => .authorityNotReady
  | .authorityNotReady => .authorityNotReady

namespace EngineState

def new (session : RuntimeSessionId) (network : Network) (policy : PolicySnapshot) :
    EngineState where
  runtime := .new session
  network := network
  policy := ⟨policy⟩
  lastProvenance := none
  lastEvidence := .notAttempted

def snapshot (state : EngineState) : EngineSnapshot where
  schemaVersion := state.runtime.snapshot.schemaVersion
  runtimeSession := state.runtime.session.bytes
  runtimeGeneration := state.runtime.generation
  eventSequence := state.runtime.eventSequence
  network := state.network
  authorityState := state.runtime.authorityState
  policy := state.policy.snapshot

end EngineState

/-- A call on the engine.  The lock is never poisoned. -/
abbrev EngineM (α : Type) : Type :=
  Effect EngineState EngineError α

/-- A call on the runtime of the engine. -/
def onRuntime {α : Type} (call : BrowserRuntime → Except RuntimeError α × BrowserRuntime) :
    EngineM α :=
  fun state =>
    ((call state.runtime).1.mapError mapRuntimeError,
      { state with runtime := (call state.runtime).2 })

def transition (next : AuthorityState) : EngineM RuntimeSnapshot :=
  onRuntime fun runtime => runtime.transition next

def admitEvent : EngineM RuntimeStamp :=
  onRuntime BrowserRuntime.admitEvent

def policyChanged : EngineM RuntimeSnapshot :=
  onRuntime BrowserRuntime.policyChanged

/-- Store what the last resolution showed. -/
def setEvidence (provenance : Option ResolutionProvenance) (evidence : ValidationEvidence) :
    EngineM Unit :=
  Effect.modify fun state =>
    { state with lastProvenance := provenance, lastEvidence := evidence }

end HnsDaneEngine.Engine
