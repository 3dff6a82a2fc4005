import HnsDaneEngine.Browser.Runtime
import HnsDaneEngine.NamespaceResolution.Decision
import HnsDaneEngine.Policy.Controller
import HnsDaneEngine.Wire.Name

/-!
# Origins, contexts and authorities of the browser engine

What the engine hands out: the authenticated context of an origin, and the provider
authority that is minted from it.  Sessions are the 16 octets of a runtime session.
-/

namespace HnsDaneEngine.Engine

open Browser.Runtime NamespaceResolution Policy

/-- Exact URL origin; its port is that of the URL, not of a selected service. -/
structure LogicalOrigin where
  scheme : OriginScheme
  host : Octets
  port : UInt16
  deriving DecidableEq

namespace LogicalOrigin

def fromNamespaceDecision (decision : NamespaceDecision) : LogicalOrigin where
  scheme := decision.query.scheme
  host := decision.query.host.asStr
  port := decision.query.originPort.val

def isSecure (origin : LogicalOrigin) : Bool :=
  origin.scheme.usesTls

end LogicalOrigin

/-- Authentication path bound to an origin context. -/
inductive AuthenticatedContextStatus
  | unauthenticated
  | hnsDaneVerified
  | icannDaneVerified
  | icannWebPkiAuthenticatedAbsence
  | icannWebPkiInsecureDelegation
  deriving DecidableEq

/-- Authentication evidence stamped to one namespace decision. -/
structure AuthenticatedOriginContext where
  logicalOrigin : LogicalOrigin
  selectedNamespace : Option Namespace
  status : AuthenticatedContextStatus
  runtimeSession : Octets
  runtimeGeneration : Nat
  policyGeneration : Nat
  eventSequence : Nat
  admissionStamp : Option RuntimeStamp
  decisionFingerprint : Octets
  validFrom : Nat
  validUntil : Nat
  deriving DecidableEq

/-- Engine-issued authority for one exact provider-injection boundary. -/
structure ProviderAuthorityContext where
  originContext : AuthenticatedOriginContext
  selectedNamespace : Namespace
  hnsNetwork : HnsNetwork
  servicePort : UInt16
  tlsPolicy : TlsTrustPolicy
  deriving DecidableEq

namespace ProviderAuthorityContext

def logicalOrigin (authority : ProviderAuthorityContext) : LogicalOrigin :=
  authority.originContext.logicalOrigin

def authenticatedContext (authority : ProviderAuthorityContext) : AuthenticatedContextStatus :=
  authority.originContext.status

def runtimeSession (authority : ProviderAuthorityContext) : Octets :=
  authority.originContext.runtimeSession

def runtimeGeneration (authority : ProviderAuthorityContext) : Nat :=
  authority.originContext.runtimeGeneration

def policyGeneration (authority : ProviderAuthorityContext) : Nat :=
  authority.originContext.policyGeneration

def eventSequence (authority : ProviderAuthorityContext) : Nat :=
  authority.originContext.eventSequence

def decisionFingerprint (authority : ProviderAuthorityContext) : Octets :=
  authority.originContext.decisionFingerprint

def validFrom (authority : ProviderAuthorityContext) : Nat :=
  authority.originContext.validFrom

def validUntil (authority : ProviderAuthorityContext) : Nat :=
  authority.originContext.validUntil

end ProviderAuthorityContext

/-- The networks. -/
inductive Network
  | mainnet
  | testnet
  | regtest
  | simnet
  deriving DecidableEq

def networkMatches : Network → HnsNetwork → Bool
  | .mainnet, .mainnet => true
  | .testnet, .testnet => true
  | .regtest, .regtest => true
  | .simnet, .simnet => true
  | _, _ => false

/-- What an engine shows. -/
structure EngineSnapshot where
  schemaVersion : Nat
  runtimeSession : Octets
  runtimeGeneration : Nat
  eventSequence : Nat
  network : Network
  authorityState : AuthorityState
  policy : PolicySnapshot

/-- The network of the snapshot under its name in namespace decisions. -/
def EngineSnapshot.hnsNetwork (snapshot : EngineSnapshot) : HnsNetwork :=
  match snapshot.network with
  | .mainnet => .mainnet
  | .testnet => .testnet
  | .regtest => .regtest
  | .simnet => .simnet

/-- Why TLSA records do not match a certificate. -/
inductive DaneError
  | missingTlsa
  | tooManyTlsaRecords
  | certificateLength
  | malformedCertificate
  | spkiLength
  | unsupportedUsage (usage : UInt8)
  | unsupportedSelector (selector : UInt8)
  | unsupportedMatchingType (matchingType : UInt8)
  | invalidAssociationLength
  | mismatch
  | chainLength
  | chainValidation
  | invalidServerName
  deriving DecidableEq

/-- Facade failure.  Those of status reports and of the gateway belong to calls that
are not modelled here. -/
inductive EngineError
  | invalidRuntimeSession
  | lockPoisoned
  | generationExhausted
  | invalidAuthorityTransition
  | authorityNotReady
  | staleRuntimeGeneration
  | staleGatewaySelection
  | responseAttemptMismatch
  | unsuccessfulDnsResponse
  | expectedTlsaQuery
  | missingTransportIdentity
  | invalidTransportIdentity
  | proxyTargetNotSeparated
  | invalidCompletionContext
  | responseEvidenceMismatch
  | originSniMismatch
  | missingHnsAuthority
  | validationTimeMismatch
  | hnsNetworkMismatch
  | chainAnchorMismatch
  | legacyCompletionNotBridgeable
  | unsupportedBridgeService
  | providerAuthenticationMismatch
  | completionNotCurrent
  | completionExpired
  | completionNotYetValid
  | wire (error : Wire.Error)
  | dane (error : DaneError)
  | policy (error : PolicyError)
  deriving DecidableEq

end HnsDaneEngine.Engine
