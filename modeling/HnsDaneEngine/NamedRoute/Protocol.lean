import HnsDaneEngine.Browser.Runtime
import HnsDaneEngine.Light.Resource
import HnsDaneEngine.NamedRoute.State
import HnsDaneEngine.Policy.Controller
import HnsDaneEngine.Resolver.Tlsa

/-!
# Transport bindings of the engine

A binding fixes the epoch of the engine under which a transport was admitted: the runtime
stamp, the network and the policy generation.  Minting a binding records an event of the
runtime; validating one compares it with the engine of the moment.
-/

namespace HnsDaneEngine.NamedRoute

open Browser.Runtime Policy
open Resolver (Network)

/-- The ends of a transport. -/
inductive HnsrTransportRole
  | requester
  | opaqueRelay
  deriving DecidableEq

/-- The errors of `EngineError` that a runtime error becomes. -/
inductive EngineError
  | invalidRuntimeSession
  | invalidAuthorityTransition
  | generationExhausted
  | authorityNotReady
  deriving DecidableEq

def mapRuntimeError : RuntimeError → EngineError
  | .zeroSession => .invalidRuntimeSession
  | .invalidAuthorityTransition => .invalidAuthorityTransition
  | .counterExhausted => .generationExhausted
  | .stopped => .authorityNotReady
  | .authorityNotReady => .authorityNotReady

/-- The errors of `HnsrTransportError` that bindings and openings give; `runtime` carries an
error of the requester, which belongs to another package. -/
inductive HnsrTransportError (RuntimeError : Type)
  | engine (error : EngineError)
  | runtime (error : RuntimeError)
  | authorityUnavailable
  | runtimeSessionChanged
  | runtimeGenerationChanged
  | policyGenerationChanged
  | admissionInvalidated
  | networkChanged
  | unsupportedWireProfile
  | roleDisabled (role : HnsrTransportRole)
  | forbiddenProviderRoles
  | invalidServiceProfile
  | privateAddressForbidden
  | peerBindingMismatch
  | bindingRevoked
  deriving DecidableEq

/-- Concrete profiles of experimental peers. -/
inductive ExperimentalWireProfile
  | shakescapeV1
  | official
  deriving DecidableEq

/-- What a transport is bound to. -/
structure HnsrTransportBinding where
  stamp : RuntimeStamp
  network : Network
  networkMagic : UInt32
  policyGeneration : Nat
  policyWireProfile : WireProfile
  resolvedWireProfile : ExperimentalWireProfile
  role : HnsrTransportRole
  serviceProfile : UInt16
  allowPrivateAddress : Bool
  deriving DecidableEq

/-- The parts of the engine that transport bindings depend on. -/
structure Engine where
  network : Network
  runtime : BrowserRuntime
  policy : PolicySnapshot

def resolutionTransportReady : AuthorityState → Bool :=
  authorityAdmitsWork

def resolvedOdohProfile : WireProfile → Option ExperimentalWireProfile
  | .shakescapeV1 => some .shakescapeV1
  | .auto => some .shakescapeV1
  | .official => none

/-- Whether a role bit of the policy is set. -/
def hnsrRole (policy : HnsrPolicy) (bit : UInt8) : Bool :=
  policy.bits &&& bit != 0

def requesterEnabled (policy : HnsrPolicy) : Bool := hnsrRole policy 1

def endpointEnabled (policy : HnsrPolicy) : Bool := hnsrRole policy 2

def relayEnabled (policy : HnsrPolicy) : Bool := hnsrRole policy 4

def rendezvousEnabled (policy : HnsrPolicy) : Bool := hnsrRole policy 8

def roleEnabled (policy : HnsrPolicy) : HnsrTransportRole → Bool
  | .requester => requesterEnabled policy
  | .opaqueRelay => relayEnabled policy

section

variable {RuntimeError : Type}

def validateHnsrPolicy (network : Network) (policy : PolicySnapshot) (role : HnsrTransportRole)
    (serviceProfile : UInt16) (allowPrivateAddress : Bool) :
    Except (HnsrTransportError RuntimeError) Unit :=
  if serviceProfile = 0 then .error .invalidServiceProfile
  else if allowPrivateAddress = true ∧ ¬ (network = .regtest ∨ network = .simnet) then
    .error .privateAddressForbidden
  else if policy.config.wireProfile = .official then .error .unsupportedWireProfile
  else if endpointEnabled policy.config.hnsr ∨ rendezvousEnabled policy.config.hnsr then
    .error .forbiddenProviderRoles
  else if roleEnabled policy.config.hnsr role then .ok ()
  else .error (.roleDisabled role)

/-- The binding and the engine with the event that admits it. -/
def Engine.mintHnsrTransportBinding (networkMagic : Network → UInt32) (engine : Engine)
    (role : HnsrTransportRole) (serviceProfile : UInt16) (allowPrivateAddress : Bool) :
    Except (HnsrTransportError RuntimeError) HnsrTransportBinding × Engine :=
  match validateHnsrPolicy engine.network engine.policy role serviceProfile
      allowPrivateAddress with
  | .error error => (.error error, engine)
  | .ok () =>
    if ¬ resolutionTransportReady engine.runtime.authorityState then
      (.error .authorityUnavailable, engine)
    else
      match engine.runtime.admitEvent with
      | (.error error, runtime) =>
        (.error (.engine (mapRuntimeError error)), { engine with runtime })
      | (.ok stamp, runtime) =>
        match resolvedOdohProfile engine.policy.config.wireProfile with
        | none => (.error .unsupportedWireProfile, { engine with runtime })
        | some resolvedWireProfile =>
          (.ok
            { stamp
              network := engine.network
              networkMagic := networkMagic engine.network
              policyGeneration := engine.policy.generation
              policyWireProfile := engine.policy.config.wireProfile
              resolvedWireProfile
              role
              serviceProfile
              allowPrivateAddress }, { engine with runtime })

def Engine.validateHnsrTransportBinding (networkMagic : Network → UInt32) (engine : Engine)
    (binding : HnsrTransportBinding) : Except (HnsrTransportError RuntimeError) Unit :=
  match validateHnsrPolicy engine.network engine.policy binding.role binding.serviceProfile
      binding.allowPrivateAddress with
  | .error error => .error error
  | .ok () =>
    if engine.network ≠ binding.network ∨ networkMagic engine.network ≠ binding.networkMagic then
      .error .networkChanged
    else if engine.runtime.session ≠ binding.stamp.session then .error .runtimeSessionChanged
    else if engine.runtime.generation ≠ binding.stamp.generation then
      .error .runtimeGenerationChanged
    else if engine.policy.generation ≠ binding.policyGeneration then
      .error .policyGenerationChanged
    else if engine.policy.config.wireProfile ≠ binding.policyWireProfile ∨
        binding.resolvedWireProfile ≠ .shakescapeV1 then
      .error .unsupportedWireProfile
    else if ¬ resolutionTransportReady engine.runtime.authorityState then
      .error .authorityUnavailable
    else if ¬ engine.runtime.admits binding.stamp then .error .admissionInvalidated
    else .ok ()

end

end HnsDaneEngine.NamedRoute

/-!
## Named routes and what other packages say about them

Route records, service authorizations and endpoint delegations come from the packages of
the service authority and of the routing protocol.  Their fields are data here; decoding,
verification and the selection among signed objects are parameters.
-/

namespace HnsDaneEngine.NamedRoute

open Light (HnsResourceRecord)
open Primitives
open Resolver (HnsAnchor Network)

/-- The errors of the service authority; two of them are told apart. -/
inductive AuthorityError
  | missing
  | conflictingSequence
  | other (code : Nat)
  deriving DecidableEq

/-- A service of a name. -/
structure ServiceIdentity where
  networkMagic : UInt32
  nameHash : Hash
  serviceName : Octets
  profileId : UInt16

/-- An authorized service key. -/
structure ServiceAuthorizationV1 where
  networkMagic : UInt32
  nameHash : Hash
  authorityEpoch : Nat
  serviceName : Octets
  profileId : UInt16
  serviceKey : EndpointKey
  flags : Nat
  serial : Nat
  validFromHeight : Nat
  validUntilHeight : Nat
  maxEndpointLifetime : Nat
  rootSignature : Octets
  deriving DecidableEq

/-- A delegated endpoint key. -/
structure EndpointDelegationV1 where
  networkMagic : UInt32
  authorizationId : Hash
  endpointKey : EndpointKey
  endpointSequence : Nat
  issuedAt : Nat
  expiresAt : Nat
  capabilities : Nat
  constraintsHash : Hash
  serviceSignature : Octets
  deriving DecidableEq

/-- A route record with its relay tickets. -/
structure NamedRouteRecordV2 (RelayTicket : Type) where
  routeKey : Hash
  profile : UInt16
  sequence : Nat
  issuedAt : Nat
  expiresAt : Nat
  authorization : ServiceAuthorizationV1
  delegation : EndpointDelegationV1
  tickets : List RelayTicket
  endpointSignature : Octets
  deriving DecidableEq

/-- What a selection may take. -/
structure NamedRoutePolicy where
  maximumRouteLifetime : Nat
  allowedAuthorizationFlags : Nat
  allowedEndpointCapabilities : Nat
  requiredEndpointCapabilities : Nat
  expectedConstraintsHash : Hash
  allowPrivateRelays : Bool
  deriving DecidableEq

/-- What a route record is verified against. -/
structure NamedRouteTrust (AuthorityRecord : Type) where
  authority : AuthorityRecord
  identity : ServiceIdentity
  currentHeight : Nat
  policy : NamedRoutePolicy

/-- The functions of the other packages.  The selections get the candidates in the order of
the records; what else they are given does not depend on it. -/
structure HnsaProtocol (AuthorityRecord RelayTicket ProtocolError : Type) where
  maxRecordsPerKey : Nat
  hnsWebV1 : UInt16
  hnsChatV1 : UInt16
  networkMagic : Network → UInt32
  blake2b256 : Octets → Hash
  selectAuthorityRecord : List Octets → Except AuthorityError AuthorityRecord
  encodeAuthority : AuthorityRecord → Except AuthorityError Octets
  namedRouteKey : ServiceIdentity → Except ProtocolError Hash
  decodeRecord : Octets → Option (NamedRouteRecordV2 RelayTicket)
  encodeRecord : NamedRouteRecordV2 RelayTicket → Except ProtocolError Octets
  verifyRecord : NamedRouteRecordV2 RelayTicket → NamedRouteTrust AuthorityRecord → Nat → Bool
  authorizationId : ServiceAuthorizationV1 → Except AuthorityError Hash
  delegationId : EndpointDelegationV1 → Except AuthorityError Hash
  selectServiceAuthorization : List ServiceAuthorizationV1 → AuthorityRecord → ServiceIdentity →
    Nat → Nat → Except AuthorityError ServiceAuthorizationV1
  selectEndpointDelegation : List EndpointDelegationV1 → ServiceAuthorizationV1 → Nat → Nat →
    Hash → (EndpointDelegationV1 → Bool) → Except AuthorityError EndpointDelegationV1

/-- `HnsaRouteError`; the errors of the sequence state keep their own type. -/
inductive HnsaRouteError (ProtocolError RuntimeError : Type)
  | invalidContextGeneration
  | invalidServiceName
  | unsupportedNamedProfile
  | missingRouteCandidate
  | tooManyRouteCandidates (actual maximum : Nat)
  | expectedNameMismatch
  | hnsNetworkMismatch
  | anchorNotCurrent
  | noncanonicalAuthorityTxt
  | conflictingRouteSequence
  | sequenceState (error : SequenceStateError)
  | selectedRouteStateChanged
  | resourceBindingChanged
  | resourceGenerationChanged
  | profilePolicyChanged
  | trustedClockRollback
  | routeNotCurrent
  | openDeadlineBeyondRoute
  | requesterBindingMismatch
  | ticketIndexOutOfRange
  | authority (error : AuthorityError)
  | protocol (error : ProtocolError)
  | transport (error : HnsrTransportError RuntimeError)
  deriving DecidableEq

/-- What named routes read of a verified name resource. -/
structure VerifiedHnsResource where
  anchor : HnsAnchor
  nameHash : Hash
  name : Octets
  records : List HnsResourceRecord

/-- Floors that the platform holds; the generations are nonzero. -/
@[ext]
structure HnsaNamedRouteContext where
  resourceGeneration : Nat
  profilePolicyGeneration : Nat
  trustedTimeHighWater : Nat
  policy : NamedRoutePolicy
  resourceGeneration_ne : resourceGeneration ≠ 0
  profilePolicyGeneration_ne : profilePolicyGeneration ≠ 0

instance hnsaNamedRouteContextDecidableEq : DecidableEq HnsaNamedRouteContext := fun first second =>
  decidable_of_iff
    (first.resourceGeneration = second.resourceGeneration ∧
      first.profilePolicyGeneration = second.profilePolicyGeneration ∧
      first.trustedTimeHighWater = second.trustedTimeHighWater ∧ first.policy = second.policy)
    HnsaNamedRouteContext.ext_iff.symm

def HnsaNamedRouteContext.new {ProtocolError RuntimeError : Type}
    (resourceGeneration profilePolicyGeneration trustedTimeHighWater : Nat)
    (policy : NamedRoutePolicy) :
    Except (HnsaRouteError ProtocolError RuntimeError) HnsaNamedRouteContext :=
  if zero : resourceGeneration = 0 ∨ profilePolicyGeneration = 0 then
    .error .invalidContextGeneration
  else
    .ok ⟨resourceGeneration, profilePolicyGeneration, trustedTimeHighWater, policy,
      fun isZero => zero (.inl isZero), fun isZero => zero (.inr isZero)⟩

/-- Names are octets; the service name is the octets of its text. -/
structure HnsaNamedRouteRequest where
  expectedName : Octets
  serviceName : Octets
  profileId : UInt16
  context : HnsaNamedRouteContext
  trustedNow : Nat

end HnsDaneEngine.NamedRoute
