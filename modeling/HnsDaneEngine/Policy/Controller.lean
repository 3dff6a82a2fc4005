import HnsDaneEngine.Control.Except
import HnsDaneEngine.Primitives.Checked

/-!
# Resolution policy and its transport plan

A policy snapshot is a typed configuration under a generation.  The transport plan
of a configuration lists the candidates in the order in which they may be tried.
-/

namespace HnsDaneEngine.Policy

/-- Whether relays are asked. -/
inductive DnsRelayRequesterPolicy
  | auto
  | disabled
  | required
  deriving DecidableEq

/-- Whether queries are sealed. -/
inductive ObliviousDnsPolicy
  | required
  | preferred
  | directRelayAllowed
  | disabled
  deriving DecidableEq

/-- Independent roles, as bits: client 1, endpoint 2, relay 4, rendezvous 8. -/
structure HnsrPolicy where
  bits : UInt8
  known : bits ≤ 15
  deriving DecidableEq

/-- The profiles of the wire. -/
inductive WireProfile
  | shakescapeV1
  | official
  | auto
  deriving DecidableEq

/-- The services offered. -/
structure ProviderPolicy where
  dnsRelay : Bool
  odohProxy : Bool
  odohTarget : Bool
  marketGossip : Bool
  deriving DecidableEq

/-- The choices of the user. -/
structure PolicyConfig where
  dnsRelayRequester : DnsRelayRequesterPolicy
  obliviousDns : ObliviousDnsPolicy
  hnsr : HnsrPolicy
  authenticatedAuthoritativeDoh : Bool
  userConfiguredRecursiveHnsDoh : Bool
  providers : ProviderPolicy
  wireProfile : WireProfile
  allowLegacyRegtestCompatibility : Bool
  deriving DecidableEq

namespace PolicyConfig

def default : PolicyConfig where
  dnsRelayRequester := .auto
  obliviousDns := .directRelayAllowed
  hnsr := ⟨5, by decide⟩
  authenticatedAuthoritativeDoh := true
  userConfiguredRecursiveHnsDoh := false
  providers := ⟨false, true, false, false⟩
  wireProfile := .auto
  allowLegacyRegtestCompatibility := true

/-- The combinations of controls that do not conflict. -/
def isValid (config : PolicyConfig) : Bool :=
  !((config.obliviousDns = .required || config.obliviousDns = .preferred) &&
    config.dnsRelayRequester = .required)

end PolicyConfig

/-- A valid configuration under a nonzero generation. -/
structure PolicySnapshot where
  generation : Nat
  config : PolicyConfig
  generation_ne : generation ≠ 0
  valid : config.isValid = true
  deriving DecidableEq

def PolicySnapshot.default : PolicySnapshot :=
  ⟨1, .default, by decide, by decide⟩

/-- The ways to resolve. -/
inductive ResolutionTransport
  | directAuthoritativeUdp
  | directAuthoritativeTcp
  | authenticatedAuthoritativeDoh
  | handshakeP2pOdoh
  | handshakeP2pDnsRelay
  | unavailable
  | validatingIcannDoh
  | userConfiguredRecursiveHnsDoh
  | localHnsProof
  deriving DecidableEq

/-- Whether a configuration lets the direct relay follow as a fallback. -/
def relayAllowed (config : PolicyConfig) : Bool :=
  match config.obliviousDns with
  | .required | .preferred => false
  | .directRelayAllowed | .disabled => config.dnsRelayRequester ≠ .disabled

/-- `TransportPlan::for_policy`: direct candidates first, the user's own resolver
last. -/
def transportPlan (config : PolicyConfig) : List ResolutionTransport :=
  [.directAuthoritativeUdp, .directAuthoritativeTcp] ++
    (if config.authenticatedAuthoritativeDoh then [.authenticatedAuthoritativeDoh] else []) ++
    (if config.obliviousDns ≠ .disabled then [.handshakeP2pOdoh] else []) ++
    (if relayAllowed config then [.handshakeP2pDnsRelay] else []) ++
    (if config.userConfiguredRecursiveHnsDoh then [.userConfiguredRecursiveHnsDoh] else [])

theorem length_transportPlan_le (config : PolicyConfig) : (transportPlan config).length ≤ 6 := by
  unfold transportPlan
  split_ifs <;> simp

/-- No plan tries a transport twice. -/
theorem transportPlan_nodup (config : PolicyConfig) : (transportPlan config).Nodup := by
  unfold transportPlan
  split_ifs <;> decide

end HnsDaneEngine.Policy

/-!
## The policy controller

The controller holds the current snapshot.  It admits transports of the current plan
and replaces the configuration under a new generation.
-/

namespace HnsDaneEngine.Policy

open Primitives (u64Max)

/-- Why a policy is refused. -/
inductive PolicyError
  | invalidEncoding
  | unsupportedSchema
  | checksumMismatch
  | zeroGeneration
  | staleGeneration
  | generationExhausted
  | transportDisabled
  | unverifiedEvidence
  | conflictingPolicies
  deriving DecidableEq

/-- Generation-bound permission to start one transport attempt. -/
structure Admission where
  policyGeneration : Nat
  transport : ResolutionTransport

/-- Runtime actions after a change of the policy. -/
structure PolicyChangeEffects where
  stopAdmittingDisabledWork : Bool
  cancelOrDrainInflight : Bool
  clearRequesterSelections : Bool
  withdrawAdvertisements : Bool
  withdrawHnsrRoutes : Bool
  revokeTargetConfigurations : Bool
  renegotiatePeerConnections : Bool
  updateStructuredStatus : Bool

def PolicyChangeEffects.default : PolicyChangeEffects :=
  ⟨false, false, false, false, false, false, false, false⟩

namespace HnsrPolicy

def requesterEnabled (policy : HnsrPolicy) : Bool :=
  policy.bits &&& 1 != 0

def providerBits (policy : HnsrPolicy) : UInt8 :=
  policy.bits &&& 14

end HnsrPolicy

/-- One bit for each provider. -/
def ProviderPolicy.bits (policy : ProviderPolicy) : UInt16 :=
  policy.dnsRelay.toUInt16 ||| (policy.odohProxy.toUInt16 <<< 1) |||
    (policy.odohTarget.toUInt16 <<< 2) ||| (policy.marketGossip.toUInt16 <<< 3)

def transitionEffects (previous current : PolicyConfig) : PolicyChangeEffects where
  stopAdmittingDisabledWork := true
  cancelOrDrainInflight := true
  clearRequesterSelections :=
    previous.dnsRelayRequester != current.dnsRelayRequester ||
      previous.obliviousDns != current.obliviousDns ||
      previous.authenticatedAuthoritativeDoh != current.authenticatedAuthoritativeDoh ||
      previous.userConfiguredRecursiveHnsDoh != current.userConfiguredRecursiveHnsDoh ||
      previous.hnsr.requesterEnabled != current.hnsr.requesterEnabled
  withdrawAdvertisements :=
    previous.providers.bits &&& ~~~current.providers.bits != 0 ||
      previous.hnsr.providerBits &&& ~~~current.hnsr.providerBits != 0
  withdrawHnsrRoutes := previous.hnsr.providerBits &&& ~~~current.hnsr.providerBits != 0
  revokeTargetConfigurations := previous.providers.odohTarget && !current.providers.odohTarget
  renegotiatePeerConnections :=
    previous.providers != current.providers ||
      previous.hnsr.providerBits != current.hnsr.providerBits ||
      previous.wireProfile != current.wireProfile
  updateStructuredStatus := true

/-- A change of the policy. -/
structure PolicyTransition where
  previous : PolicySnapshot
  current : PolicySnapshot
  changed : Bool
  effects : PolicyChangeEffects

/-- The controller is its current snapshot. -/
structure PolicyController where
  snapshot : PolicySnapshot

variable (controller : PolicyController)

namespace PolicyController

def transportPlan (controller : PolicyController) : List ResolutionTransport :=
  Policy.transportPlan controller.snapshot.config

/-- `admit`: only a transport of the current plan is admitted. -/
def permit (transport : ResolutionTransport) : Except PolicyError Admission :=
  if transport = .unavailable ∨ transport ∉ controller.transportPlan then
    .error .transportDisabled
  else .ok ⟨controller.snapshot.generation, transport⟩

/-- Validate a completion against the current generation and policy. -/
def acceptCompletion (admission : Admission) : Except PolicyError Unit :=
  if admission.policyGeneration ≠ controller.snapshot.generation then .error .staleGeneration
  else if admission.transport ∉ controller.transportPlan then .error .transportDisabled
  else .ok ()

/-- Replace the policy if its generation is the expected one. -/
def replace (expectedGeneration : Nat) (nextConfig : PolicyConfig) :
    Except PolicyError (PolicyTransition × PolicyController) :=
  let previous := controller.snapshot
  if expectedGeneration ≠ previous.generation then .error .staleGeneration
  else if valid : nextConfig.isValid = true then
    if previous.config = nextConfig then
      .ok (⟨previous, previous, false, .default⟩, controller)
    else if previous.generation + 1 ≤ u64Max then
      let current : PolicySnapshot :=
        ⟨previous.generation + 1, nextConfig, Nat.succ_ne_zero previous.generation, valid⟩
      .ok (⟨previous, current, true, transitionEffects previous.config nextConfig⟩, ⟨current⟩)
    else .error .generationExhausted
  else .error .conflictingPolicies

end PolicyController

end HnsDaneEngine.Policy
