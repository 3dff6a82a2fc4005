import HnsDaneEngine.Control.Run
import HnsDaneEngine.Encoding.Octets
import HnsDaneEngine.Policy.Controller

/-!
# Transport attempts of one gateway resolution

A gateway walks the transport plan of one policy snapshot.  It issues one attempt
at a time; completing the attempt selects a response, moves on to the next
candidate, or ends the resolution.
-/

namespace HnsDaneEngine.Transport

open Policy Primitives

/-- Transport failure reported by one adapter. -/
inductive TransportFailure
  | unreachable
  | timeout
  | unsupported
  | truncated
  | malformed
  | authenticationFailed
  | cancelled
  deriving DecidableEq

namespace TransportFailure

def permitsFallbackFrom : TransportFailure → ResolutionTransport → Bool
  | .unreachable, _ => true
  | .timeout, _ => true
  | .unsupported, _ => true
  | .truncated, .directAuthoritativeUdp => true
  | _, _ => false

end TransportFailure

inductive GatewayError
  | invalidLimits
  | stalePolicy
  | attemptAlreadyActive
  | noActiveAttempt
  | attemptMismatch
  | noCandidate
  | terminal
  | sequenceExhausted
  | instanceSequenceExhausted
  | timeOverflow
  | terminalTransportFailure (failure : TransportFailure)
  | invalidResponseSize
  | missingIdentity
  | invalidIdentity
  | invalidIdentityTopology
  | unavailableTransport
  deriving DecidableEq

structure GatewayLimits where
  attemptTimeoutSeconds : Nat
  maximumResponseBytes : Nat
  maximumIdentityBytes : Nat
  deriving DecidableEq

namespace GatewayLimits

def default : GatewayLimits where
  attemptTimeoutSeconds := 10
  maximumResponseBytes := 65535
  maximumIdentityBytes := 256

def validate (limits : GatewayLimits) : Except GatewayError GatewayLimits :=
  if limits.attemptTimeoutSeconds = 0 ∨ 300 < limits.attemptTimeoutSeconds ∨
      limits.maximumResponseBytes = 0 ∨ 65535 < limits.maximumResponseBytes ∨
      limits.maximumIdentityBytes = 0 ∨ 4096 < limits.maximumIdentityBytes then
    .error .invalidLimits
  else .ok limits

end GatewayLimits

/-- Identities observed on an intermediary path, as the octets of their text. -/
structure GatewayIdentities where
  peer : Option Octets
  proxy : Option Octets
  target : Option Octets
  deriving DecidableEq

def GatewayIdentities.default : GatewayIdentities :=
  ⟨none, none, none⟩

/-- How an attempt ends. -/
inductive AttemptOutcome
  | response (bytes : Octets) (identities : GatewayIdentities)
  | failure (failure : TransportFailure)

/-- Token of one attempt. -/
structure GatewayAttempt where
  instanceId : Nat
  policyGeneration : Nat
  sequence : Nat
  candidateIndex : Nat
  transport : ResolutionTransport
  deadline : Nat
  deriving DecidableEq

structure GatewaySelection where
  policyGeneration : Nat
  transport : ResolutionTransport
  response : Octets
  identities : GatewayIdentities
  directRelayFallback : Bool
  deriving DecidableEq

inductive GatewayStep
  | retryAvailable
  | selected (selection : GatewaySelection)
  | unavailable
  deriving DecidableEq

/-- The attempts of one resolution. -/
structure Gateway where
  instanceId : Nat
  limits : GatewayLimits
  policy : PolicySnapshot
  plan : List ResolutionTransport
  nextCandidate : Nat
  sequence : Nat
  active : Option GatewayAttempt
  terminal : Bool
  odohAttempted : Bool
  deriving DecidableEq

variable (gateway : Gateway)

namespace Gateway

/-- `instances` is the process-wide counter `NEXT_GATEWAY_ID`, returned as it is
left behind. -/
def new (instances : Nat) (policy : PolicySnapshot) (limits : GatewayLimits) :
    Except GatewayError Gateway × Nat :=
  match limits.validate with
  | .error error => (.error error, instances)
  | .ok limits =>
    match checkedAdd instances 1 with
    | none => (.error .instanceSequenceExhausted, instances)
    | some next =>
      (.ok
        { instanceId := instances
          limits
          policy
          plan := transportPlan policy.config
          nextCandidate := 0
          sequence := 0
          active := none
          terminal := false
          odohAttempted := false },
        next)

/-- Give up the plan and the attempt in flight. -/
def revoke : Gateway :=
  { gateway with active := none, terminal := true }

def ensureCurrentPolicy (current : PolicySnapshot) : Except GatewayError Unit × Gateway :=
  if current.generation ≠ gateway.policy.generation ∨ current.config ≠ gateway.policy.config then
    (.error .stalePolicy, gateway.revoke)
  else (.ok (), gateway)

/-- Begin the next candidate of the plan. -/
def nextAttempt (currentPolicy : PolicySnapshot) (now : Nat) :
    Except GatewayError GatewayAttempt × Gateway :=
  match gateway.ensureCurrentPolicy currentPolicy with
  | (.error error, gateway) => (.error error, gateway)
  | (.ok (), gateway) =>
    if gateway.terminal then (.error .terminal, gateway)
    else if gateway.active.isSome then (.error .attemptAlreadyActive, gateway)
    else
      match gateway.plan[gateway.nextCandidate]? with
      | none => (.error .noCandidate, gateway)
      | some transport =>
        match checkedAdd gateway.sequence 1 with
        | none => (.error .sequenceExhausted, gateway)
        | some sequence =>
          match checkedAdd now gateway.limits.attemptTimeoutSeconds with
          | none => (.error .timeOverflow, gateway)
          | some deadline =>
            let attempt : GatewayAttempt :=
              { instanceId := gateway.instanceId
                policyGeneration := gateway.policy.generation
                sequence
                candidateIndex := gateway.nextCandidate
                transport
                deadline }
            (.ok attempt,
              { gateway with
                nextCandidate := gateway.nextCandidate + 1
                sequence
                odohAttempted := gateway.odohAttempted || transport = .handshakeP2pOdoh
                active := some attempt })

def retryOrUnavailable (failure : TransportFailure)
    (transport : ResolutionTransport) : Except GatewayError GatewayStep × Gateway :=
  if !failure.permitsFallbackFrom transport then
    (.error (.terminalTransportFailure failure), { gateway with terminal := true })
  else if gateway.nextCandidate < gateway.plan.length then (.ok .retryAvailable, gateway)
  else (.ok .unavailable, { gateway with terminal := true })

/-- The identities that are present, in the order in which they are checked. -/
def presentIdentities (identities : GatewayIdentities) : List Octets :=
  [identities.peer, identities.proxy, identities.target].filterMap id

def validateTopology (identities : GatewayIdentities) :
    ResolutionTransport → Except GatewayError Unit
  | .handshakeP2pOdoh =>
    match identities.proxy with
    | none => .error .missingIdentity
    | some proxy =>
      match identities.target with
      | none => .error .missingIdentity
      | some target =>
        if identities.peer.isSome ∨ proxy = target then .error .invalidIdentityTopology
        else .ok ()
  | .handshakeP2pDnsRelay =>
    if identities.peer.isNone ∨ identities.proxy.isSome ∨ identities.target.isSome then
      .error .invalidIdentityTopology
    else .ok ()
  | .directAuthoritativeUdp | .directAuthoritativeTcp | .authenticatedAuthoritativeDoh
  | .userConfiguredRecursiveHnsDoh =>
    if identities ≠ .default then .error .invalidIdentityTopology else .ok ()
  | .unavailable | .validatingIcannDoh | .localHnsProof => .error .unavailableTransport

def validateResponse (bytes : Octets) (identities : GatewayIdentities)
    (transport : ResolutionTransport) : Except GatewayError Unit :=
  if bytes.isEmpty ∨ gateway.limits.maximumResponseBytes < bytes.length then
    .error .invalidResponseSize
  else if (presentIdentities identities).any fun identity =>
      identity.isEmpty || gateway.limits.maximumIdentityBytes < identity.length then
    .error .invalidIdentity
  else validateTopology identities transport

/-- Complete the active attempt. -/
def complete (currentPolicy : PolicySnapshot) (attempt : GatewayAttempt)
    (outcome : AttemptOutcome) (now : Nat) : Except GatewayError GatewayStep × Gateway :=
  match gateway.ensureCurrentPolicy currentPolicy with
  | (.error error, gateway) => (.error error, gateway)
  | (.ok (), gateway) =>
    match gateway.active with
    | none => (.error .noActiveAttempt, gateway)
    | some active =>
      if active ≠ attempt then (.error .attemptMismatch, gateway)
      else
        let gateway := { gateway with active := none }
        if attempt.deadline < now then gateway.retryOrUnavailable .timeout attempt.transport
        else
          match outcome with
          | .failure failure => gateway.retryOrUnavailable failure attempt.transport
          | .response bytes identities =>
            match gateway.validateResponse bytes identities attempt.transport with
            | .error error => (.error error, { gateway with terminal := true })
            | .ok () =>
              (.ok (.selected
                { policyGeneration := gateway.policy.generation
                  transport := attempt.transport
                  response := bytes
                  identities
                  directRelayFallback :=
                    attempt.transport = .handshakeP2pDnsRelay && gateway.odohAttempted }),
                { gateway with terminal := true })

end Gateway

end HnsDaneEngine.Transport
