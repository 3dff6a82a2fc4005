import HnsDaneEngine.NamedRoute.Protocol
import HnsDaneEngine.Order.Latest

/-!
# Selection of named routes

A batch of encoded records is decoded, and the newest authorization, for every endpoint the
newest delegation, and under it the newest verified route are selected.  The durable state
follows each of these choices, also when a later part of the batch fails.
-/

namespace HnsDaneEngine.NamedRoute

open Control
open Light (HnsResourceRecord)
open HnsDaneEngine.Order Primitives
open Resolver (HnsAnchor Network)

/-- A verified candidate before replacement selection. -/
structure VerifiedHnsaNamedRouteCandidate (RelayTicket : Type) where
  binding : HnsrTransportBinding
  context : HnsaNamedRouteContext
  trustedTimeHighWater : Nat
  anchor : HnsAnchor
  name : Octets
  authorityDigest : Hash
  record : NamedRouteRecordV2 RelayTicket

/-- What a selection rests on. -/
structure HnsaSelectionCommitment where
  authorityDigest : Hash
  routeKey : Hash
  endpointKey : EndpointKey
  authorization : HnsaAuthorizationState
  delegation : HnsaDelegationState
  route : HnsaRouteState

/-- A route and its commitment. -/
structure SelectedHnsaNamedRoute (RelayTicket : Type) where
  candidate : VerifiedHnsaNamedRouteCandidate RelayTicket
  commitment : HnsaSelectionCommitment

namespace VerifiedHnsaNamedRouteCandidate

variable {RelayTicket : Type} (candidate : VerifiedHnsaNamedRouteCandidate RelayTicket)

/-- The first time at which both the chain anchor and the route hold. -/
def validFrom : Nat :=
  if candidate.record.issuedAt < candidate.anchor.validatedAt then candidate.anchor.validatedAt
  else candidate.record.issuedAt

/-- The first time at which the chain anchor or the route has expired. -/
def validUntil : Nat :=
  if candidate.anchor.validUntil < candidate.record.expiresAt then candidate.anchor.validUntil
  else candidate.record.expiresAt

def isBoundToResource (resource : VerifiedHnsResource) : Prop :=
  candidate.anchor = resource.anchor ∧ candidate.name = resource.name ∧
    candidate.record.authorization.nameHash = resource.nameHash

instance isBoundToResourceDecidable (resource : VerifiedHnsResource) :
    Decidable (candidate.isBoundToResource resource) :=
  inferInstanceAs (Decidable (_ ∧ _ ∧ _))

end VerifiedHnsaNamedRouteCandidate

/-- `HNS-DANE-HNSA-AUTHORITY-STATE-V1` and a zero octet. -/
def hnsaAuthorityDigestDomain : Octets :=
  [72, 78, 83, 45, 68, 65, 78, 69, 45, 72, 78, 83, 65, 45, 65, 85, 84, 72, 79, 82, 73, 84, 89, 45,
    83, 84, 65, 84, 69, 45, 86, 49, 0]

/-- `HNS-DANE-HNSA-ROUTE-STATE-V1` and a zero octet. -/
def hnsaRouteDigestDomain : Octets :=
  [72, 78, 83, 45, 68, 65, 78, 69, 45, 72, 78, 83, 65, 45, 82, 79, 85, 84, 69, 45, 83, 84, 65, 84,
    69, 45, 86, 49, 0]

def isServiceNameOctet (byte : UInt8) : Bool :=
  (0x61 ≤ byte && byte ≤ 0x7a) || (0x30 ≤ byte && byte ≤ 0x39) || byte == 0x2d

def isCanonicalServiceName (name : Octets) : Bool :=
  1 ≤ name.length && name.length ≤ 63 && name.head? != some 0x2d && name.getLast? != some 0x2d &&
    name.all isServiceNameOctet

/-- `hsa1`, alone or in front of a space. -/
def isHsa1Candidate (value : Octets) : Bool :=
  value == [0x68, 0x73, 0x61, 0x31] || [0x68, 0x73, 0x61, 0x31, 0x20].isPrefixOf value

def isUtf8 (value : Octets) : Bool :=
  (String.fromUTF8? ⟨value.toArray⟩).isSome

def networkId : Network → Nat
  | .mainnet => 0
  | .testnet => 1
  | .regtest => 2
  | .simnet => 3

section

variable {AuthorityRecord RelayTicket ProtocolError RuntimeError : Type}

/-- The loop of `authority_from_resource` over the records of the resource. -/
def authorityCandidates : List HnsResourceRecord →
    Except (HnsaRouteError ProtocolError RuntimeError) (List Octets)
  | [] => .ok []
  | .txt strings :: records =>
    if ¬ strings.any isHsa1Candidate then authorityCandidates records
    else
      match strings with
      | [string] =>
        if isUtf8 string then do
          let candidates ← authorityCandidates records
          .ok (string :: candidates)
        else .error .noncanonicalAuthorityTxt
      | _ => .error .noncanonicalAuthorityTxt
  | _ :: records => authorityCandidates records

variable (protocol : HnsaProtocol AuthorityRecord RelayTicket ProtocolError)

def authorityFromResource (resource : VerifiedHnsResource) :
    Except (HnsaRouteError ProtocolError RuntimeError) AuthorityRecord := do
  let candidates ← authorityCandidates resource.records
  (protocol.selectAuthorityRecord candidates).mapError .authority

def authorityDigest (authority : AuthorityRecord) :
    Except (HnsaRouteError ProtocolError RuntimeError) Hash := do
  let encoded ← (protocol.encodeAuthority authority).mapError .authority
  .ok (protocol.blake2b256 (hnsaAuthorityDigestDomain ++ encoded))

def ensureAnchorCurrent (anchor : HnsAnchor) (trustedNow : Nat) :
    Except (HnsaRouteError ProtocolError RuntimeError) Unit :=
  if trustedNow < anchor.validatedAt ∨ anchor.validUntil ≤ trustedNow then
    .error .anchorNotCurrent
  else .ok ()

def checkRequest (resource : VerifiedHnsResource) (encodedRecords : List Octets)
    (request : HnsaNamedRouteRequest) :
    Except (HnsaRouteError ProtocolError RuntimeError) Unit :=
  if encodedRecords.isEmpty then .error .missingRouteCandidate
  else if protocol.maxRecordsPerKey < encodedRecords.length then
    .error (.tooManyRouteCandidates encodedRecords.length protocol.maxRecordsPerKey)
  else if resource.name ≠ request.expectedName then .error .expectedNameMismatch
  else if ¬ isCanonicalServiceName request.serviceName then .error .invalidServiceName
  else if ¬ (request.profileId = protocol.hnsWebV1 ∨ request.profileId = protocol.hnsChatV1) then
    .error .unsupportedNamedProfile
  else if request.trustedNow < request.context.trustedTimeHighWater then
    .error .trustedClockRollback
  else ensureAnchorCurrent resource.anchor request.trustedNow

def checkNetwork (binding : HnsrTransportBinding) (anchor : HnsAnchor) :
    Except (HnsaRouteError ProtocolError RuntimeError) Unit :=
  if networkId binding.network ≠ networkId anchor.network then .error .hnsNetworkMismatch
  else .ok ()

/-- What the checks before the durable state yield. -/
structure Scope (AuthorityRecord : Type) where
  authority : AuthorityRecord
  authorityDigest : Hash
  binding : HnsrTransportBinding
  identity : ServiceIdentity
  routeKey : Hash

/-- `verify_and_select_hnsa_named_routes` up to the binding of the state. -/
def prepare (engine : Engine) (resource : VerifiedHnsResource)
    (encodedRecords : List Octets) (request : HnsaNamedRouteRequest) :
    Except (HnsaRouteError ProtocolError RuntimeError) (Scope AuthorityRecord) := do
  checkRequest protocol resource encodedRecords request
  let authority ← authorityFromResource protocol resource
  let digest ← authorityDigest protocol authority
  let binding ← (engine.mintHnsrTransportBinding protocol.networkMagic .requester
    request.profileId request.context.policy.allowPrivateRelays).1.mapError .transport
  checkNetwork binding resource.anchor
  let identity : ServiceIdentity :=
    ⟨binding.networkMagic, resource.nameHash, request.serviceName, request.profileId⟩
  let routeKey ← (protocol.namedRouteKey identity).mapError .protocol
  .ok ⟨authority, digest, binding, identity, routeKey⟩

/-- The effects of a selection on the durable state. -/
abbrev SelectionEffect (ProtocolError RuntimeError α : Type) : Type :=
  Effect HnsaNamedRouteState (HnsaRouteError ProtocolError RuntimeError) α

/-- A mutator of the state within a selection. -/
def onState {α : Type} (action : StateEffect α) : SelectionEffect ProtocolError RuntimeError α :=
  action.mapError .sequenceState

/-- The failure at a conflict among the records of the batch. -/
def failConflicted {α : Type} (error : HnsaRouteError ProtocolError RuntimeError) :
    SelectionEffect ProtocolError RuntimeError α := do
  onState markConflicted
  Effect.throw error

/-- What stays the same while the records of a batch are selected. -/
structure Selecting (AuthorityRecord : Type) where
  scope : Scope AuthorityRecord
  resource : VerifiedHnsResource
  request : HnsaNamedRouteRequest

def chooseAuthorization (selecting : Selecting AuthorityRecord)
    (decoded : List (NamedRouteRecordV2 RelayTicket)) :
    SelectionEffect ProtocolError RuntimeError ServiceAuthorizationV1 :=
  match protocol.selectServiceAuthorization (decoded.map NamedRouteRecordV2.authorization)
      selecting.scope.authority selecting.scope.identity selecting.resource.anchor.height
      selecting.request.context.policy.allowedAuthorizationFlags with
  | .ok authorization => pure authorization
  | .error .conflictingSequence => failConflicted (.authority .conflictingSequence)
  | .error error => Effect.throw (.authority error)

section

variable [DecidableEq RelayTicket]

/-- The records under the authorization. -/
def authorized (authorization : ServiceAuthorizationV1)
    (decoded : List (NamedRouteRecordV2 RelayTicket)) : List (NamedRouteRecordV2 RelayTicket) :=
  decoded.filter fun record => record.authorization = authorization

omit [DecidableEq RelayTicket] in
/-- The keys of a `BTreeSet`: each endpoint once, in ascending order. -/
def endpointKeys (authorization : ServiceAuthorizationV1)
    (decoded : List (NamedRouteRecordV2 RelayTicket)) : List EndpointKey :=
  (((authorized authorization decoded).map fun record => record.delegation.endpointKey).dedup
    ).insertionSort fun first second => first ≤ second

/-- The selection of a delegation for one endpoint. -/
def delegationFor (selecting : Selecting AuthorityRecord) (authorization : ServiceAuthorizationV1)
    (decoded : List (NamedRouteRecordV2 RelayTicket)) (endpointKey : EndpointKey) :
    Except AuthorityError EndpointDelegationV1 :=
  protocol.selectEndpointDelegation
    ((authorized authorization decoded).map NamedRouteRecordV2.delegation) authorization
    selecting.request.trustedNow selecting.request.context.policy.allowedEndpointCapabilities
    selecting.request.context.policy.expectedConstraintsHash
    fun candidate => candidate.endpointKey = endpointKey

/-- No delegation is returned for an endpoint without a usable one. -/
def chooseDelegation (selecting : Selecting AuthorityRecord)
    (authorization : ServiceAuthorizationV1) (decoded : List (NamedRouteRecordV2 RelayTicket))
    (endpointKey : EndpointKey) :
    SelectionEffect ProtocolError RuntimeError (Option EndpointDelegationV1) :=
  match delegationFor protocol selecting authorization decoded endpointKey with
  | .ok delegation => pure (some delegation)
  | .error .missing => pure none
  | .error .conflictingSequence => failConflicted (.authority .conflictingSequence)
  | .error error => Effect.throw (.authority error)

def hasRequiredCapabilities (request : HnsaNamedRouteRequest)
    (delegation : EndpointDelegationV1) : Prop :=
  delegation.capabilities &&& request.context.policy.requiredEndpointCapabilities =
    request.context.policy.requiredEndpointCapabilities

instance hasRequiredCapabilitiesDecidable (request : HnsaNamedRouteRequest)
    (delegation : EndpointDelegationV1) : Decidable (hasRequiredCapabilities request delegation) :=
  inferInstanceAs (Decidable (_ = _))

def trustOf (selecting : Selecting AuthorityRecord) : NamedRouteTrust AuthorityRecord where
  authority := selecting.scope.authority
  identity := selecting.scope.identity
  currentHeight := selecting.resource.anchor.height
  policy := selecting.request.context.policy

/-- The routes under a delegation that verify. -/
def verifiedRoutes (selecting : Selecting AuthorityRecord)
    (authorization : ServiceAuthorizationV1) (decoded : List (NamedRouteRecordV2 RelayTicket))
    (delegation : EndpointDelegationV1) : List (NamedRouteRecordV2 RelayTicket) :=
  decoded.filter fun record =>
    record.authorization = authorization ∧ record.delegation = delegation ∧
      protocol.verifyRecord record (trustOf selecting) selecting.request.trustedNow = true

/-- The loop that keeps the verified route with the greatest sequence. -/
def latestRoute (selecting : Selecting AuthorityRecord) (authorization : ServiceAuthorizationV1)
    (decoded : List (NamedRouteRecordV2 RelayTicket)) (delegation : EndpointDelegationV1) :
    SelectionEffect ProtocolError RuntimeError (Option (NamedRouteRecordV2 RelayTicket)) :=
  match scanLatest NamedRouteRecordV2.sequence none
      (verifiedRoutes protocol selecting authorization decoded delegation) with
  | none => failConflicted .conflictingRouteSequence
  | some latest => pure latest

end

def commitmentFromCandidate (candidate : VerifiedHnsaNamedRouteCandidate RelayTicket) :
    Except (HnsaRouteError ProtocolError RuntimeError) HnsaSelectionCommitment := do
  let authorizationId ←
    (protocol.authorizationId candidate.record.authorization).mapError .authority
  let delegationId ← (protocol.delegationId candidate.record.delegation).mapError .authority
  let encoded ← (protocol.encodeRecord candidate.record).mapError .protocol
  .ok
    { authorityDigest := candidate.authorityDigest
      routeKey := candidate.record.routeKey
      endpointKey := candidate.record.delegation.endpointKey
      authorization := ⟨candidate.record.authorization.serial, authorizationId⟩
      delegation := ⟨candidate.record.delegation.endpointSequence, delegationId⟩
      route := ⟨candidate.record.sequence,
        protocol.blake2b256 (hnsaRouteDigestDomain ++ encoded)⟩ }

def candidateOf (selecting : Selecting AuthorityRecord) (record : NamedRouteRecordV2 RelayTicket) :
    VerifiedHnsaNamedRouteCandidate RelayTicket where
  binding := selecting.scope.binding
  context := selecting.request.context
  trustedTimeHighWater := selecting.request.trustedNow
  anchor := selecting.resource.anchor
  name := selecting.resource.name
  authorityDigest := selecting.scope.authorityDigest
  record := record

/-- The end of a round: the state follows the latest route. -/
def commitRoute (selecting : Selecting AuthorityRecord) (endpointKey : EndpointKey)
    (record : NamedRouteRecordV2 RelayTicket) :
    SelectionEffect ProtocolError RuntimeError (SelectedHnsaNamedRoute RelayTicket) := do
  let candidate := candidateOf selecting record
  let commitment ← Effect.ofExcept (commitmentFromCandidate protocol candidate)
  onState (advanceRoute endpointKey commitment.route.sequence commitment.route.id)
  pure ⟨candidate, commitment⟩

variable [DecidableEq RelayTicket]

/-- The routes of an endpoint whose delegation has the required capabilities. -/
def selectUnder (selecting : Selecting AuthorityRecord) (authorization : ServiceAuthorizationV1)
    (decoded : List (NamedRouteRecordV2 RelayTicket)) (endpointKey : EndpointKey)
    (delegation : EndpointDelegationV1) :
    SelectionEffect ProtocolError RuntimeError (Option (SelectedHnsaNamedRoute RelayTicket)) :=
  if ¬ hasRequiredCapabilities selecting.request delegation then pure none
  else do
    let latest ← latestRoute protocol selecting authorization decoded delegation
    match latest with
    | none => pure none
    | some record =>
      let selected ← commitRoute protocol selecting endpointKey record
      pure (some selected)

/-- A round for a delegation: the state follows it, also when it leads to no route. -/
def selectRoute (selecting : Selecting AuthorityRecord) (authorization : ServiceAuthorizationV1)
    (decoded : List (NamedRouteRecordV2 RelayTicket)) (endpointKey : EndpointKey)
    (delegation : EndpointDelegationV1) :
    SelectionEffect ProtocolError RuntimeError (Option (SelectedHnsaNamedRoute RelayTicket)) := do
  let delegationId ← Effect.ofExcept ((protocol.delegationId delegation).mapError .authority)
  onState (advanceDelegation endpointKey delegation.endpointSequence delegationId)
  selectUnder protocol selecting authorization decoded endpointKey delegation

/-- One round of the loop over the endpoints. -/
def selectEndpoint (selecting : Selecting AuthorityRecord)
    (authorization : ServiceAuthorizationV1) (decoded : List (NamedRouteRecordV2 RelayTicket))
    (endpointKey : EndpointKey) :
    SelectionEffect ProtocolError RuntimeError (Option (SelectedHnsaNamedRoute RelayTicket)) := do
  let delegation ← chooseDelegation protocol selecting authorization decoded endpointKey
  match delegation with
  | none => pure none
  | some delegation =>
    selectRoute protocol selecting authorization decoded endpointKey delegation

def selectEndpoints (selecting : Selecting AuthorityRecord)
    (authorization : ServiceAuthorizationV1) (decoded : List (NamedRouteRecordV2 RelayTicket)) :
    List EndpointKey →
      SelectionEffect ProtocolError RuntimeError (List (SelectedHnsaNamedRoute RelayTicket))
  | [] => pure []
  | endpointKey :: endpointKeys => do
    let first ← selectEndpoint protocol selecting authorization decoded endpointKey
    let rest ← selectEndpoints selecting authorization decoded endpointKeys
    pure (first.toList ++ rest)

/-- `verify_and_select_hnsa_named_routes` from the binding of the state on.  The last check reads
the engine as it is then. -/
def selectBound (later : Engine) (selecting : Selecting AuthorityRecord)
    (decoded : List (NamedRouteRecordV2 RelayTicket)) :
    SelectionEffect ProtocolError RuntimeError (List (SelectedHnsaNamedRoute RelayTicket)) := do
  onState (bindScope selecting.scope.authorityDigest selecting.scope.routeKey
    selecting.request.context.resourceGeneration)
  onState ensureActive
  if decoded.isEmpty then Effect.throw .missingRouteCandidate
  else
    let authorization ← chooseAuthorization protocol selecting decoded
    let authorizationId ←
      Effect.ofExcept ((protocol.authorizationId authorization).mapError .authority)
    onState (advanceAuthorization authorization.serial authorizationId)
    let selected ← selectEndpoints protocol selecting authorization decoded
      (endpointKeys authorization decoded)
    if selected.isEmpty then Effect.throw .missingRouteCandidate
    else
      Effect.ofExcept ((later.validateHnsrTransportBinding protocol.networkMagic
        selecting.scope.binding).mapError .transport)
      pure selected

def verifyAndSelectHnsaNamedRoutes (engine later : Engine) (resource : VerifiedHnsResource)
    (encodedRecords : List Octets) (request : HnsaNamedRouteRequest) :
    SelectionEffect ProtocolError RuntimeError (List (SelectedHnsaNamedRoute RelayTicket)) := do
  let scope ← Effect.ofExcept (prepare protocol engine resource encodedRecords request)
  selectBound protocol later ⟨scope, resource, request⟩
    (encodedRecords.filterMap protocol.decodeRecord)

end

end HnsDaneEngine.NamedRoute
