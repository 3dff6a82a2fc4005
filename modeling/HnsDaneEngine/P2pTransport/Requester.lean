import HnsDaneEngine.Control.Effect
import HnsDaneEngine.Transport.Gateway
import HnsDaneEngine.Wire.Encode

/-!
# Requesters of the peer-to-peer DNS transports

The relay requester asks one authenticated peer; the ODoH requester asks a proxy
for the configuration of a target or hands it a sealed query.  All three calls
are one exchange: checks, a fresh request id, an encoded packet, one answer of
the adapter, and the checks of that answer.  The packet codecs, the sealing of
queries and the admission of packets belong to other crates and are parameters.
-/

namespace HnsDaneEngine.P2pTransport

open Control Transport Wire

/-- Data of other crates that the requesters only hand on. -/
structure ProtocolTypes where
  Admission : Type
  AdmissionError : Type
  RelayError : Type
  OdohError : Type
  OdohStatus : Type
  Locator : Type
  Configuration : Type
  Sealed : Type
  Context : Type
  Entropy : Type

/-- Assignments of semantic packets. -/
inductive PacketType
  | dnsRelayRequest
  | dnsRelayResponse
  | odoh
  | other (code : UInt8)
  deriving DecidableEq

/-- The status of a response. -/
inductive DnsRelayStatus
  | ok
  | other (code : UInt8)
  deriving DecidableEq

/-- The kinds of packets. -/
inductive OdohOpcode
  | getConfig
  | config
  | clientQuery
  | clientResponse
  | error
  | other (code : UInt8)

/-- Compressed key authenticated by an established session. -/
structure PeerIdentity where
  key : Octets
  deriving DecidableEq

/-- Why an adapter fails. -/
inductive AdapterFailure
  | unreachable
  | timeout
  | unsupported
  | authenticationFailed
  | cancelled

/-- Request passed to a platform adapter. -/
structure ExperimentalRequest where
  peer : PeerIdentity
  packet : PacketType
  payload : Octets
  deadline : Nat
  maximumResponsePayload : Nat

/-- Response attested by a platform adapter. -/
structure ExperimentalResponse where
  authenticatedPeer : PeerIdentity
  packet : PacketType
  payload : Octets
  completedAt : Nat

/-- The response of a relay. -/
structure DnsRelay where
  requestId : UInt64
  status : DnsRelayStatus
  response : Octets

/-- A packet with its request. -/
structure OdnsPacket where
  opcode : OdohOpcode
  requestId : UInt64
  body : Octets

section

variable (T : ProtocolTypes)

/-- The fields of an established peer that an exchange reads. -/
structure AuthenticatedPeer where
  identity : PeerIdentity
  admission : T.Admission
  maximumSendSize : Nat

/-- A sealed query. -/
structure ClientQuery where
  locator : T.Locator
  configId : Octets
  message : T.Sealed
  padding : Octets

/-- The keys of a target. -/
structure TargetConfigRecord where
  locator : T.Locator
  configurations : List T.Configuration
  recordId : Octets
  sequence : UInt64
  expiresAt : Nat

/-- A signed, current target record reduced to immutable requester fields. -/
structure VerifiedOdohTarget where
  locator : T.Locator
  configuration : T.Configuration
  recordId : Octets
  sequence : UInt64
  expiresAt : Nat

/-- Why an exchange fails. -/
inductive P2pTransportError
  | invalidLimits
  | invalidPeerIdentity
  | peerAdmission (error : T.AdmissionError)
  | dnsRelayProtocol (error : T.RelayError)
  | odohProtocol (error : T.OdohError)
  | dnsWire (error : Wire.Error)
  | adapter (failure : AdapterFailure)
  | missingOdohConfiguration
  | expiredOdohTarget
  | proxyTargetCollision
  | peerIdentityMismatch
  | unexpectedPacket (expected actual : PacketType)
  | unexpectedOdohOpcode (actual : OdohOpcode)
  | requestIdMismatch
  | requestIdExhausted
  | negotiatedRequestLimit
  | dnsRelayStatus (status : DnsRelayStatus)
  | odohStatus (status : T.OdohStatus)
  | responseLimit
  | cancelled
  | deadlineExpired
  | responseClockRollback

/-- The functions and constants of the protocol crates. -/
structure Protocols where
  isPublicKey : Octets → Bool
  admitPacket : T.Admission → PacketType → Except T.AdmissionError Unit × T.Admission
  maxDnsRelayQuerySize : Nat
  maxDnsRelayResponsePayloadSize : Nat
  /-- `GetDnsRelay::new` and its encoding. -/
  encodeGetDnsRelay : UInt64 → Octets → Except T.RelayError Octets
  decodeGetDnsRelay : Octets → Except T.RelayError (UInt64 × Octets)
  decodeDnsRelay : Octets → Except T.RelayError DnsRelay
  maxOdohQuerySize : Nat
  maxOdohPacketSize : Nat
  maxOuterPaddingSize : Nat
  targetPeerKey : T.Locator → Octets
  newOdnsPacket : OdohOpcode → UInt64 → Octets → Except T.OdohError OdnsPacket
  encodeOdnsPacket : OdnsPacket → Except T.OdohError Octets
  decodeOdnsPacket : Octets → Except T.OdohError OdnsPacket
  encodeGetConfigBody : T.Locator → Bool → Octets
  /-- The signed record of a configuration body. -/
  decodeOdohConfigBody : Octets → Except T.OdohError Octets
  decodeOdohErrorBody : Octets → Except T.OdohError T.OdohStatus
  decodeOdohResponseBody : Octets → Except T.OdohError T.Sealed
  encodeClientQuery : ClientQuery T → Except T.OdohError Octets
  decodeAndVerify : Octets → T.Locator → UInt32 → Nat → Bool →
    Except T.OdohError (TargetConfigRecord T)
  sealQuery : T.Entropy → T.Configuration → Octets → Except T.OdohError (T.Sealed × T.Context)
  openResponse : T.Context → T.Sealed → Except T.OdohError Octets

end

/-- A 64-bit number that is not zero. -/
structure NonZeroU64 where
  value : UInt64
  ne_zero : value ≠ 0

namespace NonZeroU64

def new (value : UInt64) : Option NonZeroU64 :=
  if ne_zero : value ≠ 0 then some ⟨value, ne_zero⟩ else none

/-- `checked_add(1)`. -/
def checkedSucc (number : NonZeroU64) : Option UInt64 :=
  if number.value.toNat + 1 < 2 ^ 64 then some (number.value + 1) else none

end NonZeroU64

/-- The next id, until all are used. -/
structure RequestIds where
  next : Option NonZeroU64

/-- The bounds of a requester. -/
structure RequesterLimits where
  maximumDnsResponseBytes : Nat
  odohPaddingBucket : Nat

/-- Bounds for a DNS response, the crate's own limit. -/
def maxDnsResponseBytes : Nat := 65535

section

variable {T : ProtocolTypes} (protocols : Protocols T)

def RequesterLimits.validate (limits : RequesterLimits) :
    Except (P2pTransportError T) RequesterLimits :=
  if limits.maximumDnsResponseBytes < 12 ∨ maxDnsResponseBytes < limits.maximumDnsResponseBytes ∨
      (limits.odohPaddingBucket ≠ 0 ∧
        (¬ (128 ≤ limits.odohPaddingBucket ∧
            limits.odohPaddingBucket ≤ protocols.maxOuterPaddingSize) ∨
          ¬ limits.odohPaddingBucket.isPowerOfTwo)) then
    .error .invalidLimits
  else .ok limits

def PeerIdentity.new (key : Octets) : Except (P2pTransportError T) PeerIdentity :=
  if protocols.isPublicKey key then .ok ⟨key⟩ else .error .invalidPeerIdentity

def hexDigit (nibble : UInt8) : UInt8 :=
  if nibble < 10 then 48 + nibble else 87 + nibble

/-- `brontide:` and the key in hexadecimal digits. -/
def PeerIdentity.gatewayLabel (identity : PeerIdentity) : Octets :=
  ([98, 114, 111, 110, 116, 105, 100, 101, 58] : Octets) ++
    identity.key.flatMap fun octet : UInt8 => [hexDigit (octet >>> 4), hexDigit (octet &&& 15)]

namespace VerifiedOdohTarget

/-- Verify a target-signed record and select one supported configuration. -/
def decode (record : Octets) (expectedLocator : T.Locator) (expectedNetworkMagic : UInt32)
    (now : Nat) (allowPrivate : Bool) (configurationIndex : Nat) :
    Except (P2pTransportError T) (VerifiedOdohTarget T) := do
  let record ← (protocols.decodeAndVerify record expectedLocator expectedNetworkMagic now
    allowPrivate).mapError .odohProtocol
  match record.configurations[configurationIndex]? with
  | none => .error .missingOdohConfiguration
  | some configuration =>
    return ⟨record.locator, configuration, record.recordId, record.sequence, record.expiresAt⟩

def targetIdentity (target : VerifiedOdohTarget T) : Except (P2pTransportError T) PeerIdentity :=
  PeerIdentity.new protocols (protocols.targetPeerKey target.locator)

def ensureCurrent (target : VerifiedOdohTarget T) (now : Nat) : Except (P2pTransportError T) Unit :=
  if target.expiresAt ≤ now then .error .expiredOdohTarget else .ok ()

end VerifiedOdohTarget

def checkLifecycle (cancelled : Bool) (now deadline : Nat) : Except (P2pTransportError T) Unit :=
  if cancelled then .error .cancelled
  else if deadline < now then .error .deadlineExpired
  else .ok ()

def checkResponseBoundary (cancelled : Bool) (expectedPeer : PeerIdentity)
    (response : ExperimentalResponse) (startedAt deadline maximum : Nat) :
    Except (P2pTransportError T) Unit :=
  if cancelled then .error .cancelled
  else if response.completedAt < startedAt then .error .responseClockRollback
  else if deadline < response.completedAt then .error .deadlineExpired
  else if response.authenticatedPeer ≠ expectedPeer then .error .peerIdentityMismatch
  else if response.payload.isEmpty ∨ maximum < response.payload.length then .error .responseLimit
  else .ok ()

/-- DNS octets admitted after parsing and exact query correlation. -/
structure AdmittedDnsResponse where
  wire : Octets
  message : Message
  identities : GatewayIdentities
  completedAt : Nat

def admitDns (query : Query) (wire : Octets) (maximum : Nat) (identities : GatewayIdentities)
    (completedAt : Nat) : Except (P2pTransportError T) AdmittedDnsResponse :=
  if wire.isEmpty ∨ maximum < wire.length then .error .responseLimit
  else do
    let message ← (Message.parseWithLimits wire
      { ParseLimits.requester with maxMessageLen := maximum }).mapError .dnsWire
    (query.correlate message).mapError .dnsWire
    return ⟨wire, message, identities, completedAt⟩

/-- What a requester keeps over its calls, the admission state of the peer of the
current call, and the requests handed to adapters so far. -/
structure ExchangeState (T : ProtocolTypes) where
  requestIds : RequestIds
  admission : T.Admission
  sent : List ExperimentalRequest

/-- The caller's side of one call: the peer, the clock, the cancellation token
before and after the adapter ran, and what the adapter returns for a request. -/
structure CallContext (T : ProtocolTypes) where
  peer : AuthenticatedPeer T
  now : Nat
  deadline : Nat
  cancelledBefore : Bool
  cancelledAfter : Bool
  adapter : ExperimentalRequest → Except AdapterFailure ExperimentalResponse

/-- The effects of an exchange. -/
abbrev Exchange (T : ProtocolTypes) (α : Type) : Type :=
  Effect (ExchangeState T) (P2pTransportError T) α

def RequestIds.take : Exchange T UInt64 := fun state =>
  match state.requestIds.next with
  | none => (.error .requestIdExhausted, state)
  | some current =>
    (.ok current.value,
      { state with requestIds := ⟨current.checkedSucc.bind NonZeroU64.new⟩ })

namespace AuthenticatedPeer

def admitPacketType (packet : PacketType) : Exchange T Unit := fun state =>
  let (admitted, admission) := protocols.admitPacket state.admission packet
  (admitted.mapError .peerAdmission, { state with admission := admission })

def admitOutbound (peer : AuthenticatedPeer T) (packet : PacketType) (payloadLength : Nat) :
    Exchange T Unit := do
  admitPacketType protocols packet
  if peer.maximumSendSize < payloadLength then Effect.throw .negotiatedRequestLimit
  else pure ()

end AuthenticatedPeer

/-- Hand a request to the adapter. -/
def send (call : CallContext T) (request : ExperimentalRequest) :
    Exchange T ExperimentalResponse := fun state =>
  ((call.adapter request).mapError .adapter, { state with sent := state.sent ++ [request] })

/-- The checks of an answer. -/
def receive {Result : Type} (call : CallContext T) (responsePacket : PacketType) (maximum : Nat)
    (ensureCurrent : Nat → Except (P2pTransportError T) Unit)
    (accept : ExperimentalResponse → Except (P2pTransportError T) Result)
    (response : ExperimentalResponse) : Exchange T Result := do
  Effect.ofExcept (checkResponseBoundary call.cancelledAfter call.peer.identity response call.now
    call.deadline maximum)
  Effect.ofExcept (ensureCurrent response.completedAt)
  if response.packet ≠ responsePacket then
    Effect.throw (.unexpectedPacket responsePacket response.packet)
  else do
    AuthenticatedPeer.admitPacketType protocols responsePacket
    Effect.ofExcept (accept response)

/-- The request that carries a payload. -/
def CallContext.request (call : CallContext T) (packet : PacketType) (maximum : Nat)
    (payload : Octets) : ExperimentalRequest :=
  ⟨call.peer.identity, packet, payload, call.deadline, maximum⟩

/-- Send an encoded request and check its answer. -/
def deliver {Result : Type} (call : CallContext T) (requestPacket responsePacket : PacketType)
    (maximum : Nat) (ensureCurrent : Nat → Except (P2pTransportError T) Unit)
    (accept : ExperimentalResponse → Except (P2pTransportError T) Result)
    (payload : Octets) : Exchange T Result := do
  call.peer.admitOutbound protocols requestPacket payload.length
  let response ← send call (call.request requestPacket maximum payload)
  receive protocols call responsePacket maximum ensureCurrent accept response

/-- The three calls of the requesters differ in what they check before they take
an id, in the packet they encode, in a check of the completion time and in what
they accept. -/
def exchangeOnce {Context Result : Type} (call : CallContext T)
    (requestPacket responsePacket : PacketType) (maximum : Nat)
    (prepare : Except (P2pTransportError T) Unit)
    (encode : UInt64 → Except (P2pTransportError T) (Octets × Context))
    (ensureCurrent : Nat → Except (P2pTransportError T) Unit)
    (accept : UInt64 → Context → ExperimentalResponse → Except (P2pTransportError T) Result) :
    Exchange T Result := do
  Effect.ofExcept (checkLifecycle call.cancelledBefore call.now call.deadline)
  Effect.ofExcept prepare
  let requestId ← RequestIds.take
  let (payload, context) ← Effect.ofExcept (encode requestId)
  deliver protocols call requestPacket responsePacket maximum ensureCurrent
    (accept requestId context) payload

/-- `HIP-76` requester with its own request ids. -/
structure DnsRelayRequester where
  requestIds : RequestIds
  limits : RequesterLimits

namespace DnsRelayRequester

def new (firstRequestId : NonZeroU64) (limits : RequesterLimits) :
    Except (P2pTransportError T) DnsRelayRequester := do
  let limits ← limits.validate protocols
  return ⟨⟨some firstRequestId⟩, limits⟩

def acceptRelay (limits : RequesterLimits) (relay : PeerIdentity) (query : Query)
    (requestId : UInt64) (response : ExperimentalResponse) :
    Except (P2pTransportError T) AdmittedDnsResponse := do
  let decoded ← (protocols.decodeDnsRelay response.payload).mapError .dnsRelayProtocol
  if decoded.requestId ≠ requestId then .error .requestIdMismatch
  else if decoded.status ≠ .ok then .error (.dnsRelayStatus decoded.status)
  else
    admitDns query decoded.response limits.maximumDnsResponseBytes
      { GatewayIdentities.default with peer := some relay.gatewayLabel } response.completedAt

/-- Execute one authenticated relay exchange. -/
def exchange (limits : RequesterLimits) (call : CallContext T) (query : Query) :
    Exchange T AdmittedDnsResponse :=
  exchangeOnce protocols call .dnsRelayRequest .dnsRelayResponse
    protocols.maxDnsRelayResponsePayloadSize (.ok ())
    (fun requestId => do
      let queryWire ← (query.encode protocols.maxDnsRelayQuerySize).mapError .dnsWire
      let request ← (protocols.encodeGetDnsRelay requestId queryWire).mapError .dnsRelayProtocol
      return (request, ()))
    (fun _ => .ok ())
    (fun requestId _ response =>
      acceptRelay protocols limits call.peer.identity query requestId response)

end DnsRelayRequester

/-- Canonical signed configuration response ready for admission. -/
structure FetchedOdohTargetConfig where
  signedRecord : Octets
  completedAt : Nat

def usizeMax : Nat := 2 ^ 64 - 1

def encodePaddedClientQuery (query : ClientQuery T) (bucket : Nat) :
    Except (P2pTransportError T) Octets := do
  let unpadded ← (protocols.encodeClientQuery query).mapError .odohProtocol
  if bucket = 0 then return unpadded
  else if usizeMax < 12 + unpadded.length then .error .responseLimit
  else
    let padding := (bucket - (12 + unpadded.length) % bucket) % bucket
    if protocols.maxOuterPaddingSize < padding then .error .invalidLimits
    else
      (protocols.encodeClientQuery
        { query with padding := List.replicate padding 0 }).mapError .odohProtocol

def openOdohResponse (response : OdnsPacket) (context : T.Context) :
    Except (P2pTransportError T) Octets :=
  match response.opcode with
  | .clientResponse => do
    let message ← (protocols.decodeOdohResponseBody response.body).mapError .odohProtocol
    (protocols.openResponse context message).mapError .odohProtocol
  | .error => do
    let status ← (protocols.decodeOdohErrorBody response.body).mapError .odohProtocol
    .error (.odohStatus status)
  | actual => .error (.unexpectedOdohOpcode actual)

/-- `OdnsPacket::new` and its encoding. -/
def encodeOdoh (opcode : OdohOpcode) (requestId : UInt64) (body : Octets) :
    Except (P2pTransportError T) Octets := do
  let packet ← (protocols.newOdnsPacket opcode requestId body).mapError .odohProtocol
  (protocols.encodeOdnsPacket packet).mapError .odohProtocol

/-- `HIP-77` requester with its own request ids. -/
structure OdohRequester where
  requestIds : RequestIds
  limits : RequesterLimits

namespace OdohRequester

def new (firstRequestId : NonZeroU64) (limits : RequesterLimits) :
    Except (P2pTransportError T) OdohRequester := do
  let limits ← limits.validate protocols
  return ⟨⟨some firstRequestId⟩, limits⟩

/-- The selection of a target configuration. -/
structure ConfigRequest (T : ProtocolTypes) where
  locator : T.Locator
  allowCached : Bool
  expectedNetworkMagic : UInt32
  allowPrivateTarget : Bool
  configurationIndex : Nat

def signedRecordOf (response : OdnsPacket) : Except (P2pTransportError T) Octets :=
  match response.opcode with
  | .config => (protocols.decodeOdohConfigBody response.body).mapError .odohProtocol
  | .error => do
    let status ← (protocols.decodeOdohErrorBody response.body).mapError .odohProtocol
    .error (.odohStatus status)
  | actual => .error (.unexpectedOdohOpcode actual)

def acceptConfig (request : ConfigRequest T) (requestId : UInt64)
    (response : ExperimentalResponse) :
    Except (P2pTransportError T) FetchedOdohTargetConfig := do
  let packet ← (protocols.decodeOdnsPacket response.payload).mapError .odohProtocol
  if packet.requestId ≠ requestId then .error .requestIdMismatch
  else do
    let signedRecord ← signedRecordOf protocols packet
    let _ ← VerifiedOdohTarget.decode protocols signedRecord request.locator
      request.expectedNetworkMagic response.completedAt request.allowPrivateTarget
      request.configurationIndex
    return ⟨signedRecord, response.completedAt⟩

/-- Request, parse and verify one target configuration through a proxy. -/
def requestTargetConfiguration (call : CallContext T) (request : ConfigRequest T) :
    Exchange T FetchedOdohTargetConfig :=
  exchangeOnce protocols call .odoh .odoh protocols.maxOdohPacketSize
    (do
      let targetIdentity ← PeerIdentity.new protocols (protocols.targetPeerKey request.locator)
      if call.peer.identity = targetIdentity then .error .proxyTargetCollision else .ok ())
    (fun requestId => do
      let body := protocols.encodeGetConfigBody request.locator request.allowCached
      let packet ← encodeOdoh protocols .getConfig requestId body
      return (packet, ()))
    (fun _ => .ok ())
    (fun requestId _ response => acceptConfig protocols request requestId response)

def acceptAnswer (limits : RequesterLimits) (proxy : PeerIdentity)
    (target : VerifiedOdohTarget T) (query : Query) (requestId : UInt64) (context : T.Context)
    (response : ExperimentalResponse) : Except (P2pTransportError T) AdmittedDnsResponse := do
  let packet ← (protocols.decodeOdnsPacket response.payload).mapError .odohProtocol
  if packet.requestId ≠ requestId then .error .requestIdMismatch
  else do
    let responseWire ← openOdohResponse protocols packet context
    let targetIdentity ← target.targetIdentity protocols
    admitDns query responseWire limits.maximumDnsResponseBytes
      { GatewayIdentities.default with
        proxy := some proxy.gatewayLabel
        target := some targetIdentity.gatewayLabel }
      response.completedAt

/-- Execute one exchange that the proxy and the target authenticate. -/
def exchange (limits : RequesterLimits) (call : CallContext T) (target : VerifiedOdohTarget T)
    (query : Query) (entropy : T.Entropy) : Exchange T AdmittedDnsResponse :=
  exchangeOnce protocols call .odoh .odoh protocols.maxOdohPacketSize
    (do
      target.ensureCurrent call.now
      let targetIdentity ← target.targetIdentity protocols
      if call.peer.identity = targetIdentity then .error .proxyTargetCollision else .ok ())
    (fun requestId => do
      let queryWire ← (query.encode protocols.maxOdohQuerySize).mapError .dnsWire
      let (message, context) ←
        (protocols.sealQuery entropy target.configuration queryWire).mapError .odohProtocol
      let clientQuery : ClientQuery T := ⟨target.locator, target.recordId, message, []⟩
      let body ← encodePaddedClientQuery protocols clientQuery limits.odohPaddingBucket
      let packet ← encodeOdoh protocols .clientQuery requestId body
      return (packet, context))
    target.ensureCurrent
    (fun requestId context response =>
      acceptAnswer protocols limits call.peer.identity target query requestId context response)

end OdohRequester

end

end HnsDaneEngine.P2pTransport
