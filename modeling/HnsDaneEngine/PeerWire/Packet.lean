import HnsDaneEngine.Browser.Network
import HnsDaneEngine.Encoding.ReadBack
import HnsDaneEngine.Primitives.Header

/-!
# Packets of the peer protocol

Packets with all their fields, as they are framed on the wire, and the errors of their
codec.
-/

namespace HnsDaneEngine.PeerWire

open Browser (IpAddr)
open Codec
open Primitives (BlockHeader Hash)

def maxInv : Nat := 50000

def maxAddr : Nat := 1000

def maxHeaders : Nat := 2000

def maxAgentLen : Nat := 255

def frameHeaderSize : Nat := 9

def maxMessage : Nat := 8 * 1000 * 1000

def experimentalGetDnsRelay : UInt8 := 0xf0

def experimentalDnsRelay : UInt8 := 0xf1

def maxDnsRelayQuerySize : Nat := 4 * 1024

def maxDnsRelayResponseSize : Nat := 65535

def maxDnsRelayRequestPayloadSize : Nat := 8 + 2 + maxDnsRelayQuerySize

def maxDnsRelayResponsePayloadSize : Nat := 8 + 1 + 2 + maxDnsRelayResponseSize

/-- `hns_core::bytes::ParseError`. -/
inductive ParseError
  | unexpectedEof
  | trailingBytes
  | lengthLimit
  | invalidDnsLabel
  | invalidDnsPointer
  | invalidSvcb
  deriving DecidableEq

/-- Why the operating system failed, where the code tells the reasons apart. -/
inductive IoErrorKind
  | timedOut
  | wouldBlock
  | connectionRefused
  | other
  deriving DecidableEq

/-- Why a packet is refused. -/
inductive P2pError
  | parse (error : ParseError)
  | nonCanonicalVarint
  | countLimit
  | agentTooLong
  | trailingBytes
  | invalidMagic
  | messageTooLarge
  | invalidDnsRelayRequestId
  | dnsRelayQueryTooLarge
  | dnsRelayResponseTooLarge
  | invalidDnsRelayStatus
  | invalidDnsRelayPacket (reason : String)
  | io (kind : IoErrorKind)
  | connectionClosed
  | sessionDisconnected (reason : String)
  | unexpectedAction
  | handshakePacketLimit
  | storage (reason : String)
  deriving DecidableEq

/-- `[u8; 8]`. -/
structure Nonce where
  bytes : Octets
  length_eq : bytes.length = 8

/-- An address with its services. -/
structure NetAddress where
  time : UInt64
  services : UInt64
  address : IpAddr
  port : UInt16

/-- How a peer presents itself. -/
structure VersionPacket where
  version : UInt32
  services : UInt64
  time : UInt64
  remote : NetAddress
  nonce : Nonce
  agent : String
  height : UInt32
  noRelay : Bool

/-- Known hashes and where to stop. -/
structure LocatorPacket where
  locator : List Hash
  stop : Hash

/-- A list of headers. -/
structure HeadersPacket where
  items : List BlockHeader

/-- A list of addresses. -/
structure AddrPacket where
  items : List NetAddress

/-- A request for a proof. -/
structure ProofRequest where
  root : Hash
  key : Hash

/-- A proof for a key. -/
structure ProofPacket where
  root : Hash
  key : Hash
  proof : Octets

/-- A query for a relay. -/
structure GetDnsRelayPacket where
  requestId : UInt64
  query : Octets

/-- The status of a response. -/
inductive DnsRelayStatus
  | ok
  | refused
  | unsupported
  | busy
  | invalidQuery
  | resolverUnavailable
  | timeout
  | internalError
  deriving DecidableEq

/-- The response of a relay. -/
structure DnsRelayPacket where
  requestId : UInt64
  status : DnsRelayStatus
  response : Octets

/-- The packets of a session. -/
inductive Packet
  | version (packet : VersionPacket)
  | verack
  | ping (nonce : Nonce)
  | pong (nonce : Nonce)
  | getAddr
  | addr (packet : AddrPacket)
  | getHeaders (packet : LocatorPacket)
  | headers (packet : HeadersPacket)
  | sendHeaders
  | getProof (request : ProofRequest)
  | proof (packet : ProofPacket)
  | getDnsRelay (packet : GetDnsRelayPacket)
  | dnsRelay (packet : DnsRelayPacket)
  | unknown (packetType : UInt8) (payload : Octets)

/-- The type octet on the wire. -/
def Packet.rawPacketType : Packet → UInt8
  | .version _ => 0
  | .verack => 1
  | .ping _ => 2
  | .pong _ => 3
  | .getAddr => 4
  | .addr _ => 5
  | .getHeaders _ => 10
  | .headers _ => 11
  | .sendHeaders => 12
  | .getProof _ => 26
  | .proof _ => 27
  | .getDnsRelay _ => experimentalGetDnsRelay
  | .dnsRelay _ => experimentalDnsRelay
  | .unknown packetType _ => packetType

def DnsRelayStatus.toOctet : DnsRelayStatus → UInt8
  | .ok => 0
  | .refused => 1
  | .unsupported => 2
  | .busy => 3
  | .invalidQuery => 4
  | .resolverUnavailable => 5
  | .timeout => 6
  | .internalError => 7

/-- `TryFrom<u8>`. -/
def DnsRelayStatus.tryFrom (value : UInt8) : Except P2pError DnsRelayStatus :=
  if value = 0 then .ok .ok
  else if value = 1 then .ok .refused
  else if value = 2 then .ok .unsupported
  else if value = 3 then .ok .busy
  else if value = 4 then .ok .invalidQuery
  else if value = 5 then .ok .resolverUnavailable
  else if value = 6 then .ok .timeout
  else if value = 7 then .ok .internalError
  else .error .invalidDnsRelayStatus

theorem DnsRelayStatus.tryFrom_toOctet (status : DnsRelayStatus) :
    tryFrom status.toOctet = .ok status := by
  cases status <;> rfl

namespace GetDnsRelayPacket

def validate (packet : GetDnsRelayPacket) : Except P2pError Unit :=
  if packet.requestId = 0 then .error .invalidDnsRelayRequestId
  else if packet.query.isEmpty then
    .error (.invalidDnsRelayPacket "DNS-relay query is empty")
  else if maxDnsRelayQuerySize < packet.query.length then .error .dnsRelayQueryTooLarge
  else .ok ()

def new (requestId : UInt64) (query : Octets) : Except P2pError GetDnsRelayPacket := do
  let packet : GetDnsRelayPacket := ⟨requestId, query⟩
  packet.validate
  .ok packet

def encode (packet : GetDnsRelayPacket) : Except P2pError Octets := do
  packet.validate
  .ok (leOctets 8 packet.requestId.toNat ++ leOctets 2 packet.query.length ++ packet.query)

def decode (payload : Octets) : Except P2pError GetDnsRelayPacket :=
  if payload.length < 10 then .error (.parse .unexpectedEof)
  else
    let requestId := UInt64.ofNat (leNumber (payload.take 8))
    if requestId = 0 then .error .invalidDnsRelayRequestId
    else
      let queryLen := leNumber ((payload.drop 8).take 2)
      if maxDnsRelayQuerySize < queryLen then .error .dnsRelayQueryTooLarge
      else if payload.length < 10 + queryLen then .error (.parse .unexpectedEof)
      else if 10 + queryLen < payload.length then .error .trailingBytes
      else new requestId (payload.drop 10)

end GetDnsRelayPacket

namespace DnsRelayPacket

def validate (packet : DnsRelayPacket) : Except P2pError Unit :=
  if packet.requestId = 0 then .error .invalidDnsRelayRequestId
  else if maxDnsRelayResponseSize < packet.response.length then .error .dnsRelayResponseTooLarge
  else
    match packet.status, packet.response.isEmpty with
    | .ok, true => .error (.invalidDnsRelayPacket "OK DNS-relay response is empty")
    | .ok, false => .ok ()
    | _, true => .ok ()
    | _, false => .error (.invalidDnsRelayPacket "error DNS-relay response has a DNS body")

def new (requestId : UInt64) (status : DnsRelayStatus) (response : Octets) :
    Except P2pError DnsRelayPacket := do
  let packet : DnsRelayPacket := ⟨requestId, status, response⟩
  packet.validate
  .ok packet

def encode (packet : DnsRelayPacket) : Except P2pError Octets := do
  packet.validate
  .ok (leOctets 8 packet.requestId.toNat ++ [packet.status.toOctet] ++
    leOctets 2 packet.response.length ++ packet.response)

def decode (payload : Octets) : Except P2pError DnsRelayPacket :=
  if payload.length < 11 then .error (.parse .unexpectedEof)
  else
    let requestId := UInt64.ofNat (leNumber (payload.take 8))
    if requestId = 0 then .error .invalidDnsRelayRequestId
    else do
      let status ← DnsRelayStatus.tryFrom ((payload.drop 8).headD 0)
      let responseLen := leNumber ((payload.drop 9).take 2)
      if maxDnsRelayResponseSize < responseLen then .error .dnsRelayResponseTooLarge
      else if payload.length < 11 + responseLen then .error (.parse .unexpectedEof)
      else if 11 + responseLen < payload.length then .error .trailingBytes
      else new requestId status (payload.drop 11)

end DnsRelayPacket

end HnsDaneEngine.PeerWire
