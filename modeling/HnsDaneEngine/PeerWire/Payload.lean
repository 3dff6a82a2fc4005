import HnsDaneEngine.PeerWire.Packet

/-!
# Packet payloads

Encoding and decoding of every packet.  Readers fail where their input ends, and what a
payload holds after its packet is an error.
-/

namespace HnsDaneEngine.PeerWire

open Browser (IpAddr Ipv4Addr Ipv6Addr)
open Codec
open Primitives (BlockHeader ExtraNonce Hash)

/-- A reader of packet payloads. -/
abbrev PayloadReader (α : Type) : Type :=
  Reader P2pError α

def readBytes (count : Nat) : PayloadReader Octets :=
  readOctets (.parse .unexpectedEof) count

def readU8 : PayloadReader UInt8 :=
  readLe (.parse .unexpectedEof) 1 UInt8.ofNat

def readU16Le : PayloadReader UInt16 :=
  readLe (.parse .unexpectedEof) 2 UInt16.ofNat

def readU32Le : PayloadReader UInt32 :=
  readLe (.parse .unexpectedEof) 4 UInt32.ofNat

def readU64Le : PayloadReader UInt64 :=
  readLe (.parse .unexpectedEof) 8 UInt64.ofNat

def readHash : PayloadReader Hash :=
  readExactly (.parse .unexpectedEof) 32 Hash.mk

def readNonce : PayloadReader Nonce :=
  readExactly (.parse .unexpectedEof) 8 Nonce.mk

def writeVarint (value : Nat) : Octets :=
  if value ≤ 0xfc then [UInt8.ofNat value]
  else if value ≤ 0xffff then 0xfd :: leOctets 2 value
  else if value ≤ 0xffffffff then 0xfe :: leOctets 4 value
  else 0xff :: leOctets 8 value

def readVarint : PayloadReader Nat := do
  let first ← readU8
  if first ≤ 0xfc then pure first.toNat
  else if first = 0xfd then do
    let value ← readU16Le
    Reader.ensure (0xfd ≤ value.toNat) .nonCanonicalVarint
    pure value.toNat
  else if first = 0xfe then do
    let value ← readU32Le
    Reader.ensure (0xffff < value.toNat) .nonCanonicalVarint
    pure value.toNat
  else do
    let value ← readU64Le
    Reader.ensure (0xffffffff < value.toNat) .nonCanonicalVarint
    pure value.toNat

/-- Two words, the low one first. -/
def writeU64Service (value : UInt64) : Octets :=
  leOctets 4 (value.toNat % 2 ^ 32) ++ leOctets 4 (value.toNat / 2 ^ 32)

def readU64Service : PayloadReader UInt64 := do
  let low ← readU32Le
  let high ← readU32Le
  pure (low.toUInt64 ||| (high.toUInt64 <<< 32))

/-- What stands before an IPv4 address in sixteen octets. -/
def ipv4MappedFront : Octets :=
  [0, 0, 0, 0, 0, 0, 0, 0, 0, 0, 0xff, 0xff]

def rawAddress : IpAddr → Octets
  | .v4 address => ipv4MappedFront ++ address.octets
  | .v6 address => address.octets

def addressFromRaw (raw : Octets) : IpAddr :=
  if raw.take 12 = ipv4MappedFront then
    .v4 ⟨raw.getD 12 0, raw.getD 13 0, raw.getD 14 0, raw.getD 15 0⟩
  else .v6 ((Ipv6Addr.ofOctets raw).getD ⟨0, 0, 0, 0, 0, 0, 0, 0⟩)

namespace NetAddress

def encode (address : NetAddress) : Octets :=
  leOctets 8 address.time.toNat ++ writeU64Service address.services ++ [0] ++
    rawAddress address.address ++ List.replicate 20 0 ++ leOctets 2 address.port.toNat ++
    List.replicate 33 0

/-- The octets of the address; another kind of address is skipped. -/
def readRaw : PayloadReader Octets := do
  let kind ← readU8
  if kind = 0 then do
    let raw ← readBytes 16
    let _ ← readBytes 20
    pure raw
  else do
    let _ ← readBytes 36
    pure (List.replicate 16 0)

def decode : PayloadReader NetAddress := do
  let time ← readU64Le
  let services ← readU64Service
  let raw ← readRaw
  let port ← readU16Le
  let _ ← readBytes 33
  pure { time, services, address := addressFromRaw raw, port }

end NetAddress

/-- The octets of a text. -/
def agentOctets (agent : String) : Octets :=
  agent.toByteArray.data.toList

def agentFromOctets (octets : Octets) : Except P2pError String :=
  match String.fromUTF8? ⟨octets.toArray⟩ with
  | some agent => .ok agent
  | none => .error (.parse .invalidDnsLabel)

namespace VersionPacket

def encode (packet : VersionPacket) : Except P2pError Octets :=
  let agent := agentOctets packet.agent
  if maxAgentLen < agent.length then .error .agentTooLong
  else
    .ok (leOctets 4 packet.version.toNat ++ writeU64Service packet.services ++
      leOctets 8 packet.time.toNat ++ packet.remote.encode ++ packet.nonce.bytes ++
      [UInt8.ofNat agent.length] ++ agent ++ leOctets 4 packet.height.toNat ++
      [if packet.noRelay then 1 else 0])

def decode : PayloadReader VersionPacket := do
  let version ← readU32Le
  let services ← readU64Service
  let time ← readU64Le
  let remote ← NetAddress.decode
  let nonce ← readNonce
  let agentLen ← readU8
  Reader.ensure (agentLen.toNat ≤ maxAgentLen) .agentTooLong
  let octets ← readBytes agentLen.toNat
  let agent ← Reader.lift (agentFromOctets octets)
  let height ← readU32Le
  let noRelay ← readU8
  pure { version, services, time, remote, nonce, agent, height, noRelay := noRelay == 1 }

end VersionPacket

def headerSize : Nat := 236

/-- `BlockHeader::serialize`. -/
def serializeHeader (header : BlockHeader) : Octets :=
  leOctets 4 header.nonce.toNat ++ leOctets 8 header.time.toNat ++ header.prevBlock.bytes ++
    header.treeRoot.bytes ++ header.extraNonce.bytes ++ header.reservedRoot.bytes ++
    header.witnessRoot.bytes ++ header.merkleRoot.bytes ++ leOctets 4 header.version.toNat ++
    leOctets 4 header.bits.toNat ++ header.mask.bytes

def readHeader : PayloadReader BlockHeader := do
  let nonce ← readU32Le
  let time ← readU64Le
  let prevBlock ← readHash
  let treeRoot ← readHash
  let extraNonce ← readExactly (.parse .unexpectedEof) 24 ExtraNonce.mk
  let reservedRoot ← readHash
  let witnessRoot ← readHash
  let merkleRoot ← readHash
  let version ← readU32Le
  let bits ← readU32Le
  let mask ← readHash
  pure { nonce, time, prevBlock, treeRoot, extraNonce, reservedRoot, witnessRoot, merkleRoot,
         version, bits, mask }

/-- `BlockHeader::parse`. -/
def parseHeader (data : Octets) : Except P2pError BlockHeader :=
  if data.length ≠ headerSize then .error (.parse .unexpectedEof)
  else do
    let (header, rest) ← readHeader data
    if rest.isEmpty then .ok header else .error (.parse .trailingBytes)

/-- A count within a limit. -/
def readCount (limit : Nat) : PayloadReader Nat := do
  let count ← readVarint
  Reader.ensure (count ≤ limit) .countLimit
  pure count

/-- Items behind their number. -/
def encodeCounted {α : Type} (limit : Nat) (write : α → Octets) (items : List α) :
    Except P2pError Octets :=
  if limit < items.length then .error .countLimit
  else .ok (writeVarint items.length ++ items.flatMap write)

def AddrPacket.encode (packet : AddrPacket) : Except P2pError Octets :=
  encodeCounted maxAddr NetAddress.encode packet.items

def AddrPacket.decode : PayloadReader AddrPacket := do
  let count ← readCount maxAddr
  let items ← readMany NetAddress.decode count
  pure { items }

def LocatorPacket.encode (packet : LocatorPacket) : Except P2pError Octets := do
  let locator ← encodeCounted maxInv Hash.bytes packet.locator
  .ok (locator ++ packet.stop.bytes)

def LocatorPacket.decode : PayloadReader LocatorPacket := do
  let count ← readCount maxInv
  let locator ← readMany readHash count
  let stop ← readHash
  pure { locator, stop }

def HeadersPacket.encode (packet : HeadersPacket) : Except P2pError Octets :=
  encodeCounted maxHeaders serializeHeader packet.items

/-- One header of a packet. -/
def readPacketHeader : PayloadReader BlockHeader := do
  let data ← readBytes headerSize
  Reader.lift (parseHeader data)

def HeadersPacket.decode : PayloadReader HeadersPacket := do
  let count ← readCount maxHeaders
  let items ← readMany readPacketHeader count
  pure { items }

namespace Packet

def encodePayload : Packet → Except P2pError Octets
  | .version packet => packet.encode
  | .verack | .getAddr | .sendHeaders => .ok []
  | .ping nonce | .pong nonce => .ok nonce.bytes
  | .addr packet => packet.encode
  | .getHeaders packet => packet.encode
  | .headers packet => packet.encode
  | .getProof request => .ok (request.root.bytes ++ request.key.bytes)
  | .proof packet => .ok (packet.root.bytes ++ packet.key.bytes ++ packet.proof)
  | .getDnsRelay packet => packet.encode
  | .dnsRelay packet => packet.encode
  | .unknown _ payload => .ok payload

/-- A payload that holds one packet and nothing else. -/
def decodeWhole (read : PayloadReader Packet) (payload : Octets) : Except P2pError Packet := do
  let (packet, rest) ← read payload
  if rest.isEmpty then .ok packet else .error .trailingBytes

def readGetProof : PayloadReader Packet := do
  let root ← readHash
  let key ← readHash
  pure (.getProof { root, key })

def readProof : PayloadReader Packet := do
  let root ← readHash
  let key ← readHash
  fun proof => .ok (.proof { root, key, proof }, [])

def decodePayload (packetType : UInt8) (payload : Octets) : Except P2pError Packet :=
  if packetType = 0 then decodeWhole (Packet.version <$> VersionPacket.decode) payload
  else if packetType = 1 then decodeWhole (pure .verack) payload
  else if packetType = 2 then decodeWhole (Packet.ping <$> readNonce) payload
  else if packetType = 3 then decodeWhole (Packet.pong <$> readNonce) payload
  else if packetType = 4 then decodeWhole (pure .getAddr) payload
  else if packetType = 5 then decodeWhole (Packet.addr <$> AddrPacket.decode) payload
  else if packetType = 10 then decodeWhole (Packet.getHeaders <$> LocatorPacket.decode) payload
  else if packetType = 11 then decodeWhole (Packet.headers <$> HeadersPacket.decode) payload
  else if packetType = 12 then decodeWhole (pure .sendHeaders) payload
  else if packetType = 26 then decodeWhole readGetProof payload
  else if packetType = 27 then decodeWhole readProof payload
  else if packetType = experimentalGetDnsRelay then
    Packet.getDnsRelay <$> GetDnsRelayPacket.decode payload
  else if packetType = experimentalDnsRelay then
    Packet.dnsRelay <$> DnsRelayPacket.decode payload
  else .ok (.unknown packetType payload)

end Packet

end HnsDaneEngine.PeerWire
