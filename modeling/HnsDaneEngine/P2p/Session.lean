import HnsDaneEngine.Primitives.Hash

/-!
# The peer session state machine

`HeaderSyncSession` turns received packets into actions.  It remembers that a
proof was requested, but not which one.
-/

namespace HnsDaneEngine.P2p

open Primitives

def serviceNetwork : UInt64 := 1

/-- The fields of a version packet that the session reads. -/
structure VersionPacket where
  version : UInt32
  services : UInt64

/-- Known hashes and where to stop. -/
structure LocatorPacket where
  locator : List Hash
  stop : Hash

/-- A request for a proof. -/
structure ProofRequest where
  root : Hash
  key : Hash

/-- A proof for a key. -/
structure ProofPacket where
  root : Hash
  key : Hash
  proof : Octets

/-- Packets.  Payloads that the session only hands on or drops, such as block
headers, are kept as octets. -/
inductive Packet
  | version (packet : VersionPacket)
  | verack
  | ping (nonce : Octets)
  | pong (nonce : Octets)
  | getAddr
  | addr (payload : Octets)
  | getHeaders (packet : LocatorPacket)
  | headers (items : List Octets)
  | sendHeaders
  | getProof (request : ProofRequest)
  | proof (packet : ProofPacket)
  | getDnsRelay (payload : Octets)
  | dnsRelay (payload : Octets)
  | unknown (packetType : UInt8) (payload : Octets)

/-- The stages of a session. -/
inductive HeaderSyncState
  | awaitingVersion
  | awaitingVerack
  | ready
  | headersRequested
  | proofRequested
  | closed
  deriving DecidableEq

/-- What a session asks for. -/
inductive HeaderSyncAction
  | send (packet : Packet)
  | ready
  | headers (items : List Octets)
  | proof (packet : ProofPacket)
  | disconnect (reason : String)

/-- Why a packet is refused. -/
inductive P2pError
  | parse
  | nonCanonicalVarint
  | countLimit
  | agentTooLong
  | trailingBytes
  | invalidMagic
  | messageTooLarge
  | invalidDnsRelayRequestId
  | dnsRelayQueryTooLarge
  | dnsRelayResponseTooLarge
  | invalidDnsRelayStatus
  | invalidDnsRelayPacket (reason : String)
  | io
  | connectionClosed
  | sessionDisconnected (reason : String)
  | unexpectedAction
  | handshakePacketLimit
  | storage (message : String)

/-- The handshake of one session. -/
structure HeaderSyncSession where
  state : HeaderSyncState
  localVersion : VersionPacket
  remoteVersion : Option VersionPacket
  ackReceived : Bool

namespace HeaderSyncSession

def onPacket (session : HeaderSyncSession) (packet : Packet) :
    HeaderSyncSession × List HeaderSyncAction :=
  match session.state, packet with
  | .awaitingVersion, .version version =>
    if version.version < 1 ∨ version.services &&& serviceNetwork = 0 then
      ({ session with state := .closed }, [.disconnect "peer lacks required network service"])
    else if session.ackReceived then
      ({ session with state := .ready, remoteVersion := some version },
        [.send .verack, .ready])
    else
      ({ session with state := .awaitingVerack, remoteVersion := some version },
        [.send .verack])
  | .awaitingVersion, .verack => ({ session with ackReceived := true }, [])
  | .awaitingVerack, .verack => ({ session with state := .ready, ackReceived := true }, [.ready])
  | .headersRequested, .headers items => ({ session with state := .ready }, [.headers items])
  | .proofRequested, .proof proof => ({ session with state := .ready }, [.proof proof])
  | .closed, _ => (session, [.disconnect "session is closed"])
  | _, .getAddr => (session, [])
  | _, .addr _ => (session, [])
  | _, .sendHeaders => (session, [])
  | _, .unknown _ _ => (session, [])
  | _, .ping nonce => (session, [.send (.pong nonce)])
  | _, .pong _ => (session, [])
  | _, _ => (session, [.disconnect "unexpected packet for sync state"])

def requestProof (session : HeaderSyncSession) (root key : Hash) :
    HeaderSyncSession × HeaderSyncAction :=
  if session.state ≠ .ready then (session, .disconnect "proof requested before peer ready")
  else ({ session with state := .proofRequested }, .send (.getProof ⟨root, key⟩))

end HeaderSyncSession

end HnsDaneEngine.P2p
