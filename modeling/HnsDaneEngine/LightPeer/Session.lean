import HnsDaneEngine.Primitives.Checked
import HnsDaneEngine.Primitives.Hash

/-!
# Standard peer session of a light client

The session exchanges frames of the shared wire codec under an explicit clock.  At
most one headers, one proof and one ping request is outstanding, each with its own
deadline.  Payloads that the session only hands on are kept as octets.
-/

namespace HnsDaneEngine.LightPeer

open Primitives

abbrev Nonce := Vector UInt8 8

def Nonce.zero : Nonce :=
  Vector.replicate 8 0

/-- How a peer presents itself. -/
structure VersionPacket where
  version : Nat
  services : UInt64
  time : Nat
  nonce : Nonce
  agent : String
  height : Nat
  deriving DecidableEq

/-- Known hashes and where to stop. -/
structure LocatorPacket where
  locator : List Hash
  stop : Hash
  deriving DecidableEq

/-- A request for a proof. -/
structure GetProofPacket where
  root : Hash
  key : Hash
  deriving DecidableEq

/-- A proof for a key. -/
structure ProofPacket where
  root : Hash
  key : Hash
  proof : Octets
  deriving DecidableEq

/-- Types of the packets that a session ignores. -/
inductive PacketType
  | verack
  | getProof
  | other (code : UInt8)
  deriving DecidableEq

/-- Packets of the shared codec; `other` stands for those that no branch of the session
names. -/
inductive Packet
  | version (packet : VersionPacket)
  | verack
  | ping (nonce : Nonce)
  | pong (nonce : Nonce)
  | getHeaders (packet : LocatorPacket)
  | headers (headers : List Octets)
  | getProof (packet : GetProofPacket)
  | proof (packet : ProofPacket)
  | addr (addresses : List Octets)
  | getAddr
  | getBlocks (packet : LocatorPacket)
  | reject (payload : Octets)
  | inv (inventory : List Octets)
  | getData (inventory : List Octets)
  | notFound (inventory : List Octets)
  | tx (transaction : Octets)
  | merkleBlock (payload : Octets)
  | feeFilter (rate : Int)
  | unknown (packetType : UInt8) (payload : Octets)
  | other (code : UInt8) (payload : Octets)
  deriving DecidableEq

/-- The shared wire codec, which belongs to another package. -/
structure WireCodec (Frame WireError : Type) where
  minProtocolVersion : Nat
  protocolVersion : Nat
  serviceNetwork : UInt64
  decodePacket : Frame → Except WireError Packet
  fromPacket : Packet → Except WireError Frame

/-- The bounds of a session. -/
structure PeerConfig where
  requiredServices : UInt64
  handshakeTimeoutSeconds : Nat
  requestTimeoutSeconds : Nat
  maxClockSkewSeconds : Nat

/-- The stages of a session. -/
inductive PeerState
  | awaitingVersion
  | awaitingVerack
  | ready
  | closed
  deriving DecidableEq

/-- What a peer has presented. -/
structure PeerMetadata where
  version : Nat
  services : UInt64
  time : Nat
  agent : String
  height : Nat
  deriving DecidableEq

/-- Packets for a wallet. -/
inductive WalletPeerEvent
  | inventory (inventory : List Octets)
  | dataRequest (inventory : List Octets)
  | notFound (inventory : List Octets)
  | transaction (transaction : Octets)
  | merkleBlock (payload : Octets)
  | feeFilter (rate : Int)
  deriving DecidableEq

/-- Response-bearing request category. -/
inductive RequestKind
  | headers
  | proof
  | ping
  deriving DecidableEq

/-- The kinds that ran out. -/
structure ExpiredRequests where
  headers : Bool
  proof : Bool
  ping : Bool

def ExpiredRequests.default : ExpiredRequests :=
  ⟨false, false, false⟩

/-- What a session reports. -/
inductive PeerEvent (Frame : Type)
  | send (frame : Frame)
  | ready (metadata : PeerMetadata)
  | headers (headers : List Octets)
  | proof (packet : ProofPacket)
  | addresses (addresses : List Octets)
  | getAddresses
  | getBlocks (packet : LocatorPacket)
  | getHeaders (packet : LocatorPacket)
  | pong (nonce : Nonce)
  | rejected (payload : Octets)
  | wallet (event : WalletPeerEvent)
  | experimental (packetType : UInt8) (payload : Octets)
  | ignored (packetType : PacketType)
  deriving DecidableEq

/-- Why a call fails. -/
inductive PeerError (WireError : Type)
  | wire (error : WireError)
  | invalidConfig
  | invalidLocalVersion
  | timeOverflow
  | handshakeTimeout
  | expectedVersion
  | expectedVerack
  | obsoleteVersion
  | missingService
  | selfConnection
  | clockSkew
  | duplicateHandshake
  | notReady
  | closed
  | emptyLocator
  | duplicateRequest (kind : RequestKind)
  | requestTimeout (kind : RequestKind)
  | unsolicitedHeaders
  | unsolicitedProof
  | wrongProof
  | unsolicitedPong
  | wrongPong
  | zeroPingNonce
  | internalInvariant

/-- A request for headers. -/
structure Pending where
  deadline : Nat

/-- A request for a proof. -/
structure PendingProof where
  root : Hash
  key : Hash
  deadline : Nat

/-- A ping under way. -/
structure PendingPing where
  nonce : Nonce
  deadline : Nat

/-- The state of one session. -/
structure PeerSession where
  config : PeerConfig
  state : PeerState
  localNonce : Nonce
  handshakeDeadline : Nat
  peerVerackReceived : Bool
  readyAfterResponse : Bool
  metadata : Option PeerMetadata
  pendingHeaders : Option Pending
  pendingProof : Option PendingProof
  pendingPing : Option PendingPing

/-- `u64::abs_diff`. -/
def absDiff (first second : Nat) : Nat :=
  (first - second) + (second - first)

variable {Frame WireError : Type} (codec : WireCodec Frame WireError)

namespace PeerConfig

def validate (config : PeerConfig) : Except (PeerError WireError) PeerConfig :=
  if config.requiredServices &&& codec.serviceNetwork = 0 ∨ config.handshakeTimeoutSeconds = 0 ∨
      60 < config.handshakeTimeoutSeconds ∨ config.requestTimeoutSeconds = 0 ∨
      300 < config.requestTimeoutSeconds ∨ 24 * 60 * 60 < config.maxClockSkewSeconds then
    .error .invalidConfig
  else .ok config

end PeerConfig

/-- `Frame::from_packet` under the error type of the session. -/
def frameFromPacket (packet : Packet) : Except (PeerError WireError) Frame :=
  match codec.fromPacket packet with
  | .ok frame => .ok frame
  | .error error => .error (.wire error)

variable (session : PeerSession)

namespace PeerSession

/-- Start a session and return the local version frame. -/
def start (config : PeerConfig) (localVersion : VersionPacket) (now : Nat) :
    Except (PeerError WireError) (PeerSession × Frame) := do
  let config ← config.validate codec
  if localVersion.nonce = .zero ∨ localVersion.version < codec.minProtocolVersion ∨
      config.maxClockSkewSeconds < absDiff localVersion.time now then
    .error .invalidLocalVersion
  else
    match checkedAdd now config.handshakeTimeoutSeconds with
    | none => .error .timeOverflow
    | some handshakeDeadline =>
      let frame ← frameFromPacket codec (.version localVersion)
      .ok
        ({ config
           state := .awaitingVersion
           localNonce := localVersion.nonce
           handshakeDeadline
           peerVerackReceived := false
           readyAfterResponse := false
           metadata := none
           pendingHeaders := none
           pendingProof := none
           pendingPing := none },
          frame)

/-- Close permanently and revoke all outstanding requests. -/
def close : PeerSession :=
  { session with
    state := .closed
    pendingHeaders := none
    pendingProof := none
    pendingPing := none }

def requireReady : Except (PeerError WireError) Unit :=
  match session.state with
  | .ready => .ok ()
  | .closed => .error .closed
  | .awaitingVersion | .awaitingVerack => .error .notReady

def requestDeadline (now : Nat) : Except (PeerError WireError) Nat :=
  match checkedAdd now session.config.requestTimeoutSeconds with
  | none => .error .timeOverflow
  | some deadline => .ok deadline

/-- The admission rules for the version packet of the peer. -/
def checkVersion (version : VersionPacket) (now : Nat) : Except (PeerError WireError) Unit :=
  if version.version < codec.minProtocolVersion then .error .obsoleteVersion
  else if version.services &&& session.config.requiredServices ≠
      session.config.requiredServices then .error .missingService
  else if version.nonce = session.localNonce then .error .selfConnection
  else if session.config.maxClockSkewSeconds < absDiff version.time now then .error .clockSkew
  else .ok ()

def versionMetadata (version : VersionPacket) : PeerMetadata where
  version := min version.version codec.protocolVersion
  services := version.services
  time := version.time
  agent := version.agent
  height := version.height

def handleVersion (packet : Packet) (now : Nat) :
    Except (PeerError WireError) (PeerEvent Frame) × PeerSession :=
  match packet with
  | .version version =>
    match session.checkVersion codec version now with
    | .error error => (.error error, session)
    | .ok () =>
      let session :=
        if session.peerVerackReceived then
          { session with
            metadata := some (versionMetadata codec version)
            state := .ready
            readyAfterResponse := true }
        else
          { session with
            metadata := some (versionMetadata codec version)
            state := .awaitingVerack }
      -- the state has moved on even where the acknowledgement cannot be framed
      ((frameFromPacket codec .verack).map PeerEvent.send, session)
  | _ => (.error .expectedVersion, session)

def handlePong (nonce : Nonce) (now : Nat) :
    Except (PeerError WireError) (PeerEvent Frame) × PeerSession :=
  match session.pendingPing with
  | none => (.error .unsolicitedPong, session)
  | some pending =>
    if pending.deadline < now then
      (.error (.requestTimeout .ping), { session with pendingPing := none })
    else if pending.nonce ≠ nonce then (.error .wrongPong, session)
    else (.ok (.pong nonce), { session with pendingPing := none })

def handleHeaders (headers : List Octets) (now : Nat) :
    Except (PeerError WireError) (PeerEvent Frame) × PeerSession :=
  match session.pendingHeaders with
  | none => (.error .unsolicitedHeaders, session)
  | some pending =>
    let session := { session with pendingHeaders := none }
    if pending.deadline < now then (.error (.requestTimeout .headers), session)
    else (.ok (.headers headers), session)

def handleProof (proof : ProofPacket) (now : Nat) :
    Except (PeerError WireError) (PeerEvent Frame) × PeerSession :=
  match session.pendingProof with
  | none => (.error .unsolicitedProof, session)
  | some pending =>
    let session := { session with pendingProof := none }
    if pending.deadline < now then (.error (.requestTimeout .proof), session)
    else if proof.root ≠ pending.root ∨ proof.key ≠ pending.key then (.error .wrongProof, session)
    else (.ok (.proof proof), session)

def handleReady (packet : Packet) (now : Nat) :
    Except (PeerError WireError) (PeerEvent Frame) × PeerSession :=
  match packet with
  | .version _ => (.error .duplicateHandshake, session)
  | .verack => (.error .duplicateHandshake, session)
  | .ping nonce => ((frameFromPacket codec (.pong nonce)).map PeerEvent.send, session)
  | .pong nonce => session.handlePong nonce now
  | .headers headers => session.handleHeaders headers now
  | .proof proof => session.handleProof proof now
  | .addr addresses => (.ok (.addresses addresses), session)
  | .getAddr => (.ok .getAddresses, session)
  | .getBlocks locator => (.ok (.getBlocks locator), session)
  | .getHeaders locator => (.ok (.getHeaders locator), session)
  | .reject reject => (.ok (.rejected reject), session)
  | .inv inventory => (.ok (.wallet (.inventory inventory)), session)
  | .getData inventory => (.ok (.wallet (.dataRequest inventory)), session)
  | .notFound inventory => (.ok (.wallet (.notFound inventory)), session)
  | .tx transaction => (.ok (.wallet (.transaction transaction)), session)
  | .merkleBlock payload => (.ok (.wallet (.merkleBlock payload)), session)
  | .feeFilter rate => (.ok (.wallet (.feeFilter rate)), session)
  | .unknown packetType payload => (.ok (.experimental packetType payload), session)
  | .getProof _ => (.ok (.ignored .getProof), session)
  | .other code _ => (.ok (.ignored (.other code)), session)

/-- One packet in an open session. -/
def handlePacket (packet : Packet) (now : Nat) :
    Except (PeerError WireError) (PeerEvent Frame) × PeerSession :=
  match session.state with
  | .awaitingVersion =>
    if packet = .verack then
      (.ok (.ignored .verack), { session with peerVerackReceived := true })
    else session.handleVersion codec packet now
  | .awaitingVerack =>
    if packet ≠ .verack then (.error .expectedVerack, session)
    else
      match session.metadata with
      | none => (.error .internalInvariant, { session with state := .ready })
      | some metadata => (.ok (.ready metadata), { session with state := .ready })
  | .ready => session.handleReady codec packet now
  | .closed => (.error .closed, session)

/-- Admit one strict frame from the selected-network decoder. -/
def handleFrame (frame : Frame) (now : Nat) :
    Except (PeerError WireError) (PeerEvent Frame) × PeerSession :=
  if session.state = .closed then (.error .closed, session)
  else if session.state ≠ .ready ∧ session.handshakeDeadline < now then
    (.error .handshakeTimeout, session.close)
  else
    match codec.decodePacket frame with
    | .error error => (.error (.wire error), session)
    | .ok packet => session.handlePacket codec packet now

/-- Build one bounded `getheaders`; only one may be outstanding. -/
def requestHeaders (locator : List Hash) (stop : Hash) (now : Nat) :
    Except (PeerError WireError) (Frame × PeerSession) := do
  let () ← session.requireReady
  if locator.isEmpty then .error .emptyLocator
  else if session.pendingHeaders.isSome then .error (.duplicateRequest .headers)
  else
    let deadline ← session.requestDeadline now
    let frame ← frameFromPacket codec (.getHeaders ⟨locator, stop⟩)
    .ok (frame, { session with pendingHeaders := some ⟨deadline⟩ })

/-- Build one exact-root/key standard name-proof request. -/
def requestProof (root key : Hash) (now : Nat) :
    Except (PeerError WireError) (Frame × PeerSession) := do
  let () ← session.requireReady
  if session.pendingProof.isSome then .error (.duplicateRequest .proof)
  else
    let deadline ← session.requestDeadline now
    let frame ← frameFromPacket codec (.getProof ⟨root, key⟩)
    .ok (frame, { session with pendingProof := some ⟨root, key, deadline⟩ })

/-- Build one ping; only one may be outstanding. -/
def ping (session : PeerSession) (nonce : Nonce) (now : Nat) :
    Except (PeerError WireError) (Frame × PeerSession) := do
  let () ← session.requireReady
  if nonce = .zero then .error .zeroPingNonce
  else if session.pendingPing.isSome then .error (.duplicateRequest .ping)
  else
    let deadline ← session.requestDeadline now
    let frame ← frameFromPacket codec (.ping nonce)
    .ok (frame, { session with pendingPing := some ⟨nonce, deadline⟩ })

/-- Expire all overdue work. -/
def expire (now : Nat) : Except (PeerError WireError) ExpiredRequests × PeerSession :=
  if session.state ≠ .ready then
    if session.state ≠ .closed ∧ session.handshakeDeadline < now then
      (.error .handshakeTimeout, session.close)
    else (.ok .default, session)
  else
    let expired : ExpiredRequests :=
      { headers := session.pendingHeaders.any fun pending => pending.deadline < now
        proof := session.pendingProof.any fun pending => pending.deadline < now
        ping := session.pendingPing.any fun pending => pending.deadline < now }
    (.ok expired,
      { session with
        pendingHeaders := if expired.headers then none else session.pendingHeaders
        pendingProof := if expired.proof then none else session.pendingProof
        pendingPing := if expired.ping then none else session.pendingPing })

end PeerSession

end HnsDaneEngine.LightPeer
