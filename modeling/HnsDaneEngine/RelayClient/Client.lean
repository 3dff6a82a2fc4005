import HnsDaneEngine.Browser.Dns.Message
import HnsDaneEngine.Control.Effect
import HnsDaneEngine.PeerWire.Peers
import Mathlib.Data.Finset.Erase
import Mathlib.Data.Finset.Insert

/-!
# Relayed DNS messages

What a query must look like before it is relayed, the form in which it is sent, and the
answers that are taken for it.
-/

namespace HnsDaneEngine.RelayClient

open Browser (DnsHeader DnsMessage ResourceRecord u16FromBe writeU16Be)
open Control
open PeerWire (maxDnsRelayQuerySize maxDnsRelayResponseSize)
open Primitives (validateHandshakeName)

inductive DnsRelayValidationError
  | messageTooLarge
  | malformedMessage
  | notStandardQuery
  | invalidQuestionCount
  | invalidQuestionClass
  | queryHasResponseSections
  | invalidQueryFlags
  | unsupportedQuestionType
  | invalidHnsRoot
  | invalidEdns
  | invalidEdnsSize
  | dnssecOkRequired
  | ednsClientSubnetForbidden
  | invalidRecursiveFlags
  | responseIdMismatch
  | responseQuestionMismatch
  deriving DecidableEq

def supportedDnsRelayTypes : List UInt16 :=
  [1, 2, 5, 6, 15, 16, 28, 33, 39, 43, 46, 47, 48, 50, 51, 52, 64, 65, 257]

def isSupportedDnsRelayType (code : UInt16) : Bool :=
  supportedDnsRelayTypes.contains code

/-- Options are padding; the number bounds the options that are read. -/
def validateEdnsOptionsFrom : Nat → Octets → Except DnsRelayValidationError Unit
  | _, [] => .ok ()
  | bound + 1, code0 :: code1 :: length0 :: length1 :: options =>
    let code := u16FromBe code0 code1
    let length := (u16FromBe length0 length1).toNat
    if options.length < length then .error .invalidEdns
    else if code = 8 then .error .ednsClientSubnetForbidden
    else if code ≠ 12 then .error .invalidEdns
    else validateEdnsOptionsFrom bound (options.drop length)
  | _, _ => .error .invalidEdns

/-- Every option takes octets, so that their number bounds the options. -/
def validateEdnsOptions (options : Octets) : Except DnsRelayValidationError Unit :=
  validateEdnsOptionsFrom options.length options

/-- The checks of the additional section. -/
def validateEdns (additionals : List ResourceRecord) : Except DnsRelayValidationError Unit :=
  match additionals with
  | [opt] =>
    if opt.recordType ≠ .unknown 41 ∨ opt.name.labels ≠ [] then .error .invalidEdns
    else if opt.class_.toNat < 512 ∨ maxDnsRelayQuerySize < opt.class_.toNat then
      .error .invalidEdnsSize
    else if opt.ttl &&& 0x8000 = 0 then .error .dnssecOkRequired
    else if opt.ttl ≠ 0x8000 then .error .invalidEdns
    else validateEdnsOptions opt.rdata
  | _ => .error .invalidEdns

/-- The checks of a parsed query. -/
def validateParsedQuery (query : DnsMessage) (requireRecursiveFlags : Bool) :
    Except DnsRelayValidationError DnsMessage :=
  if query.header.flags.isResponse ∨ query.header.flags.opcode ≠ 0 then .error .notStandardQuery
  else
    match query.questions with
    | [question] =>
      let flags := query.header.flags.bits
      if flags &&& 0x06c0 ≠ 0 ∨ flags &&& 0x000f ≠ 0 then .error .invalidQueryFlags
      else if question.class_ ≠ 1 then .error .invalidQuestionClass
      else if isSupportedDnsRelayType question.recordType.code = false then
        .error .unsupportedQuestionType
      else
        match question.name.labels.getLast? with
        | none => .error .invalidHnsRoot
        | some root => do
          (validateHandshakeName root).mapError fun _ => .invalidHnsRoot
          if query.answers ≠ [] ∨ query.authorities ≠ [] then
            .error .queryHasResponseSections
          else if requireRecursiveFlags ∧ (flags &&& 0x0100 = 0 ∨ flags &&& 0x0010 = 0) then
            .error .invalidRecursiveFlags
          else do
            validateEdns query.additionals
            .ok query
    | _ => .error .invalidQuestionCount

def validateDnsRelayQuery (query : Octets) (requireRecursiveFlags : Bool) :
    Except DnsRelayValidationError DnsMessage :=
  if maxDnsRelayQuerySize < query.length then .error .messageTooLarge
  else do
    let query ← (DnsMessage.parse query).mapError fun _ => .malformedMessage
    validateParsedQuery query requireRecursiveFlags

/-- RD and CD are set. -/
def setRecursiveFlags : Octets → Octets
  | id0 :: id1 :: flags0 :: flags1 :: rest =>
    id0 :: id1 :: writeU16Be (u16FromBe flags0 flags1 ||| 0x0110) ++ rest
  | query => query

def prepareDnsRelayQuery (query : Octets) : Except DnsRelayValidationError Octets := do
  let _ ← validateDnsRelayQuery query false
  let prepared := setRecursiveFlags query
  let _ ← validateDnsRelayQuery prepared true
  .ok prepared

def validateDnsRelayResponse (preparedQuery response : Octets) :
    Except DnsRelayValidationError Unit := do
  let query ← validateDnsRelayQuery preparedQuery true
  if maxDnsRelayResponseSize < response.length then .error .messageTooLarge
  else do
    let response ← (DnsMessage.parse response).mapError fun _ => .malformedMessage
    if ¬ response.header.flags.isResponse ∨ response.header.flags.opcode ≠ 0 then
      .error .notStandardQuery
    else if response.questions.length ≠ 1 then .error .invalidQuestionCount
    else
      -- The backend must echo RD and offer recursion; CD need not be echoed.
      let flags := response.header.flags.bits
      if flags &&& 0x0100 = 0 ∨ flags &&& 0x0080 = 0 then .error .invalidRecursiveFlags
      else if response.header.id ≠ query.header.id then .error .responseIdMismatch
      else if response.questions ≠ query.questions then .error .responseQuestionMismatch
      else .ok ()

/-- An accepted query has a header and fits into a request. -/
theorem length_of_validateDnsRelayQuery {query : Octets} {requireRecursiveFlags : Bool}
    {message : DnsMessage}
    (valid : validateDnsRelayQuery query requireRecursiveFlags = .ok message) :
    12 ≤ query.length ∧ query.length ≤ maxDnsRelayQuerySize := by
  rcases of_guard_ok valid with ⟨fits, valid⟩
  rcases of_bind_ok valid with ⟨parsed, parse_eq, -⟩
  refine ⟨?_, Nat.not_lt.mp fits⟩
  by_contra short
  rw [DnsMessage.parse, if_pos (Nat.not_le.mp short)] at parse_eq
  cases parse_eq

theorem length_of_prepareDnsRelayQuery {query prepared : Octets}
    (prepares : prepareDnsRelayQuery query = .ok prepared) :
    12 ≤ prepared.length ∧ prepared.length ≤ maxDnsRelayQuerySize := by
  rcases of_bind_ok prepares with ⟨_, -, prepares⟩
  rcases of_bind_ok prepares with ⟨_, valid, prepared_eq⟩
  obtain rfl := Except.ok.inj prepared_eq
  exact length_of_validateDnsRelayQuery valid

end HnsDaneEngine.RelayClient

/-!
## The client of the DNS relay

The client keeps a few live connections to peers that advertised the relay service and
sends a query over one of them, over another if that fails.  Peers, clock and randomness
are whatever the platform makes of its world.  The trace keeps what happened on the
connections, which nothing reads.
-/

namespace HnsDaneEngine.RelayClient

open Control
open Data (Store)
open NamespaceResolution (SocketAddr)
open PeerWire
open Primitives (saturatingAdd)

/-- The temporary service bit of the relay. -/
def experimentalDnsRelayService : UInt64 := 0x40000000

/-- Three seconds, in nanoseconds of the clock. -/
def defaultDnsRelayTimeout : Nat := 3000000000

def defaultMaxDnsRelayConnections : Nat := 2

def defaultDnsRelayAlternateRetries : Nat := 1

def maxDnsRelayHandshakeAttemptsPerResolution : Nat := 4

def defaultDnsRelayCooldownSeconds : Nat := 30

def defaultDnsRelayMalformedBanSeconds : Nat := 600

def maxAdvisoryPacketsPerExchange : Nat := 32

inductive DnsRelayClientError
  | invalidQuery (error : DnsRelayValidationError)
  | noCapablePeer
  | randomnessUnavailable
  | transport (error : P2pError)
  | status (status : DnsRelayStatus)
  | invalidResponse (error : DnsRelayValidationError)
  | unsolicitedResponse (requestId : UInt64)
  | unexpectedPacket
  | advisoryPacketLimit

inductive AttemptPeerAction
  | none
  | close
  | backoff
  | transport
  | malformed

structure AttemptFailure where
  retryable : Bool
  peerAction : AttemptPeerAction
  error : DnsRelayClientError

namespace AttemptFailure

def unknownStatus : AttemptFailure :=
  ⟨true, .close, .transport .invalidDnsRelayStatus⟩

def transport (error : DnsRelayClientError) : AttemptFailure :=
  ⟨true, .transport, error⟩

def malformed (error : DnsRelayClientError) : AttemptFailure :=
  ⟨true, .malformed, error⟩

/-- The action for a status; `ok` is handled before. -/
def statusAction : DnsRelayStatus → Bool × AttemptPeerAction
  | .invalidQuery => (false, .none)
  | .refused | .ok => (true, .none)
  | .unsupported | .busy | .resolverUnavailable | .timeout | .internalError => (true, .backoff)

def status (status : DnsRelayStatus) : AttemptFailure :=
  ⟨(statusAction status).1, (statusAction status).2, .status status⟩

end AttemptFailure

/-- A connection that was opened, by its peer and its number. -/
structure PeerConnection where
  address : SocketAddr
  serial : Nat

/-- The connector with its connections, the clock and the source of randomness. -/
structure Platform (World : Type) where
  instant : World → Nat × World
  random : World → Option UInt64 × World
  connect : PeerConnection → Nat → World → Except P2pError Unit × World
  handshake : PeerConnection → VersionPacket → Nat → World → Except P2pError VersionPacket × World
  sendPacket : PeerConnection → Packet → Nat → World → Except P2pError Unit × World
  receivePacket : PeerConnection → Nat → World → Except P2pError Packet × World
  close : PeerConnection → World → World

/-- The peer of an exchange as the client sees it when the exchange starts. -/
structure ExchangeStart where
  address : SocketAddr
  requestId : UInt64
  peer : Option PeerState
  cooldownUntil : Option Nat

inductive RelayEvent
  | connect (connection : PeerConnection)
  | handshake (connection : PeerConnection) (version : Option VersionPacket)
  | exchange (start : ExchangeStart)
  | received (connection : PeerConnection) (packet : Packet)

/-- The world and the events so far. -/
structure Io (World : Type) where
  world : World
  /-- The number of connections that were opened. -/
  opened : Nat
  trace : List RelayEvent

section

variable {World : Type} (platform : Platform World)

/-- Work on the connections. -/
abbrev Task (World ε α : Type) : Type :=
  Effect (Io World) ε α

namespace Io

def record (event : RelayEvent) (io : Io World) : Io World :=
  { io with trace := io.trace ++ [event] }

def deadlineAfter {ε : Type} (timeout : Nat) : Task World ε Nat := fun io =>
  let now := platform.instant io.world
  (.ok (now.1 + timeout), { io with world := now.2 })

def remainingUntil (deadline : Nat) : Task World P2pError Nat := fun io =>
  let now := platform.instant io.world
  (if now.1 < deadline then .ok (deadline - now.1) else .error (.io .timedOut),
    { io with world := now.2 })

/-- The deadline of a contact and the time that remains for connecting. -/
def contactTime (timeout : Nat) : Task World P2pError (Nat × Nat) := do
  let deadline ← deadlineAfter platform timeout
  let connectTimeout ← remainingUntil platform deadline
  pure (deadline, connectTimeout)

def connect (address : SocketAddr) (timeout : Nat) : Task World P2pError PeerConnection := fun io =>
  let connection : PeerConnection := ⟨address, io.opened⟩
  let result := platform.connect connection timeout io.world
  (result.1.map fun _ => connection,
    { (io.record (.connect connection)) with world := result.2, opened := io.opened + 1 })

def handshake (connection : PeerConnection) (version : VersionPacket) (deadline : Nat) :
    Task World P2pError VersionPacket := fun io =>
  let result := platform.handshake connection version deadline io.world
  (result.1, { (io.record (.handshake connection result.1.toOption)) with world := result.2 })

def sendPacket (connection : PeerConnection) (packet : Packet) (deadline : Nat) :
    Task World P2pError Unit := fun io =>
  let result := platform.sendPacket connection packet deadline io.world
  (result.1, { io with world := result.2 })

def receivePacket (connection : PeerConnection) (deadline : Nat) :
    Task World P2pError Packet := fun io =>
  let result := platform.receivePacket connection deadline io.world
  match result.1 with
  | .error error => (.error error, { io with world := result.2 })
  | .ok packet => (.ok packet, { (io.record (.received connection packet)) with world := result.2 })

def close (connection : PeerConnection) (io : Io World) : Io World :=
  { io with world := platform.close connection io.world }

end Io

def zeroNonce : Nonce :=
  ⟨List.replicate 8 0, List.length_replicate⟩

/-- The agent text of the package, with its version. -/
def userAgent : String := "/hns-dane-browser:0.2.6/"

def relayRequesterVersion : VersionPacket where
  version := 3
  services := 0
  time := 0
  remote := { time := 0, services := 0, address := .v4 ⟨0, 0, 0, 0⟩, port := 0 }
  nonce := zeroNonce
  agent := userAgent
  height := 0
  noRelay := true

/-- A relay answer in reply to a request. -/
def checkAnswer (pending : Finset UInt64) (requestId : UInt64) (query : Octets)
    (response : DnsRelayPacket) : Except AttemptFailure Octets :=
  if response.requestId ≠ requestId ∨ requestId ∉ pending then
    .error (.malformed (.unsolicitedResponse response.requestId))
  else if response.status ≠ .ok then .error (.status response.status)
  else
    match validateDnsRelayResponse query response.response with
    | .error error => .error (.malformed (.invalidResponse error))
    | .ok () => .ok response.response

def receiveFailure (error : P2pError) : AttemptFailure :=
  if error = .invalidDnsRelayStatus then .unknownStatus else .transport (.transport error)

/-- The packets up to the answer, of which only a number is read. -/
def awaitAnswer (pending : Finset UInt64) (connection : PeerConnection) (requestId : UInt64)
    (query : Octets) (deadline : Nat) : Nat → Task World AttemptFailure Octets
  | 0 => Effect.throw (.transport .advisoryPacketLimit)
  | bound + 1 => do
    let packet ← Effect.mapError receiveFailure (Io.receivePacket platform connection deadline)
    match packet with
    | .dnsRelay response => Effect.ofExcept (checkAnswer pending requestId query response)
    | .ping nonce => do
      Effect.mapError (fun error => .transport (.transport error))
        (Io.sendPacket platform connection (.pong nonce) deadline)
      awaitAnswer pending connection requestId query deadline bound
    | .version _ => Effect.throw (.malformed .unexpectedPacket)
    | _ => awaitAnswer pending connection requestId query deadline bound

def exchange (pending : Finset UInt64) (timeout : Nat) (connection : PeerConnection)
    (requestId : UInt64) (query : Octets) : Task World AttemptFailure Octets := do
  let deadline ← Io.deadlineAfter platform timeout
  let request ← Effect.ofExcept ((GetDnsRelayPacket.new requestId query).mapError
    fun error => .transport (.transport error))
  Effect.mapError (fun error => .transport (.transport error))
    (Io.sendPacket platform connection (.getDnsRelay request) deadline)
  awaitAnswer platform pending connection requestId query deadline maxAdvisoryPacketsPerExchange

/-- Sixteen draws at most. -/
def allocateRequestIdFrom (pending : Finset UInt64) : Nat → Task World DnsRelayClientError UInt64
  | 0 => Effect.throw .randomnessUnavailable
  | draws + 1 => fun io =>
    match platform.random io.world with
    | (none, world) => (.error .randomnessUnavailable, { io with world })
    | (some requestId, world) =>
      if requestId ≠ 0 ∧ requestId ∉ pending then (.ok requestId, { io with world })
      else allocateRequestIdFrom pending draws { io with world }

def allocateRequestId (pending : Finset UInt64) : Task World DnsRelayClientError UInt64 :=
  allocateRequestIdFrom platform pending 16

end

structure DnsRelayPeerCapability where
  address : SocketAddr
  services : UInt64
  fullyHandshaken : Bool
  cooldownUntil : Option Nat

def DnsRelayPeerCapability.isEligible (capability : DnsRelayPeerCapability) (now : Nat) : Bool :=
  capability.fullyHandshaken && capability.services &&& experimentalDnsRelayService != 0 &&
    capability.cooldownUntil.all fun cooldownUntil => cooldownUntil ≤ now

/-- The proof peer comes last. -/
def relayKey (proofPeer : Option SocketAddr) (peer : PeerState) : List Int :=
  (if proofPeer = some peer.address then 1 else 0) :: PeerManager.outboundKey peer

/-- The peers that may be asked, with what is known about them. -/
def eligiblePeers (peers : PeerManager) (capabilities : List DnsRelayPeerCapability) (now : Nat) :
    List PeerState :=
  (capabilities.filter (·.isEligible now)).filterMap fun capability =>
    (peers.get capability.address).filter fun peer => !peer.isBanned now

/-- `PeerManager::select_dns_relay`. -/
def selectDnsRelay (peers : PeerManager) (capabilities : List DnsRelayPeerCapability)
    (preferredCount now : Nat) (proofPeer : Option SocketAddr) : List SocketAddr :=
  let eligible := (eligiblePeers peers capabilities now).insertionSort fun left right =>
    relayKey proofPeer left ≤ relayKey proofPeer right
  selectDiverse preferredCount (NamespaceResolution.dedup (eligible.map PeerState.address))

structure LiveRelayConnection where
  address : SocketAddr
  services : UInt64
  connection : PeerConnection

structure DnsRelayExchange where
  response : Octets
  peer : SocketAddr
  retries : Nat

/-- `Vec::swap_remove`: the last item takes the place of the removed one. -/
def swapRemove {α : Type} (items : List α) (index : Nat) : List α :=
  match items.getLast? with
  | none => []
  | some last => (items.set index last).dropLast

/-- The relay client with its connections. -/
structure DnsRelayClient (World : Type) where
  peers : PeerManager
  connections : List LiveRelayConnection
  cooldowns : Store SocketAddr Nat
  pending : Finset UInt64
  proofPeer : Option SocketAddr
  timeout : Nat
  maxConnections : Nat
  alternateRetries : Nat
  io : Io World

namespace DnsRelayClient

variable {World : Type} (platform : Platform World)

def withConnector (peers : PeerManager) (world : World) : DnsRelayClient World where
  peers := peers
  connections := []
  cooldowns := ∅
  pending := ∅
  proofPeer := none
  timeout := defaultDnsRelayTimeout
  maxConnections := defaultMaxDnsRelayConnections
  alternateRetries := defaultDnsRelayAlternateRetries
  io := { world, opened := 0, trace := [] }

def isBanned (client : DnsRelayClient World) (now : Nat) (address : SocketAddr) : Bool :=
  (client.peers.get address).any fun peer => peer.isBanned now

def isCooling (client : DnsRelayClient World) (now : Nat) (address : SocketAddr) : Bool :=
  (client.cooldowns.lookup address).any fun cooldownUntil => now < cooldownUntil

def coolDown (address : SocketAddr) (now : Nat) (client : DnsRelayClient World) :
    DnsRelayClient World :=
  { client with
    cooldowns :=
      client.cooldowns.insert address (saturatingAdd now defaultDnsRelayCooldownSeconds) }

def recordTransientFailure (address : SocketAddr) (client : DnsRelayClient World) :
    DnsRelayClient World :=
  { client with peers := client.peers.recordTransientFailure address }

def recordMalformed (address : SocketAddr) (now : Nat) (client : DnsRelayClient World) :
    DnsRelayClient World :=
  { client with
    peers := client.peers.recordMalformed address now defaultDnsRelayMalformedBanSeconds }

def close (connection : PeerConnection) (client : DnsRelayClient World) : DnsRelayClient World :=
  { client with io := client.io.close platform connection }

def removeConnection (index : Nat) (client : DnsRelayClient World) : DnsRelayClient World :=
  match client.connections[index]? with
  | none => client
  | some live =>
    close platform live.connection
      { client with connections := swapRemove client.connections index }

/-- The loop over the connections, with the number of those not looked at. -/
def dropBannedFrom (now : Nat) : Nat → Nat → DnsRelayClient World → DnsRelayClient World
  | 0, _, client => client
  | remaining + 1, index, client =>
    if (client.connections[index]?).any fun live => client.isBanned now live.address then
      dropBannedFrom now remaining index (client.removeConnection platform index)
    else dropBannedFrom now remaining (index + 1) client

def dropBanned (now : Nat) (client : DnsRelayClient World) : DnsRelayClient World :=
  dropBannedFrom platform now client.connections.length 0 client

/-- The peers to contact, the proof peer last. -/
def candidates (client : DnsRelayClient World) (now : Nat) : List SocketAddr :=
  let selected := client.peers.selectOutbound client.peers.len now
  match client.proofPeer with
  | none => selected
  | some proofPeer =>
    if proofPeer ∈ selected then selected.erase proofPeer ++ [proofPeer] else selected

/-- A handshake that succeeded. -/
def acceptHandshake (now : Nat) (connection : PeerConnection) (remote : VersionPacket)
    (client : DnsRelayClient World) : DnsRelayClient World :=
  let client := { client with peers := client.peers.recordConnection connection.address now }
  if remote.services &&& experimentalDnsRelayService = 0 then
    (client.close platform connection).coolDown connection.address now
  else
    { client with
      connections := client.connections ++ [⟨connection.address, remote.services, connection⟩] }

/-- Contact a candidate; the loop goes on unless no time remains. -/
def contact (now : Nat) (address : SocketAddr) (client : DnsRelayClient World) :
    Bool × DnsRelayClient World :=
  match Io.contactTime platform client.timeout client.io with
  | (.error _, io) => (false, { client with io })
  | (.ok (deadline, connectTimeout), io) =>
    match Io.connect platform address connectTimeout io with
    | (.error _, io) =>
      (true, ({ client with io }.recordTransientFailure address).coolDown address now)
    | (.ok connection, io) =>
      match Io.handshake platform connection relayRequesterVersion deadline io with
      | (.ok remote, io) =>
        (true, acceptHandshake platform now connection remote { client with io })
      | (.error _, io) =>
        (true, (({ client with io }.close platform connection).recordTransientFailure
          address).coolDown address now)

/-- The loop over the candidates, with what is left of the handshake budget. -/
def contactAll (now : Nat) (connected : List SocketAddr) (exclude : Finset SocketAddr) :
    List SocketAddr → Nat → DnsRelayClient World → Nat × DnsRelayClient World
  | [], budget, client => (budget, client)
  | address :: rest, budget, client =>
    if client.maxConnections ≤ client.connections.length ∨ budget = 0 then (budget, client)
    else if address ∈ connected ∨ address ∈ exclude ∨ client.isCooling now address then
      contactAll now connected exclude rest budget client
    else
      match contact platform now address client with
      | (false, client) => (budget - 1, client)
      | (true, client) => contactAll now connected exclude rest (budget - 1) client

def replenishConnections (now : Nat) (exclude : Finset SocketAddr) (budget : Nat)
    (client : DnsRelayClient World) : Nat × DnsRelayClient World :=
  let client := client.dropBanned platform now
  if client.maxConnections ≤ client.connections.length then (budget, client)
  else
    contactAll platform now (client.connections.map LiveRelayConnection.address) exclude
      (client.candidates now) budget client

def capabilities (client : DnsRelayClient World) : List DnsRelayPeerCapability :=
  client.connections.map fun live =>
    { address := live.address
      services := live.services
      fullyHandshaken := true
      cooldownUntil := client.cooldowns.lookup live.address }

def selectConnection (now : Nat) (exclude : Finset SocketAddr) (client : DnsRelayClient World) :
    Option (Fin client.connections.length) :=
  ((selectDnsRelay client.peers client.capabilities client.connections.length now
      client.proofPeer).find? fun address => address ∉ exclude).bind fun address =>
    client.connections.findFinIdx? fun live => live.address == address

/-- What a failure does to the peer. -/
def act (now : Nat) (index : Nat) (address : SocketAddr) (client : DnsRelayClient World) :
    AttemptPeerAction → DnsRelayClient World
  | .none => client
  | .close => client.removeConnection platform index
  | .malformed =>
    ((client.recordMalformed address now).coolDown address now).removeConnection platform index
  | .transport =>
    ((client.recordTransientFailure address).coolDown address now).removeConnection platform index
  | .backoff => client.coolDown address now

/-- The exchange on a connection, between the notes about its request. -/
def attempt (live : LiveRelayConnection) (requestId : UInt64) (query : Octets)
    (client : DnsRelayClient World) :
    Except AttemptFailure Octets × DnsRelayClient World :=
  let start : ExchangeStart :=
    ⟨live.address, requestId, client.peers.get live.address, client.cooldowns.lookup live.address⟩
  let pending := insert requestId client.pending
  let result := exchange platform pending client.timeout live.connection requestId query
    (client.io.record (.exchange start))
  (result.1, { client with io := result.2, pending := pending.erase requestId })

/-- The loop over the attempts, with the number of those left. -/
def resolveFrom (now : Nat) (query : Octets) :
    Nat → Nat → Finset SocketAddr → Nat → Option DnsRelayClientError → DnsRelayClient World →
      Except DnsRelayClientError DnsRelayExchange × DnsRelayClient World
  | 0, _, _, _, lastError, client => (.error (lastError.getD .noCapablePeer), client)
  | remaining + 1, retry, attempted, budget, lastError, client =>
    let (budget, client) := client.replenishConnections platform now attempted budget
    match client.selectConnection now attempted with
    | none => (.error (lastError.getD .noCapablePeer), client)
    | some index =>
      let live := client.connections.get index
      match allocateRequestId platform client.pending client.io with
      | (.error error, io) => (.error error, { client with io })
      | (.ok requestId, io) =>
        match attempt platform live requestId query { client with io } with
        | (.ok response, client) =>
          (.ok ⟨response, live.address, retry⟩,
            { client with peers := client.peers.recordTransportSuccess live.address now })
        | (.error failure, client) =>
          let client := client.act platform now index live.address failure.peerAction
          if failure.retryable then
            resolveFrom now query remaining (retry + 1) (insert live.address attempted)
              budget (some failure.error) client
          else (.error failure.error, client)

def resolveAt (query : Octets) (now : Nat) (client : DnsRelayClient World) :
    Except DnsRelayClientError DnsRelayExchange × DnsRelayClient World :=
  match prepareDnsRelayQuery query with
  | .error error => (.error (.invalidQuery error), client)
  | .ok query =>
    resolveFrom platform now query (client.alternateRetries + 1) 0 ∅
      maxDnsRelayHandshakeAttemptsPerResolution none client

def reportDnssecFailure (peer : SocketAddr) (now : Nat) (client : DnsRelayClient World) :
    Bool × DnsRelayClient World :=
  match client.connections.findIdx? fun live => live.address == peer with
  | none => (false, client)
  | some index =>
    (true, ((client.recordMalformed peer now).coolDown peer now).removeConnection platform index)

def setProofPeer (proofPeer : Option SocketAddr) (client : DnsRelayClient World) :
    DnsRelayClient World :=
  { client with proofPeer }

def shutdown (client : DnsRelayClient World) : DnsRelayClient World :=
  { client with
    connections := []
    pending := ∅
    io := client.connections.foldl (fun io live => io.close platform live.connection) client.io }

/-- The calls of a client. -/
inductive Call
  | resolveAt (query : Octets) (now : Nat)
  | reportDnssecFailure (peer : SocketAddr) (now : Nat)
  | setProofPeer (proofPeer : Option SocketAddr)
  | shutdown

def step (client : DnsRelayClient World) : Call → DnsRelayClient World
  | .resolveAt query now => (client.resolveAt platform query now).2
  | .reportDnssecFailure peer now => (client.reportDnssecFailure platform peer now).2
  | .setProofPeer proofPeer => client.setProofPeer proofPeer
  | .shutdown => client.shutdown platform

end DnsRelayClient

end HnsDaneEngine.RelayClient
