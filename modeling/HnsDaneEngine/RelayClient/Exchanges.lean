import HnsDaneEngine.Control.Run
import HnsDaneEngine.RelayClient.Connections
import Mathlib.Data.Finset.Basic

/-!
# Exchanges

An exchange ends with an answer only if the last packet received over its connection is
the accepted answer to its request.  A resolution makes a bounded number of handshakes and
of exchanges, with distinct peers that are available, and so it is between any calls of
the client.
-/

namespace HnsDaneEngine.RelayClient

open Control
open NamespaceResolution (SocketAddr)
open PeerWire
open Primitives (saturatingAdd)

variable {events : List RelayEvent} {World : Type} {platform : Platform World}

section

variable {pending : Finset UInt64} {connection : PeerConnection} {requestId : UInt64}
  {query : Octets}

theorem checkAnswer_eq_ok {answer : DnsRelayPacket} {response : Octets}
    (accepted : checkAnswer pending requestId query answer = .ok response) :
    answer = ⟨requestId, .ok, response⟩ ∧ validateDnsRelayResponse query response = .ok () := by
  rcases answer with ⟨answerId, status, body⟩
  rw [checkAnswer, guard_eq_ok_iff, guard_eq_ok_iff, not_or, not_not, not_not, not_not] at accepted
  rcases accepted with ⟨⟨rfl, -⟩, rfl, accepted⟩
  dsimp only at accepted
  cases valid : validateDnsRelayResponse query body with
  | error error =>
    rw [valid] at accepted
    cases accepted
  | ok _ =>
    rw [valid] at accepted
    obtain rfl := Except.ok.inj accepted
    exact ⟨rfl, valid⟩

/-- What an exchange adds to the trace: no handshake and no other exchange, and last the
answer that is returned. -/
def AnswerLog (connection : PeerConnection) (requestId : UInt64) (query : Octets)
    (result : Except AttemptFailure Octets) (events : List RelayEvent) : Prop :=
  handshakes events = [] ∧ exchanges events = [] ∧ ∀ response, result = .ok response →
      validateDnsRelayResponse query response = .ok () ∧ ∃ during, events =
          during ++ [.received connection (.dnsRelay ⟨requestId, .ok, response⟩)]

theorem AnswerLog.of_error {failure : AttemptFailure}
    (shaken : handshakes events = []) (exchanged : exchanges events = []) :
    AnswerLog connection requestId query (.error failure) events :=
  ⟨shaken, exchanged, fun _ returned => by cases returned⟩

/-- After packets that are no answer. -/
theorem AnswerLog.after {result : Except AttemptFailure Octets}
    {earlier : List RelayEvent} (answered : AnswerLog connection requestId query result events)
    (shaken : handshakes earlier = []) (exchanged : exchanges earlier = []) :
    AnswerLog connection requestId query result (earlier ++ events) := by
  rcases answered with ⟨shakenLater, exchangedLater, returned⟩
  refine ⟨by simp [shaken, shakenLater], by simp [exchanged, exchangedLater], ?_⟩
  intro response result_eq
  rcases returned response result_eq with ⟨valid, during, rfl⟩
  exact ⟨valid, earlier ++ during, (List.append_assoc _ _ _).symm⟩

theorem receivePacket_logs (deadline : Nat) :
    Effect.Logs Io.trace
      (fun result events => (∃ error, result = .error error ∧ events = []) ∨
        ∃ packet, result = .ok packet ∧ events = [.received connection packet])
      (Io.receivePacket platform connection deadline) := by
  intro io
  unfold Io.receivePacket
  cases received : (platform.receivePacket connection deadline io.world).1 with
  | error error =>
    simp only [received]
    exact ⟨[], (List.append_nil _).symm, .inl ⟨error, rfl, rfl⟩⟩
  | ok packet =>
    simp only [received]
    exact ⟨_, rfl, .inr ⟨packet, rfl, rfl⟩⟩

theorem sendPacket_frames (packet : Packet) (deadline : Nat) :
    Effect.Frames Io.trace (Io.sendPacket platform connection packet deadline) :=
  fun _ => rfl

theorem awaitAnswer_logs (deadline bound : Nat) :
    Effect.Logs Io.trace (AnswerLog connection requestId query)
      (awaitAnswer platform pending connection requestId query deadline bound) := by
  induction bound with
  | zero => exact Effect.Logs.throw (.of_error rfl rfl)
  | succ bound ih =>
    have quiet (packet : Packet) :
        Effect.Logs Io.trace
          (fun result events =>
            AnswerLog connection requestId query result ([.received connection packet] ++ events))
          (awaitAnswer platform pending connection requestId query deadline bound) :=
      ih.mono fun _ _ answered => answered.after rfl rfl
    have receiving : Effect.Logs Io.trace
        (fun result events => (∃ failure, result = .error failure ∧ events = []) ∨
          ∃ packet, result = .ok packet ∧ events = [.received connection packet])
        (Effect.mapError receiveFailure (Io.receivePacket platform connection deadline)) := by
      apply Effect.Logs.mapError
      apply (receivePacket_logs deadline).mono
      rintro result events (⟨error, rfl, rfl⟩ | ⟨packet, rfl, rfl⟩)
      · exact .inl ⟨_, rfl, rfl⟩
      · exact .inr ⟨packet, rfl, rfl⟩
    refine receiving.bind ?_ ?_
    · rintro failure events (⟨_, -, rfl⟩ | ⟨_, failed, -⟩)
      · exact .of_error rfl rfl
      · cases failed
    rintro packet events (⟨_, failed, -⟩ | ⟨received, same, rfl⟩)
    · cases failed
    obtain rfl := Except.ok.inj same
    cases packet with
    | dnsRelay answer =>
      refine Effect.Logs.ofExcept ⟨rfl, rfl, ?_⟩
      intro response accepted
      rcases checkAnswer_eq_ok accepted with ⟨rfl, valid⟩
      exact ⟨valid, [], rfl⟩
    | ping nonce =>
      refine Effect.Logs.bind_frames (Effect.Frames.mapError (sendPacket_frames _ _)) ?_ ?_
      · exact fun _ => .of_error rfl rfl
      · exact fun _ => quiet _
    | version packet => exact Effect.Logs.throw (.of_error rfl rfl)
    | _ => exact quiet _

theorem exchange_logs (timeout : Nat) :
    Effect.Logs Io.trace (AnswerLog connection requestId query)
      (exchange platform pending timeout connection requestId query) := by
  have failed {failure : AttemptFailure} :
      AnswerLog connection requestId query (.error failure) [] :=
    .of_error rfl rfl
  refine Effect.Logs.bind_frames (fun _ => rfl) (fun _ => failed) fun deadline => ?_
  refine Effect.Logs.bind_frames (Effect.Frames.ofExcept _) (fun _ => failed) fun request => ?_
  refine Effect.Logs.bind_frames (Effect.Frames.mapError (sendPacket_frames _ _))
    (fun _ => failed) fun _ => ?_
  exact awaitAnswer_logs deadline maxAdvisoryPacketsPerExchange

theorem receivePacket_frames (deadline : Nat) :
    Effect.Frames Io.opened (Io.receivePacket platform connection deadline) := by
  intro io
  unfold Io.receivePacket
  cases received : (platform.receivePacket connection deadline io.world).1 with
  | error error => simp only [received]
  | ok packet => simp only [received, Io.record]

theorem awaitAnswer_frames (deadline bound : Nat) :
    Effect.Frames Io.opened
      (awaitAnswer platform pending connection requestId query deadline bound) := by
  induction bound with
  | zero => exact Effect.Frames.throw _
  | succ bound ih =>
    apply Effect.Frames.bind (Effect.Frames.mapError (receivePacket_frames deadline))
    intro packet
    cases packet with
    | dnsRelay answer => exact Effect.Frames.ofExcept _
    | ping nonce => exact Effect.Frames.bind (Effect.Frames.mapError fun _ => rfl) fun _ => ih
    | version packet => exact Effect.Frames.throw _
    | _ => exact ih

theorem exchange_frames (timeout : Nat) :
    Effect.Frames Io.opened (exchange platform pending timeout connection requestId query) := by
  refine Effect.Frames.bind (fun _ => rfl) fun deadline => ?_
  refine Effect.Frames.bind (Effect.Frames.ofExcept _) fun request => ?_
  refine Effect.Frames.bind (Effect.Frames.mapError fun _ => rfl) fun _ => ?_
  exact awaitAnswer_frames deadline maxAdvisoryPacketsPerExchange

theorem allocateRequestIdFrom_frames (draws : Nat) :
    Effect.Frames Io.history (allocateRequestIdFrom platform pending draws) := by
  induction draws with
  | zero => exact Effect.Frames.throw _
  | succ draws ih =>
    intro io
    rw [allocateRequestIdFrom]
    dsimp only
    split
    · rfl
    · split
      · rfl
      · exact ih _

end

variable {live : LiveRelayConnection} {requestId : UInt64}

namespace DnsRelayClient

variable {capabilities : List DnsRelayPeerCapability} {now : Nat} {client : DnsRelayClient World}

theorem mem_eligiblePeers_iff {peers : PeerManager} {peer : PeerState} :
    peer ∈ eligiblePeers peers capabilities now ↔
      ∃ capability ∈ capabilities, capability.isEligible now = true ∧
        peers.get capability.address = some peer ∧ peer.isBanned now = false := by
  simp only [eligiblePeers, List.mem_filterMap, List.mem_filter, Option.filter_eq_some_iff,
    Bool.not_eq_true', and_assoc]

theorem mem_of_mem_selectDnsRelay {peers : PeerManager} {preferredCount : Nat}
    {proofPeer : Option SocketAddr} {address : SocketAddr}
    (selected : address ∈ selectDnsRelay peers capabilities preferredCount now proofPeer) :
    ∃ peer ∈ eligiblePeers peers capabilities now, peer.address = address := by
  have mem := (List.destutter_sublist _ _).subset (mem_of_mem_selectDiverse selected)
  rcases List.mem_map.mp mem with ⟨peer, peerMem, address_eq⟩
  exact ⟨peer, (List.perm_insertionSort _ _).mem_iff.mp peerMem, address_eq⟩

/-- A known peer that is neither banned nor cooling down. -/
def IsAvailable (client : DnsRelayClient World) (now : Nat) (address : SocketAddr) : Prop :=
  (∃ peer, client.peers.get address = some peer ∧ peer.isBanned now = false) ∧
    client.isCooling now address = false

theorem isCooling_eq_false_iff {address : SocketAddr} :
    client.isCooling now address = false ↔
      (client.cooldowns.lookup address).all (fun cooldownUntil => cooldownUntil ≤ now) = true := by
  unfold isCooling
  cases client.cooldowns.lookup address <;> simp

/-- The selected connection is one to an available peer that is not excluded. -/
theorem selectConnection_eq_some {exclude : Finset SocketAddr}
    {index : Fin client.connections.length}
    (selected : client.selectConnection now exclude = some index) :
    (client.connections.get index).address ∉ exclude ∧
      client.IsAvailable now (client.connections.get index).address := by
  rcases Option.bind_eq_some_iff.mp selected with ⟨address, found, position⟩
  have address_eq : (client.connections.get index).address = address := by
    simpa using (List.findFinIdx?_eq_some_iff.mp position).1
  rw [address_eq]
  have excluded := List.find?_some found
  rcases mem_of_mem_selectDnsRelay (List.mem_of_find?_eq_some found) with ⟨peer, eligible, rfl⟩
  rcases mem_eligiblePeers_iff.mp eligible with ⟨capability, capabilityMem, isEligible, known, free⟩
  have own := PeerManager.address_of_get known
  rcases List.mem_map.mp capabilityMem with ⟨live, -, rfl⟩
  rw [DnsRelayPeerCapability.isEligible, Bool.and_eq_true, Bool.and_eq_true] at isEligible
  dsimp only at own known isEligible
  rw [own]
  exact ⟨by simpa [own] using excluded, ⟨peer, known, free⟩, isCooling_eq_false_iff.mpr isEligible.2⟩

section

variable {next : DnsRelayClient World}

/-- Work that adds neither connections nor handshakes. -/
theorem Sound.of_quiet (sound : Sound client) (connections : next.connections = client.connections)
    (maxConnections : next.maxConnections = client.maxConnections)
    (trace : next.io.trace = client.io.trace ++ events) (quiet : handshakes events = [])
    (opened : next.io.opened = client.io.opened) : Sound next where
  connections_le := by
    rw [connections, maxConnections]
    exact sound.connections_le
  addresses_nodup := by
    rw [addresses, connections]
    exact sound.addresses_nodup
  advertised live mem := by
    rw [connections] at mem
    rw [trace]
    exact (sound.advertised live mem).mono (List.subset_append_left _ _)
  handshakes_nodup := by
    rw [trace, handshakes_append, quiet, List.append_nil]
    exact sound.handshakes_nodup
  handshakes_opened := by
    rw [trace, handshakes_append, quiet, List.append_nil, opened]
    exact sound.handshakes_opened

/-- What an attempt leaves behind when no request is pending. -/
structure Attempted (live : LiveRelayConnection) (requestId : UInt64) (query : Octets)
    (client next : DnsRelayClient World) (result : Except AttemptFailure Octets) : Prop where
  settings : SameSettings client next
  connections : next.connections = client.connections
  opened : next.io.opened = client.io.opened
  trace : ∃ events, next.io.trace = client.io.trace ++ (.exchange ⟨live.address, requestId,
      client.peers.get live.address, client.cooldowns.lookup live.address⟩ :: events) ∧
    AnswerLog live.connection requestId query result events

theorem attempt_attempted (live : LiveRelayConnection) (requestId : UInt64) (query : Octets)
    (idle : client.pending = ∅) :
    Attempted live requestId query client (attempt platform live requestId query client).2
      (attempt platform live requestId query client).1 where
  settings := by
    refine ⟨rfl, rfl, rfl, rfl, ?_⟩
    change (insert requestId client.pending).erase requestId = client.pending
    rw [idle]
    exact Finset.erase_insert (Finset.notMem_empty _)
  connections := rfl
  opened := exchange_frames _ _
  trace := by
    rcases @exchange_logs _ platform (insert requestId client.pending) live.connection requestId
      query client.timeout (client.io.record (.exchange ⟨live.address, requestId,
        client.peers.get live.address, client.cooldowns.lookup live.address⟩)) with
      ⟨events, trace_eq, answered⟩
    refine ⟨events, trace_eq.trans ?_, answered⟩
    rw [Io.record, List.append_assoc, List.singleton_append]

theorem Sound.tried {query : Octets} {result : Except AttemptFailure Octets} (sound : Sound client)
    (tried : Attempted live requestId query client next result) : Sound next := by
  rcases tried.trace with ⟨answering, answering_eq, shaken, -⟩
  exact sound.of_quiet tried.connections tried.settings.maxConnections answering_eq shaken
    tried.opened

theorem Opens.noted (sound : Sound client) (peers : PeerManager)
    (cooldowns : Data.Store SocketAddr Nat) : Opens 0 client { client with peers, cooldowns } :=
  ⟨⟨rfl, rfl, rfl, rfl, rfl⟩, sound.of_same rfl rfl rfl rfl, [], (List.append_nil _).symm, rfl, le_rfl⟩

theorem Opens.removed (sound : Sound client) (index : Nat) :
    Opens 0 client (client.removeConnection platform index) := by
  rcases @removeConnection_same _ platform client index with ⟨settings, -, -, trace, -⟩
  exact ⟨settings, sound.removeConnection, [], by rw [trace, List.append_nil], rfl, le_rfl⟩

theorem act_opens (sound : Sound client) (now index : Nat) (address : SocketAddr)
    (action : AttemptPeerAction) :
    Opens 0 client (client.act platform now index address action) := by
  cases action with
  | none => exact .refl sound
  | close => exact .removed sound index
  | backoff => exact .noted sound _ _
  | transport =>
    have noted := Opens.noted sound (client.peers.recordTransientFailure address)
      (client.cooldowns.insert address (saturatingAdd now defaultDnsRelayCooldownSeconds))
    exact noted.trans (.removed noted.sound index)
  | malformed =>
    have noted := Opens.noted sound
      (client.peers.recordMalformed address now defaultDnsRelayMalformedBanSeconds)
      (client.cooldowns.insert address (saturatingAdd now defaultDnsRelayCooldownSeconds))
    exact noted.trans (.removed noted.sound index)

end

end DnsRelayClient

/-- The peer of the exchange is known and neither banned nor cooling down. -/
def ExchangeStart.IsAvailable (start : ExchangeStart) (now : Nat) : Prop :=
  (∃ peer, start.peer = some peer ∧ peer.isBanned now = false) ∧
    start.cooldownUntil.all (fun cooldownUntil => cooldownUntil ≤ now) = true

/-- The events of a resolution that has some handshakes and exchanges left. -/
structure Bounded (now : Nat) (attempted : Finset SocketAddr) (budget remaining : Nat)
    (events : List RelayEvent) : Prop where
  handshakes_le : (handshakes events).length ≤ budget
  exchanges_le : (exchanges events).length ≤ remaining
  peers_nodup : ((exchanges events).map ExchangeStart.address).Nodup
  fresh : ∀ start ∈ exchanges events, start.address ∉ attempted
  available : ∀ start ∈ exchanges events, start.IsAvailable now

/-- The last packet that was received is the answer to the last exchange, which asked
the query, over a connection to the peer that is named. -/
def Answers (query : Octets) (events : List RelayEvent) (answer : DnsRelayExchange) : Prop :=
  validateDnsRelayResponse query answer.response = .ok () ∧ ∃ before start during connection,
      events = before ++ (.exchange start :: during ++
        [.received connection (.dnsRelay ⟨start.requestId, .ok, answer.response⟩)]) ∧
      exchanges during = [] ∧ start.address = answer.peer ∧ connection.address = answer.peer

theorem Answers.after {query : Octets} {answer : DnsRelayExchange}
    (answers : Answers query events answer) (earlier : List RelayEvent) :
    Answers query (earlier ++ events) answer := by
  rcases answers with ⟨valid, before, start, during, connection, rfl, quiet, started, connected⟩
  exact ⟨valid, earlier ++ before, start, during, connection, (List.append_assoc _ _ _).symm, quiet,
    started, connected⟩

namespace Bounded

variable {now : Nat} {attempted : Finset SocketAddr} {budget remaining : Nat}
  {events : List RelayEvent}

theorem nil : Bounded now attempted budget remaining [] :=
  ⟨Nat.zero_le _, Nat.zero_le _, List.nodup_nil, by simp [exchanges], by simp [exchanges]⟩

/-- After handshakes. -/
theorem opened {left : Nat} {opening later : List RelayEvent} (quiet : exchanges opening = [])
    (few : (handshakes opening).length + left ≤ budget)
    (rest : Bounded now attempted left remaining later) :
    Bounded now attempted budget remaining (opening ++ later) := by
  have exchanges_eq : exchanges (opening ++ later) = exchanges later := by
    rw [exchanges_append, quiet, List.nil_append]
  refine ⟨?_, exchanges_eq ▸ rest.exchanges_le, exchanges_eq ▸ rest.peers_nodup,
    exchanges_eq ▸ rest.fresh, exchanges_eq ▸ rest.available⟩
  rw [handshakes_append, List.length_append]
  exact (Nat.add_le_add_left rest.handshakes_le _).trans few

/-- After an exchange. -/
theorem exchanged {answering later : List RelayEvent} {start : ExchangeStart}
    (fresh : start.address ∉ attempted) (available : start.IsAvailable now)
    (shaken : handshakes answering = []) (quiet : exchanges answering = [])
    (rest : Bounded now (insert start.address attempted) budget remaining later) :
    Bounded now attempted budget (remaining + 1) (.exchange start :: answering ++ later) := by
  have handshakes_eq : handshakes (.exchange start :: answering ++ later) = handshakes later := by
    have quietStart : handshakes (.exchange start :: answering) = handshakes answering := rfl
    rw [handshakes_append, quietStart, shaken, List.nil_append]
  have exchanges_eq : exchanges (.exchange start :: answering ++ later) =
      start :: exchanges later := by
    have started : exchanges (.exchange start :: answering) = start :: exchanges answering := rfl
    rw [exchanges_append, started, quiet]
    rfl
  refine ⟨handshakes_eq ▸ rest.handshakes_le, ?_, ?_, ?_, ?_⟩
  · rw [exchanges_eq]
    exact Nat.succ_le_succ rest.exchanges_le
  · rw [exchanges_eq, List.map_cons, List.nodup_cons]
    refine ⟨?_, rest.peers_nodup⟩
    intro mem
    rcases List.mem_map.mp mem with ⟨other, otherMem, address_eq⟩
    apply rest.fresh other otherMem
    rw [address_eq]
    exact Finset.mem_insert_self _ _
  · rw [exchanges_eq, List.forall_mem_cons]
    exact ⟨fresh, fun other otherMem mem =>
      rest.fresh other otherMem (Finset.mem_insert_of_mem mem)⟩
  · rw [exchanges_eq, List.forall_mem_cons]
    exact ⟨available, rest.available⟩

end Bounded

namespace DnsRelayClient

/-- What a resolution leaves behind. -/
structure Resolved (now : Nat) (query : Octets) (attempted : Finset SocketAddr)
    (budget remaining : Nat) (client next : DnsRelayClient World)
    (result : Except DnsRelayClientError DnsRelayExchange) : Prop where
  settings : SameSettings client next
  sound : Sound next
  trace : ∃ events, next.io.trace = client.io.trace ++ events ∧
    Bounded now attempted budget remaining events ∧
    ∀ answer, result = .ok answer → Answers query events answer

namespace Resolved

variable {now : Nat} {query : Octets} {attempted : Finset SocketAddr}
  {budget left remaining : Nat} {client middle next : DnsRelayClient World}
  {result : Except DnsRelayClientError DnsRelayExchange}

theorem failed (sound : Sound client) {error : DnsRelayClientError} :
    Resolved now query attempted budget remaining client client (.error error) :=
  ⟨.refl client, sound, [], (List.append_nil _).symm, .nil, fun _ returned => by cases returned⟩

/-- After handshakes. -/
theorem opened {spent : Nat} (opens : Opens spent client middle) (few : spent + left ≤ budget)
    (rest : Resolved now query attempted left remaining middle next result) :
    Resolved now query attempted budget remaining client next result where
  settings := opens.settings.trans rest.settings
  sound := rest.sound
  trace := by
    rcases opens.trace with ⟨opening, opening_eq, quiet, opening_le⟩
    rcases rest.trace with ⟨later, later_eq, bounded, answers⟩
    refine ⟨opening ++ later, ?_, .opened quiet ?_ bounded, fun answer returned =>
      (answers answer returned).after _⟩
    · rw [later_eq, opening_eq, List.append_assoc]
    · exact (Nat.add_le_add_right opening_le left).trans few

/-- After an attempt that failed. -/
theorem retried {failure : AttemptFailure}
    (tried : Attempted live requestId query client middle (.error failure))
    (fresh : live.address ∉ attempted) (available : client.IsAvailable now live.address)
    (rest : Resolved now query (insert live.address attempted) budget remaining middle next result) :
    Resolved now query attempted budget (remaining + 1) client next result where
  settings := tried.settings.trans rest.settings
  sound := rest.sound
  trace := by
    rcases tried.trace with ⟨answering, answering_eq, shaken, quiet, -⟩
    rcases rest.trace with ⟨later, later_eq, bounded, answers⟩
    refine ⟨.exchange ⟨live.address, requestId, client.peers.get live.address,
      client.cooldowns.lookup live.address⟩ :: answering ++ later, ?_,
      .exchanged fresh ?_ shaken quiet bounded, fun answer returned =>
        (answers answer returned).after _⟩
    · rw [later_eq, answering_eq, List.append_assoc]
    · exact ⟨available.1, isCooling_eq_false_iff.mp available.2⟩

/-- An attempt that succeeded. -/
theorem returned {response : Octets}
    (sound : Sound client) (own : live.connection.address = live.address)
    (tried : Attempted live requestId query client middle (.ok response))
    (fresh : live.address ∉ attempted) (available : client.IsAvailable now live.address)
    (peers : PeerManager) (retries : Nat) :
    Resolved now query attempted budget (remaining + 1) client { middle with peers }
      (.ok ⟨response, live.address, retries⟩) where
  settings := tried.settings.trans ⟨rfl, rfl, rfl, rfl, rfl⟩
  sound := (sound.tried tried).of_same rfl rfl rfl rfl
  trace := by
    rcases tried.trace with ⟨answering, answering_eq, shaken, quiet, answered⟩
    have bounded : Bounded now attempted budget (remaining + 1) (.exchange ⟨live.address, requestId,
        client.peers.get live.address, client.cooldowns.lookup live.address⟩ :: answering ++ []) :=
      .exchanged fresh ⟨available.1, isCooling_eq_false_iff.mp available.2⟩ shaken quiet .nil
    rw [List.append_nil] at bounded
    refine ⟨_, answering_eq, bounded, ?_⟩
    intro answer returned
    obtain rfl := Except.ok.inj returned
    rcases answered response rfl with ⟨valid, during, rfl⟩
    rw [exchanges_append, List.append_eq_nil_iff] at quiet
    exact ⟨valid, [], _, during, live.connection, rfl, quiet.1, rfl, own⟩

end Resolved

variable {client : DnsRelayClient World}

theorem resolveFrom_resolved {now : Nat} {query : Octets} {remaining retry : Nat}
    {attempted : Finset SocketAddr} {budget : Nat} {lastError : Option DnsRelayClientError}
    {next : DnsRelayClient World} {result : Except DnsRelayClientError DnsRelayExchange}
    (sound : Sound client) (idle : client.pending = ∅)
    (run : resolveFrom platform now query remaining retry attempted budget lastError client =
      (result, next)) : Resolved now query attempted budget remaining client next result := by
  induction remaining generalizing retry attempted budget lastError client with
  | zero =>
    cases run
    exact .failed sound
  | succ remaining ih =>
    rw [resolveFrom] at run
    dsimp only at run
    rcases replenish_eq : client.replenishConnections platform now attempted budget with
      ⟨left, filled⟩
    rcases replenishConnections_opens sound replenish_eq with ⟨left_le, opens⟩
    rw [replenish_eq] at run
    dsimp only at run
    refine .opened opens (Nat.sub_add_cancel left_le).le ?_
    split at run
    · cases run
      exact .failed opens.sound
    next index selected =>
      rcases selectConnection_eq_some selected with ⟨fresh, available⟩
      rcases allocate_eq : allocateRequestId platform filled.pending filled.io with
        ⟨allocated, io⟩
      have framed := (@allocateRequestIdFrom_frames _ platform filled.pending 16).of_run allocate_eq
      have numbered : Opens 0 filled { filled with io } :=
        ⟨⟨rfl, rfl, rfl, rfl, rfl⟩, opens.sound.of_same rfl rfl (congrArg Prod.snd framed)
          (congrArg Prod.fst framed), [],
          (congrArg Prod.snd framed).trans (List.append_nil _).symm, rfl, le_rfl⟩
      rw [allocate_eq] at run
      refine .opened numbered (Nat.zero_add left).le ?_
      cases allocated with
      | error error =>
        cases run
        exact .failed numbered.sound
      | ok requestId =>
        dsimp only at run
        have tried := @attempt_attempted _ platform { filled with io }
          (filled.connections.get index) requestId query (opens.settings.pending.trans idle)
        rcases attempt_eq : attempt platform (filled.connections.get index) requestId query
          { filled with io } with ⟨outcome, after⟩
        rw [attempt_eq] at run tried
        cases outcome with
        | ok response =>
          cases run
          have own := (numbered.sound.advertised _ (List.get_mem _ index)).address_eq
          exact .returned numbered.sound own tried fresh available _ _
        | error failure =>
          dsimp only at run tried
          have acted := @act_opens _ platform after (numbered.sound.tried tried) now index
            (filled.connections.get index).address failure.peerAction
          refine .retried tried fresh available (.opened acted (Nat.zero_add left).le ?_)
          split at run
          · apply ih acted.sound _ run
            rw [acted.settings.pending, tried.settings.pending]
            exact opens.settings.pending.trans idle
          · cases run
            exact .failed acted.sound

/-- What holds between the calls. -/
structure Idle (client : DnsRelayClient World) : Prop where
  pending : client.pending = ∅
  sound : Sound client

/-- What a resolution guarantees. -/
structure Correlated (query : Octets) (now : Nat) (client next : DnsRelayClient World)
    (result : Except DnsRelayClientError DnsRelayExchange) : Prop where
  events : ∃ events, next.io.trace = client.io.trace ++ events ∧
    Bounded now ∅ maxDnsRelayHandshakeAttemptsPerResolution (client.alternateRetries + 1) events ∧
    ∀ answer, result = .ok answer →
      ∃ prepared, prepareDnsRelayQuery query = .ok prepared ∧ Answers prepared events answer

theorem resolveAt_spec (idle : Idle client) (query : Octets) (now : Nat) :
    Idle (client.resolveAt platform query now).2 ∧
      Correlated query now client (client.resolveAt platform query now).2
        (client.resolveAt platform query now).1 := by
  unfold resolveAt
  cases prepares : prepareDnsRelayQuery query with
  | error error =>
    exact ⟨idle, [], (List.append_nil _).symm, .nil, fun _ returned => by cases returned⟩
  | ok prepared =>
    dsimp only
    rcases resolve_eq : resolveFrom platform now prepared (client.alternateRetries + 1) 0 ∅
      maxDnsRelayHandshakeAttemptsPerResolution none client with ⟨result, next⟩
    have resolved := resolveFrom_resolved idle.sound idle.pending resolve_eq
    rcases resolved.trace with ⟨events, events_eq, bounded, answers⟩
    exact ⟨⟨resolved.settings.pending.trans idle.pending, resolved.sound⟩, events, events_eq,
      bounded, fun answer returned => ⟨prepared, prepares, answers answer returned⟩⟩

theorem Idle.step (idle : Idle client) (call : Call) : Idle (client.step platform call) := by
  cases call with
  | resolveAt query now => exact (resolveAt_spec idle query now).1
  | reportDnssecFailure peer now =>
    simp only [DnsRelayClient.step, reportDnssecFailure]
    split
    · exact idle
    next index _ =>
      have acted := @act_opens _ platform client idle.sound now index peer .malformed
      exact ⟨acted.settings.pending.trans idle.pending, acted.sound⟩
  | setProofPeer proofPeer => exact ⟨idle.pending, idle.sound.of_same rfl rfl rfl rfl⟩
  | shutdown =>
    have history_eq (connections : List LiveRelayConnection) (io : Io World) :
        (connections.foldl (fun io live => io.close platform live.connection) io).history =
          io.history := by
      induction connections generalizing io with
      | nil => rfl
      | cons live rest ih => exact ih _
    refine ⟨rfl, idle.sound.of_subperm (List.nil_subperm) rfl ?_ ?_⟩
    · exact congrArg Prod.snd (history_eq client.connections client.io)
    · exact congrArg Prod.fst (history_eq client.connections client.io)

/-- The client after some calls. -/
def run (platform : Platform World) (peers : PeerManager) (world : World) (calls : List Call) :
    DnsRelayClient World :=
  runFrom (step platform) (withConnector peers world) calls

theorem run_idle (peers : PeerManager) (world : World) (calls : List Call) :
    Idle (run platform peers world calls) := by
  apply runFrom_invariant fun client call idle => idle.step call
  exact ⟨rfl, Nat.zero_le _, List.nodup_nil, by simp [withConnector], List.nodup_nil,
    by simp [withConnector, handshakes]⟩

/-- Between any calls no request is pending and the live connections are few, to distinct
peers, and advertised; every resolution is bounded and correlated. -/
theorem relay_exchanges_correlated (platform : Platform World) (peers : PeerManager) (world : World)
    (calls : List Call) :
    Idle (run platform peers world calls) ∧
      ∀ (query : Octets) (now : Nat),
        Correlated query now (run platform peers world calls)
          ((run platform peers world calls).resolveAt platform query now).2
          ((run platform peers world calls).resolveAt platform query now).1 := by
  have idle := @run_idle _ platform peers world calls
  exact ⟨idle, fun query now => (resolveAt_spec idle query now).2⟩

end DnsRelayClient

end HnsDaneEngine.RelayClient
