import HnsDaneEngine.RelayClient.Client

/-!
# The live connections

What removing, opening and replenishing connections does to the list of live connections
and to the trace: how the list changes, how many handshakes it takes, and that the
connections stay distinct and advertised.
-/

namespace HnsDaneEngine.RelayClient

open Control
open NamespaceResolution (SocketAddr)
open PeerWire

section

variable {α : Type} {items : List α} {index : Nat} {item : α}

/-- The items behind the removed one are rearranged, those before it stay. -/
theorem exists_swapRemove (front back : List α) (item : α) :
    ∃ rest, swapRemove (front ++ item :: back) front.length = front ++ rest ∧ rest.Perm back := by
  cases back using List.reverseRecOn with
  | nil => exact ⟨[], by simp [swapRemove], .refl _⟩
  | append_singleton init last =>
    refine ⟨last :: init, ?_, (List.perm_append_singleton last init).symm⟩
    have whole : front ++ item :: (init ++ [last]) = front ++ item :: init ++ [last] := by simp
    have replaced : (front ++ item :: (init ++ [last])).set front.length last =
        front ++ last :: init ++ [last] := by simp
    rw [swapRemove, whole, List.getLast?_concat, ← whole]
    dsimp only
    rw [replaced, List.dropLast_concat]

theorem exists_split_of_getElem? (found : items[index]? = some item) :
    ∃ front back, items = front ++ item :: back ∧ front.length = index := by
  rcases List.getElem?_eq_some_iff.mp found with ⟨inside, rfl⟩
  refine ⟨items.take index, items.drop (index + 1), ?_, by simp; omega⟩
  rw [List.getElem_cons_drop, List.take_append_drop]

/-- The items without the removed one, in some order. -/
theorem swapRemove_perm (found : items[index]? = some item) :
    (item :: swapRemove items index).Perm items := by
  rcases exists_split_of_getElem? found with ⟨front, back, rfl, rfl⟩
  rcases exists_swapRemove front back item with ⟨rest, removed, perm⟩
  rw [removed]
  exact (List.perm_middle.symm).trans ((perm.cons item).append_left front)

end

def handshakes (events : List RelayEvent) : List PeerConnection :=
  events.filterMap fun event =>
    match event with
    | .handshake connection _ => some connection
    | _ => none

def exchanges (events : List RelayEvent) : List ExchangeStart :=
  events.filterMap fun event =>
    match event with
    | .exchange start => some start
    | _ => none

@[simp]
theorem handshakes_append (earlier later : List RelayEvent) :
    handshakes (earlier ++ later) = handshakes earlier ++ handshakes later :=
  List.filterMap_append

@[simp]
theorem exchanges_append (earlier later : List RelayEvent) :
    exchanges (earlier ++ later) = exchanges earlier ++ exchanges later :=
  List.filterMap_append

variable {World : Type} {platform : Platform World}

namespace Io

/-- The part of the state that is not the world. -/
def history (io : Io World) : Nat × List RelayEvent :=
  (io.opened, io.trace)

theorem deadlineAfter_frames {ε : Type} (timeout : Nat) :
    Effect.Frames history (deadlineAfter platform timeout : Task World ε Nat) :=
  fun _ => rfl

theorem contactTime_frames (timeout : Nat) :
    Effect.Frames history (contactTime platform timeout) := by
  apply Effect.Frames.bind (deadlineAfter_frames timeout)
  intro deadline
  exact Effect.Frames.bind (fun _ => rfl) fun _ => Effect.Frames.pure _

theorem connect_cases {address : SocketAddr} {timeout : Nat} {io next : Io World}
    {result : Except P2pError PeerConnection}
    (run : connect platform address timeout io = (result, next)) :
    next.opened = io.opened + 1 ∧ next.trace = io.trace ++ [.connect ⟨address, io.opened⟩] ∧
      ∀ connection, result = .ok connection → connection = ⟨address, io.opened⟩ := by
  unfold connect at run
  cases run
  refine ⟨rfl, rfl, ?_⟩
  intro connection returned
  cases connected : (platform.connect ⟨address, io.opened⟩ timeout io.world).1 with
  | error error =>
    rw [connected] at returned
    cases returned
  | ok _ =>
    rw [connected] at returned
    exact (Except.ok.inj returned).symm

theorem handshake_cases {connection : PeerConnection} {version : VersionPacket} {deadline : Nat}
    {io next : Io World} {result : Except P2pError VersionPacket}
    (run : handshake platform connection version deadline io = (result, next)) :
    next.opened = io.opened ∧ next.trace = io.trace ++ [.handshake connection result.toOption] := by
  unfold handshake at run
  cases run
  exact ⟨rfl, rfl⟩

end Io

namespace DnsRelayClient

def addresses (client : DnsRelayClient World) : List SocketAddr :=
  client.connections.map LiveRelayConnection.address

/-- What the relay loops never change. -/
structure SameSettings (before after : DnsRelayClient World) : Prop where
  maxConnections : after.maxConnections = before.maxConnections
  alternateRetries : after.alternateRetries = before.alternateRetries
  timeout : after.timeout = before.timeout
  proofPeer : after.proofPeer = before.proofPeer
  pending : after.pending = before.pending

namespace SameSettings

theorem refl (client : DnsRelayClient World) : SameSettings client client :=
  ⟨rfl, rfl, rfl, rfl, rfl⟩

theorem trans {first second third : DnsRelayClient World} (earlier : SameSettings first second)
    (later : SameSettings second third) : SameSettings first third where
  maxConnections := later.maxConnections.trans earlier.maxConnections
  alternateRetries := later.alternateRetries.trans earlier.alternateRetries
  timeout := later.timeout.trans earlier.timeout
  proofPeer := later.proofPeer.trans earlier.proofPeer
  pending := later.pending.trans earlier.pending

end SameSettings

/-- A live connection whose handshake, on this connection, advertised the service. -/
structure Advertised (trace : List RelayEvent) (live : LiveRelayConnection) : Prop where
  address_eq : live.connection.address = live.address
  service : live.services &&& experimentalDnsRelayService ≠ 0
  handshaken : ∃ version, .handshake live.connection (some version) ∈ trace ∧
    version.services = live.services

theorem Advertised.mono {earlier later : List RelayEvent} {live : LiveRelayConnection}
    (advertised : Advertised earlier live) (subset : earlier ⊆ later) : Advertised later live where
  address_eq := advertised.address_eq
  service := advertised.service
  handshaken := by
    rcases advertised.handshaken with ⟨version, mem, services_eq⟩
    exact ⟨version, subset mem, services_eq⟩

/-- The connections are few, to distinct peers, and each was shaken once and advertised
the service. -/
structure Sound (client : DnsRelayClient World) : Prop where
  connections_le : client.connections.length ≤ client.maxConnections
  addresses_nodup : client.addresses.Nodup
  advertised : ∀ live ∈ client.connections, Advertised client.io.trace live
  handshakes_nodup : (handshakes client.io.trace).Nodup
  handshakes_opened : ∀ connection ∈ handshakes client.io.trace,
    connection.serial < client.io.opened

namespace Sound

variable {client next : DnsRelayClient World}

theorem of_same (sound : Sound client) (connections : next.connections = client.connections)
    (maxConnections : next.maxConnections = client.maxConnections)
    (trace : next.io.trace = client.io.trace) (opened : next.io.opened = client.io.opened) :
    Sound next where
  connections_le := by
    rw [connections, maxConnections]
    exact sound.connections_le
  addresses_nodup := by
    rw [addresses, connections]
    exact sound.addresses_nodup
  advertised := by
    rw [connections, trace]
    exact sound.advertised
  handshakes_nodup := by
    rw [trace]
    exact sound.handshakes_nodup
  handshakes_opened := by
    rw [trace, opened]
    exact sound.handshakes_opened

/-- Fewer connections. -/
theorem of_subperm (sound : Sound client) (fewer : next.connections.Subperm client.connections)
    (maxConnections : next.maxConnections = client.maxConnections)
    (trace : next.io.trace = client.io.trace) (opened : next.io.opened = client.io.opened) :
    Sound next where
  connections_le := by
    rw [maxConnections]
    exact fewer.length_le.trans sound.connections_le
  addresses_nodup := by
    rcases fewer with ⟨middle, perm, sublist⟩
    exact (perm.map _).nodup_iff.mp ((sublist.map _).nodup sound.addresses_nodup)
  advertised live mem := by
    rw [trace]
    exact sound.advertised live (fewer.subset mem)
  handshakes_nodup := by
    rw [trace]
    exact sound.handshakes_nodup
  handshakes_opened := by
    rw [trace, opened]
    exact sound.handshakes_opened

end Sound

section

variable {client : DnsRelayClient World} {index : Nat} {live : LiveRelayConnection}

theorem removeConnection_eq (found : client.connections[index]? = some live) :
    client.removeConnection platform index = close platform live.connection
        { client with connections := swapRemove client.connections index } := by
  rw [removeConnection, found]

theorem removeConnection_cases :
    client.removeConnection platform index = client ∨
      ∃ live, client.connections[index]? = some live ∧ client.removeConnection platform index =
          close platform live.connection
            { client with connections := swapRemove client.connections index } := by
  cases found : client.connections[index]? with
  | none => exact .inl (by rw [removeConnection, found])
  | some live => exact .inr ⟨live, rfl, removeConnection_eq found⟩

theorem removeConnection_same :
    SameSettings client (client.removeConnection platform index) ∧
      (client.removeConnection platform index).peers = client.peers ∧
      (client.removeConnection platform index).cooldowns = client.cooldowns ∧
      (client.removeConnection platform index).io.trace = client.io.trace ∧
      (client.removeConnection platform index).io.opened = client.io.opened := by
  rcases @removeConnection_cases _ platform client index with same | ⟨live, -, removed⟩
  · rw [same]
    exact ⟨.refl client, rfl, rfl, rfl, rfl⟩
  · rw [removed]
    exact ⟨⟨rfl, rfl, rfl, rfl, rfl⟩, rfl, rfl, rfl, rfl⟩

theorem removeConnection_subperm :
    (client.removeConnection platform index).connections.Subperm client.connections := by
  rcases @removeConnection_cases _ platform client index with same | ⟨live, found, removed⟩
  · rw [same]
  · rw [removed]
    exact ((List.sublist_cons_self live _).subperm).trans (swapRemove_perm found).subperm

theorem Sound.removeConnection (sound : Sound client) :
    Sound (client.removeConnection platform index) := by
  rcases @removeConnection_same _ platform client index with ⟨settings, -, -, trace, opened⟩
  exact sound.of_subperm removeConnection_subperm settings.maxConnections trace opened

end

/-- Connections to banned peers are closed, the others stay. -/
theorem dropBannedFrom_spec (now : Nat) {client : DnsRelayClient World}
    {front todo : List LiveRelayConnection} (connections_eq : client.connections = front ++ todo) :
    let after := client.dropBannedFrom platform now todo.length front.length
    after.connections.Perm (front ++ todo.filter fun live => !client.isBanned now live.address) ∧
      SameSettings client after ∧ after.peers = client.peers ∧
      after.cooldowns = client.cooldowns ∧ after.io.trace = client.io.trace ∧
      after.io.opened = client.io.opened := by
  dsimp only
  induction todo_eq : todo.length generalizing client front todo with
  | zero =>
    obtain rfl := List.length_eq_zero_iff.mp todo_eq
    rw [dropBannedFrom, connections_eq, List.filter_nil]
    exact ⟨.refl _, .refl client, rfl, rfl, rfl, rfl⟩
  | succ remaining ih =>
    rcases todo with - | ⟨live, back⟩
    · cases todo_eq
    have found : client.connections[front.length]? = some live := by simp [connections_eq]
    rw [List.length_cons, Nat.add_right_cancel_iff] at todo_eq
    rw [dropBannedFrom, found, Option.any_some]
    cases banned : client.isBanned now live.address with
    | true =>
      rcases exists_swapRemove front back live with ⟨rest, swapped, perm⟩
      rcases @removeConnection_same _ platform client front.length with
        ⟨settings, peers_eq, cooldowns_eq, trace_eq, opened_eq⟩
      have removed : (client.removeConnection platform front.length).connections =
          front ++ rest := by
        rw [removeConnection_eq found]
        exact (congrArg (swapRemove · front.length) connections_eq).trans swapped
      have banned_eq (address : SocketAddr) :
          (client.removeConnection platform front.length).isBanned now address =
            client.isBanned now address := by
        rw [isBanned, isBanned, peers_eq]
      rcases ih removed (perm.length_eq.trans todo_eq) with
        ⟨connections, settings', peers', cooldowns', trace', opened'⟩
      simp only [banned_eq] at connections
      rw [if_pos rfl, List.filter_cons_of_neg (by simp [banned])]
      exact ⟨connections.trans ((perm.filter _).append_left front), settings.trans settings',
        peers'.trans peers_eq, cooldowns'.trans cooldowns_eq, trace'.trans trace_eq,
        opened'.trans opened_eq⟩
    | false =>
      have split : client.connections = (front ++ [live]) ++ back := by simp [connections_eq]
      have longer : (front ++ [live]).length = front.length + 1 := by simp
      have rest := ih split todo_eq
      rw [longer] at rest
      rw [if_neg Bool.false_ne_true, List.filter_cons_of_pos (by simp [banned])]
      simpa using rest

theorem dropBanned_spec (now : Nat) (client : DnsRelayClient World) :
    let after := client.dropBanned platform now
    after.connections.Perm
        (client.connections.filter fun live => !client.isBanned now live.address) ∧
      SameSettings client after ∧ after.peers = client.peers ∧
      after.cooldowns = client.cooldowns ∧ after.io.trace = client.io.trace ∧
      after.io.opened = client.io.opened :=
  @dropBannedFrom_spec _ platform now client [] client.connections rfl

variable {client next : DnsRelayClient World} {now : Nat} {address : SocketAddr}
  {exclude : Finset SocketAddr}

theorem Sound.dropBanned (sound : Sound client) (now : Nat) :
    Sound (client.dropBanned platform now) := by
  rcases @dropBanned_spec _ platform now client with ⟨connections, settings, -, -, trace, opened⟩
  exact sound.of_subperm (connections.subperm.trans List.filter_sublist.subperm)
    settings.maxConnections trace opened

/-- The events of a contact and the connections after it. -/
structure Contacted (address : SocketAddr) (client next : DnsRelayClient World)
    (events : List RelayEvent) : Prop where
  trace : next.io.trace = client.io.trace ++ events
  settings : SameSettings client next
  exchanges_nil : exchanges events = []
  opened : client.io.opened ≤ next.io.opened
  outcome :
    (handshakes events = [] ∧ next.connections = client.connections) ∨
      handshakes events = [⟨address, client.io.opened⟩] ∧ client.io.opened < next.io.opened ∧
        (next.connections = client.connections ∨
          ∃ live, next.connections = client.connections ++ [live] ∧ live.address = address ∧
            Advertised events live)

theorem acceptHandshake_cases (now : Nat) (connection : PeerConnection) (remote : VersionPacket)
    (client : DnsRelayClient World) :
    let next := acceptHandshake platform now connection remote client
    SameSettings client next ∧ next.io.history = client.io.history ∧
      (next.connections = client.connections ∨ remote.services &&& experimentalDnsRelayService ≠ 0 ∧
          next.connections =
            client.connections ++ [⟨connection.address, remote.services, connection⟩]) := by
  dsimp only [acceptHandshake]
  split
  next => exact ⟨⟨rfl, rfl, rfl, rfl, rfl⟩, rfl, .inl rfl⟩
  next capable => exact ⟨⟨rfl, rfl, rfl, rfl, rfl⟩, rfl, .inr ⟨capable, rfl⟩⟩

theorem contact_cases {goOn : Bool} (run : contact platform now address client = (goOn, next)) :
    ∃ events, Contacted address client next events := by
  unfold contact at run
  rcases time_eq : Io.contactTime platform client.timeout client.io with ⟨time, first⟩
  have first_eq := (Io.contactTime_frames client.timeout).of_run time_eq
  have opened_eq : first.opened = client.io.opened := congrArg Prod.fst first_eq
  have trace_eq : first.trace = client.io.trace := congrArg Prod.snd first_eq
  rw [time_eq] at run
  rcases time with error | ⟨deadline, connectTimeout⟩
  · cases run
    exact ⟨[], by simp [trace_eq], ⟨rfl, rfl, rfl, rfl, rfl⟩, rfl, opened_eq.ge, .inl ⟨rfl, rfl⟩⟩
  dsimp only at run
  rcases connect_eq : Io.connect platform address connectTimeout first with ⟨connected, second⟩
  rcases Io.connect_cases connect_eq with ⟨opened_second, trace_second, connection_eq⟩
  rw [opened_eq] at opened_second trace_second connection_eq
  rw [trace_eq] at trace_second
  rw [connect_eq] at run
  cases connected with
  | error error =>
    cases run
    exact ⟨[.connect ⟨address, client.io.opened⟩], trace_second, ⟨rfl, rfl, rfl, rfl, rfl⟩, rfl,
      opened_second.ge.trans' (Nat.le_succ _), .inl ⟨rfl, rfl⟩⟩
  | ok connection =>
    obtain rfl := connection_eq connection rfl
    dsimp only at run
    rcases shake_eq : Io.handshake platform ⟨address, client.io.opened⟩ relayRequesterVersion
      deadline second with ⟨shaken, third⟩
    rcases Io.handshake_cases shake_eq with ⟨opened_third, trace_third⟩
    rw [opened_second] at opened_third
    rw [trace_second, List.append_assoc] at trace_third
    rw [shake_eq] at run
    cases shaken with
    | error error =>
      cases run
      exact ⟨_, trace_third, ⟨rfl, rfl, rfl, rfl, rfl⟩, rfl, opened_third.ge.trans' (Nat.le_succ _),
        .inr ⟨rfl, opened_third.ge, .inl rfl⟩⟩
    | ok remote =>
      rcases @acceptHandshake_cases _ platform now ⟨address, client.io.opened⟩ remote
        { client with io := third } with ⟨settings, history_eq, connections⟩
      cases run
      have opened_last := (congrArg Prod.fst history_eq).trans opened_third
      have trace_last := (congrArg Prod.snd history_eq).trans trace_third
      refine ⟨_, trace_last, ⟨settings.1, settings.2, settings.3, settings.4, settings.5⟩, rfl,
        opened_last.ge.trans' (Nat.le_succ _), .inr ⟨rfl, opened_last.ge, ?_⟩⟩
      rcases connections with same | ⟨capable, added⟩
      · exact .inl same
      · exact .inr ⟨_, added, rfl, rfl, capable, remote, by simp [Except.toOption], rfl⟩

theorem Sound.contacted {events : List RelayEvent} (sound : Sound client)
    (contacted : Contacted address client next events)
    (room : client.connections.length < client.maxConnections)
    (fresh : address ∉ client.addresses) : Sound next := by
  have kept (live : LiveRelayConnection) (mem : live ∈ client.connections) :
      Advertised next.io.trace live := by
    rw [contacted.trace]
    exact (sound.advertised live mem).mono (List.subset_append_left _ _)
  have shaken : (handshakes next.io.trace).Nodup ∧
      ∀ connection ∈ handshakes next.io.trace, connection.serial < next.io.opened := by
    rw [contacted.trace, handshakes_append]
    rcases contacted.outcome with ⟨quiet, -⟩ | ⟨shaken, opened, -⟩
    · rw [quiet, List.append_nil]
      exact ⟨sound.handshakes_nodup, fun connection mem =>
        (sound.handshakes_opened connection mem).trans_le contacted.opened⟩
    rw [shaken]
    constructor
    · apply sound.handshakes_nodup.append (List.nodup_singleton _)
      rw [List.disjoint_singleton]
      intro mem
      exact absurd (sound.handshakes_opened _ mem) (Nat.lt_irrefl _)
    · intro connection mem
      rw [List.mem_append, List.mem_singleton] at mem
      rcases mem with old | rfl
      · exact (sound.handshakes_opened connection old).trans opened
      · exact opened
  have same_or_added : next.connections = client.connections ∨
      ∃ live, next.connections = client.connections ++ [live] ∧ live.address = address ∧
        Advertised events live := by
    rcases contacted.outcome with ⟨-, same⟩ | ⟨-, -, outcome⟩
    · exact .inl same
    · exact outcome
  rcases same_or_added with same | ⟨live, added, rfl, advertised⟩
  · refine ⟨?_, ?_, ?_, shaken.1, shaken.2⟩
    · rw [same, contacted.settings.maxConnections]
      exact sound.connections_le
    · rw [addresses, same]
      exact sound.addresses_nodup
    · rw [same]
      exact kept
  · refine ⟨?_, ?_, ?_, shaken.1, shaken.2⟩
    · rw [added, contacted.settings.maxConnections, List.length_append, List.length_singleton]
      exact room
    · rw [addresses, added, List.map_append, List.map_singleton]
      exact sound.addresses_nodup.append (List.nodup_singleton _) (List.disjoint_singleton.mpr fresh)
    rw [added]
    intro other mem
    rw [List.mem_append, List.mem_singleton] at mem
    rcases mem with old | rfl
    · exact kept other old
    · rw [contacted.trace]
      exact advertised.mono (List.subset_append_right _ _)

/-- Work that opens connections with a number of handshakes. -/
structure Opens (spent : Nat) (client next : DnsRelayClient World) : Prop where
  settings : SameSettings client next
  sound : Sound next
  trace : ∃ events, next.io.trace = client.io.trace ++ events ∧ exchanges events = [] ∧
    (handshakes events).length ≤ spent

namespace Opens

variable {first second third : DnsRelayClient World} {spent spentLater : Nat}

theorem refl (sound : Sound client) : Opens 0 client client :=
  ⟨.refl client, sound, [], (List.append_nil _).symm, rfl, le_rfl⟩

theorem trans (earlier : Opens spent first second) (later : Opens spentLater second third) :
    Opens (spent + spentLater) first third where
  settings := earlier.settings.trans later.settings
  sound := later.sound
  trace := by
    rcases earlier.trace with ⟨before, before_eq, quiet, before_le⟩
    rcases later.trace with ⟨after, after_eq, quietLater, after_le⟩
    refine ⟨before ++ after, ?_, ?_, ?_⟩
    · rw [after_eq, before_eq, List.append_assoc]
    · rw [exchanges_append, quiet, quietLater, List.append_nil]
    · rw [handshakes_append, List.length_append]
      exact Nat.add_le_add before_le after_le

theorem mono (opens : Opens spent first second) (le : spent ≤ spentLater) :
    Opens spentLater first second where
  settings := opens.settings
  sound := opens.sound
  trace := by
    rcases opens.trace with ⟨events, events_eq, quiet, events_le⟩
    exact ⟨events, events_eq, quiet, events_le.trans le⟩

end Opens

/-- The candidates are distinct and none of those left was contacted in this loop. -/
theorem contactAll_opens {connected : List SocketAddr} {rest : List SocketAddr} {budget left : Nat}
    (run : contactAll platform now connected exclude rest budget client = (left, next))
    (sound : Sound client) (nodup : rest.Nodup)
    (fresh : ∀ address ∈ rest, address ∈ client.addresses → address ∈ connected) :
    left ≤ budget ∧ Opens (budget - left) client next := by
  induction rest generalizing budget client with
  | nil =>
    cases run
    exact ⟨le_rfl, by simpa using Opens.refl sound⟩
  | cons address rest ih =>
    rw [List.nodup_cons] at nodup
    rw [List.forall_mem_cons] at fresh
    rw [contactAll] at run
    split at run
    · cases run
      exact ⟨le_rfl, by simpa using Opens.refl sound⟩
    next room =>
      rw [not_or, Nat.not_le] at room
      split at run
      · exact ih run sound nodup.2 fresh.2
      next chosen =>
        rw [not_or] at chosen
        have absent : address ∉ client.addresses := fun mem => chosen.1 (fresh.1 mem)
        rcases contact_eq : contact platform now address client with ⟨goOn, after⟩
        rcases contact_cases contact_eq with ⟨events, contacted⟩
        have opens : Opens 1 client after := by
          refine ⟨contacted.settings, sound.contacted contacted room.1 absent, events,
            contacted.trace, contacted.exchanges_nil, ?_⟩
          rcases contacted.outcome with ⟨quiet, -⟩ | ⟨shaken, -⟩
          · simp [quiet]
          · simp [shaken]
        have budget_pos : 0 < budget := Nat.pos_of_ne_zero room.2
        rw [contact_eq] at run
        cases goOn with
        | false =>
          cases run
          exact ⟨Nat.sub_le _ _, opens.mono (by omega)⟩
        | true =>
          have freshLater : ∀ other ∈ rest, other ∈ after.addresses → other ∈ connected := by
            intro other mem present
            have old_or_new : other ∈ client.addresses ∨ other = address := by
              rcases contacted.outcome with ⟨-, same⟩ | ⟨-, -, same | ⟨live, added, rfl, -⟩⟩
              · rw [addresses, same] at present
                exact .inl present
              · rw [addresses, same] at present
                exact .inl present
              · rw [addresses, added, List.map_append, List.mem_append] at present
                exact present.imp_right fun new => by simpa using new
            rcases old_or_new with old | rfl
            · exact fresh.2 other mem old
            · exact absurd mem nodup.1
          rcases ih run opens.sound nodup.2 freshLater with ⟨left_le, later⟩
          exact ⟨left_le.trans (Nat.sub_le _ _), (opens.trans later).mono (by omega)⟩

theorem candidates_nodup (client : DnsRelayClient World) (now : Nat) :
    (client.candidates now).Nodup := by
  have selected := @PeerManager.selectOutbound_nodup client.peers now client.peers.len
  unfold candidates
  dsimp only
  split
  · exact selected
  · split
    · apply (selected.erase _).append (List.nodup_singleton _)
      rw [List.disjoint_singleton]
      exact fun mem => (selected.mem_erase_iff.mp mem).1 rfl
    · exact selected

theorem mem_candidates_iff :
    address ∈ client.candidates now ↔
      ∃ peer, client.peers.get address = some peer ∧ peer.isBanned now = false := by
  rw [← PeerManager.mem_selectOutbound_iff]
  have selected := @PeerManager.selectOutbound_nodup client.peers now client.peers.len
  unfold candidates
  dsimp only
  split
  · rfl
  split
  next proofPeer _ mem =>
    rw [List.mem_append, selected.mem_erase_iff, List.mem_singleton]
    by_cases same : address = proofPeer
    · subst same
      simp [mem]
    · simp [same]
  · rfl

/-- Replenishing keeps the connections sound and spends its handshakes from the budget. -/
theorem replenishConnections_opens {budget left : Nat} (sound : Sound client)
    (run : client.replenishConnections platform now exclude budget = (left, next)) :
    left ≤ budget ∧ Opens (budget - left) client next := by
  rcases @dropBanned_spec _ platform now client with ⟨-, settings, -, -, trace_eq, -⟩
  have dropped : Opens 0 client (client.dropBanned platform now) :=
    ⟨settings, sound.dropBanned now, [], by rw [trace_eq, List.append_nil], rfl, le_rfl⟩
  unfold replenishConnections at run
  dsimp only at run
  split at run
  · cases run
    exact ⟨le_rfl, dropped.mono (Nat.zero_le _)⟩
  · rcases contactAll_opens run dropped.sound (candidates_nodup _ now) fun _ _ mem => mem with
      ⟨left_le, opens⟩
    exact ⟨left_le, (dropped.trans opens).mono (by omega)⟩

end DnsRelayClient

end HnsDaneEngine.RelayClient
