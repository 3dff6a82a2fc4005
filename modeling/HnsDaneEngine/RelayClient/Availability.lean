import HnsDaneEngine.RelayClient.Exchanges

/-!
# When a resolution succeeds

With peers that cooperate, the first exchange of a resolution succeeds as soon as there is
a live connection to an available peer.  Connections to peers that cool down are kept and
count against the limit, so that an available peer may never be contacted.
-/

namespace HnsDaneEngine.RelayClient

open Control
open NamespaceResolution (SocketAddr)
open PeerWire

variable {World : Type} {platform : Platform World} {timeout : Nat}

/-! ## Cooperation -/

/-- Packets that an exchange passes over without a reply. -/
def isAdvisory : Packet → Bool
  | .dnsRelay _ | .ping _ | .version _ => false
  | _ => true

/-- The answer to a request comes within a number of packets. -/
inductive WillAnswer (platform : Platform World) (connection : PeerConnection) (deadline : Nat)
    (requestId : UInt64) (query : Octets) : Nat → World → Prop
  | answer {bound : Nat} {world after : World} {response : Octets}
      (received : platform.receivePacket connection deadline world =
        (.ok (.dnsRelay ⟨requestId, .ok, response⟩), after))
      (valid : validateDnsRelayResponse query response = .ok ()) :
      WillAnswer platform connection deadline requestId query (bound + 1) world
  | advisory {bound : Nat} {world after : World} {packet : Packet}
      (received : platform.receivePacket connection deadline world = (.ok packet, after))
      (advisory : isAdvisory packet = true)
      (rest : WillAnswer platform connection deadline requestId query bound after) :
      WillAnswer platform connection deadline requestId query (bound + 1) world
  | ping {bound : Nat} {world between after : World} {nonce : Nonce}
      (received : platform.receivePacket connection deadline world = (.ok (.ping nonce), between))
      (sent : platform.sendPacket connection (.pong nonce) deadline between = (.ok (), after))
      (rest : WillAnswer platform connection deadline requestId query bound after) :
      WillAnswer platform connection deadline requestId query (bound + 1) world

/-- From good worlds on, time and randomness do not run out, and every willing peer accepts
connections, advertises the relay service and answers the query. -/
structure Cooperates (platform : Platform World) (timeout : Nat) (willing : SocketAddr → Prop)
    (query : Octets) (good : World → Prop) : Prop where
  instant : ∀ world, good world → good (platform.instant world).2
  timely : ∀ world, good world →
    (platform.instant (platform.instant world).2).1 < (platform.instant world).1 + timeout
  draw : ∀ io : Io World, good io.world →
    ∃ requestId after, allocateRequestId platform ∅ io = (.ok requestId, after) ∧ good after.world
  connect : ∀ connection time world, willing connection.address → good world →
    ∃ after, platform.connect connection time world = (.ok (), after) ∧ good after
  handshake : ∀ connection version deadline world, willing connection.address → good world →
    ∃ remote after, platform.handshake connection version deadline world = (.ok remote, after) ∧
      good after ∧ remote.services &&& experimentalDnsRelayService ≠ 0
  close : ∀ connection world, good world → good (platform.close connection world)
  answer : ∀ connection requestId deadline world, willing connection.address → requestId ≠ 0 →
    good world →
    ∃ after, platform.sendPacket connection (.getDnsRelay ⟨requestId, query⟩) deadline world =
        (.ok (), after) ∧
      WillAnswer platform connection deadline requestId query maxAdvisoryPacketsPerExchange after

section

variable {pending : Finset UInt64} {connection : PeerConnection} {requestId : UInt64}
  {query : Octets} {deadline : Nat} {io : Io World}

theorem received_eq_ok {packet : Packet} {after : World}
    (received : platform.receivePacket connection deadline io.world = (.ok packet, after)) :
    Effect.mapError receiveFailure (Io.receivePacket platform connection deadline) io =
      (.ok packet, { (io.record (.received connection packet)) with world := after }) := by
  apply Effect.mapError_of_ok
  unfold Io.receivePacket
  rw [received]

theorem sent_eq_ok {packet : Packet} {after : World}
    (sent : platform.sendPacket connection packet deadline io.world = (.ok (), after)) :
    Effect.mapError (fun error => AttemptFailure.transport (.transport error))
        (Io.sendPacket platform connection packet deadline) io =
      (.ok (), { io with world := after }) := by
  apply Effect.mapError_of_ok
  unfold Io.sendPacket
  rw [sent]

theorem checkAnswer_of_valid {response : Octets} (requested : requestId ∈ pending)
    (valid : validateDnsRelayResponse query response = .ok ()) :
    checkAnswer pending requestId query ⟨requestId, .ok, response⟩ = .ok response := by
  simp [checkAnswer, requested, valid]

theorem awaitAnswer_of_willAnswer {bound : Nat} {world : World}
    (will : WillAnswer platform connection deadline requestId query bound world)
    (requested : requestId ∈ pending) (world_eq : io.world = world) :
    ∃ response, (awaitAnswer platform pending connection requestId query deadline bound io).1 =
      .ok response := by
  induction will generalizing io with
  | @answer bound world after response received valid =>
    subst world_eq
    rw [awaitAnswer, Effect.bind_ok (received_eq_ok received)]
    exact ⟨response, checkAnswer_of_valid requested valid⟩
  | @advisory bound world after packet received advisory rest ih =>
    subst world_eq
    rw [awaitAnswer, Effect.bind_ok (received_eq_ok received)]
    cases packet with
    | dnsRelay answer => cases advisory
    | ping nonce => cases advisory
    | version packet => cases advisory
    | _ => exact ih rfl
  | @ping bound world between after nonce received sent rest ih =>
    subst world_eq
    rw [awaitAnswer, Effect.bind_ok (received_eq_ok received)]
    dsimp only
    rw [Effect.bind_ok (sent_eq_ok sent)]
    exact ih rfl

theorem getDnsRelayPacket_new_eq_ok (requestId_ne : requestId ≠ 0) (nonempty : query ≠ [])
    (fits : query.length ≤ maxDnsRelayQuerySize) :
    GetDnsRelayPacket.new requestId query = .ok ⟨requestId, query⟩ := by
  have notEmpty : query.isEmpty = false := by simpa using nonempty
  rw [GetDnsRelayPacket.new, GetDnsRelayPacket.validate, if_neg requestId_ne, notEmpty,
    if_neg Bool.false_ne_true, if_neg (Nat.not_lt.mpr fits)]
  rfl

/-- An exchange with a willing peer returns an answer. -/
theorem exchange_of_cooperates {willing : SocketAddr → Prop} {good : World → Prop}
    (cooperates : Cooperates platform timeout willing query good) (nonempty : query ≠ [])
    (fits : query.length ≤ maxDnsRelayQuerySize) (isWilling : willing connection.address)
    (requestId_ne : requestId ≠ 0) (requested : requestId ∈ pending) (isGood : good io.world) :
    ∃ response, (exchange platform pending timeout connection requestId query io).1 =
      .ok response := by
  rcases cooperates.answer connection requestId ((platform.instant io.world).1 + timeout) _ isWilling
    requestId_ne (cooperates.instant _ isGood) with ⟨after, sent, will⟩
  have time_eq : Io.deadlineAfter platform timeout io =
      ((.ok ((platform.instant io.world).1 + timeout) : Except AttemptFailure Nat),
        { io with world := (platform.instant io.world).2 }) := rfl
  unfold exchange
  rw [Effect.bind_ok time_eq, getDnsRelayPacket_new_eq_ok requestId_ne nonempty fits]
  simp only [Except.mapError, Effect.ofExcept_ok_bind]
  rw [Effect.bind_ok (sent_eq_ok sent)]
  exact awaitAnswer_of_willAnswer will requested rfl

theorem allocateRequestIdFrom_ne {draws : Nat} {after : Io World}
    (drawn : allocateRequestIdFrom platform pending draws io = (.ok requestId, after)) :
    requestId ≠ 0 := by
  induction draws generalizing io with
  | zero => cases drawn
  | succ draws ih =>
    rw [allocateRequestIdFrom] at drawn
    dsimp only at drawn
    split at drawn
    · cases drawn
    · split at drawn
      next chosen =>
        obtain rfl := Except.ok.inj (congrArg Prod.fst drawn)
        exact chosen.1
      next => exact ih drawn

end

variable {address : SocketAddr}

namespace DnsRelayClient

/-! ## Replenishing -/

section

variable {now : Nat} {client : DnsRelayClient World} {willing : SocketAddr → Prop}
  {query : Octets} {good : World → Prop}

theorem dropBannedFrom_good (closes : ∀ connection world, good world →
      good (platform.close connection world)) (isGood : good client.io.world)
    (remaining index : Nat) :
    good (client.dropBannedFrom platform now remaining index).io.world := by
  induction remaining generalizing client index with
  | zero => exact isGood
  | succ remaining ih =>
    rw [dropBannedFrom]
    split
    · apply ih
      rcases @removeConnection_cases _ platform client index with same | ⟨live, -, removed⟩
      · rw [same]
        exact isGood
      · rw [removed]
        exact closes _ _ isGood
    · exact ih isGood _

/-- The client sees the same peers available. -/
def SameAvailable (now : Nat) (client next : DnsRelayClient World) : Prop :=
  ∀ address, next.IsAvailable now address ↔ client.IsAvailable now address

theorem contactTime_of_cooperates
    (cooperates : Cooperates platform timeout willing query good) {io : Io World}
    (isGood : good io.world) :
    ∃ time after, Io.contactTime platform timeout io = (.ok time, after) ∧ good after.world := by
  have deadline_eq : Io.deadlineAfter platform timeout io =
      ((.ok ((platform.instant io.world).1 + timeout) : Except P2pError Nat),
        { io with world := (platform.instant io.world).2 }) := rfl
  have remaining_eq : Io.remainingUntil platform ((platform.instant io.world).1 + timeout)
      { io with world := (platform.instant io.world).2 } =
        (.ok ((platform.instant io.world).1 + timeout -
            (platform.instant (platform.instant io.world).2).1),
          { io with world := (platform.instant (platform.instant io.world).2).2 }) := by
    rw [Io.remainingUntil]
    dsimp only
    rw [if_pos (cooperates.timely _ isGood)]
  refine ⟨((platform.instant io.world).1 + timeout, (platform.instant io.world).1 + timeout -
      (platform.instant (platform.instant io.world).2).1),
    { io with world := (platform.instant (platform.instant io.world).2).2 }, ?_,
    cooperates.instant _ (cooperates.instant _ isGood)⟩
  rw [Io.contactTime, Effect.bind_ok deadline_eq, Effect.bind_ok remaining_eq]
  rfl

/-- A contact with a willing peer adds a connection to it. -/
theorem contact_of_cooperates
    (cooperates : Cooperates platform client.timeout willing query good) {address : SocketAddr}
    (isWilling : willing address) (isGood : good client.io.world) :
    ∃ next live, contact platform now address client = (true, next) ∧
      next.connections = client.connections ++ [live] ∧ live.address = address ∧
      next.peers = client.peers.recordConnection address now ∧
      next.cooldowns = client.cooldowns ∧ good next.io.world := by
  rcases contactTime_of_cooperates cooperates isGood with ⟨⟨deadline, time⟩, first, time_eq, good₁⟩
  rcases cooperates.connect ⟨address, first.opened⟩ time first.world isWilling good₁ with
    ⟨second, connect_eq, good₂⟩
  have connected : Io.connect platform address time first =
      (.ok ⟨address, first.opened⟩, { (first.record (.connect ⟨address, first.opened⟩)) with
        world := second, opened := first.opened + 1 }) := by
    simp only [Io.connect, connect_eq, Except.map]
  rcases cooperates.handshake ⟨address, first.opened⟩ relayRequesterVersion deadline second isWilling
    good₂ with ⟨remote, third, handshake_eq, good₃, capable⟩
  have shaken (io : Io World) (world_eq : io.world = second) :
      Io.handshake platform ⟨address, first.opened⟩ relayRequesterVersion deadline io =
        (.ok remote, { (io.record (.handshake ⟨address, first.opened⟩ (some remote))) with
          world := third }) := by
    unfold Io.handshake
    rw [world_eq, handshake_eq]
    rfl
  unfold contact
  rw [time_eq]
  dsimp only
  rw [connected]
  dsimp only
  rw [shaken _ rfl]
  dsimp only
  unfold acceptHandshake
  dsimp only
  rw [if_neg capable]
  exact ⟨_, _, rfl, rfl, rfl, rfl, rfl, good₃⟩

variable {next : DnsRelayClient World}

theorem isAvailable_congr
    (banned : ((next.peers.get address).map fun peer => peer.isBanned now) =
      (client.peers.get address).map fun peer => peer.isBanned now)
    (cooldowns : next.cooldowns = client.cooldowns) :
    next.IsAvailable now address ↔ client.IsAvailable now address := by
  have known_iff (peer : Option PeerState) :
      (∃ state, peer = some state ∧ state.isBanned now = false) ↔
        peer.map (fun state => state.isBanned now) = some false := by
    cases peer <;> simp
  rw [IsAvailable, IsAvailable, isCooling, isCooling, cooldowns, known_iff, known_iff, banned]

/-- Recording a connection to a known peer changes no ban. -/
theorem banned_recordConnection {peers : PeerManager} {state : PeerState}
    (known : peers.get address = some state) (other : SocketAddr) :
    (((peers.recordConnection address now).get other).map fun peer => peer.isBanned now) =
      (peers.get other).map fun peer => peer.isBanned now := by
  rw [PeerManager.recordConnection, PeerManager.get_upsertWith]
  split
  next same =>
    subst same
    rw [PeerManager.known, known]
    rfl
  next => rfl

/-- With willing peers the loop keeps all connections and what is available, and if there is
room and an available candidate then some connection is to an available peer. -/
theorem contactAll_of_cooperates
    (cooperates : Cooperates platform client.timeout (client.IsAvailable now) query good)
    {connected rest : List SocketAddr} {budget left : Nat} {start : DnsRelayClient World}
    (sameStart : SameAvailable now client start) (timeout_eq : start.timeout = client.timeout)
    (isGood : good start.io.world)
    (candidates : ∀ address ∈ rest, start.isCooling now address = false →
      client.IsAvailable now address)
    (run : contactAll platform now connected ∅ rest budget start = (left, next)) :
    SameAvailable now client next ∧ good next.io.world ∧ start.connections ⊆ next.connections ∧
      (start.connections.length < start.maxConnections → 0 < budget →
        (∃ address ∈ rest, address ∉ connected ∧ client.IsAvailable now address) →
        ∃ live ∈ next.connections, client.IsAvailable now live.address) := by
  induction rest generalizing budget start with
  | nil =>
    cases run
    exact ⟨sameStart, isGood, List.Subset.refl _, fun _ _ found => by simp at found⟩
  | cons address rest ih =>
    rw [List.forall_mem_cons] at candidates
    rw [contactAll] at run
    split at run
    next full =>
      cases run
      refine ⟨sameStart, isGood, List.Subset.refl _, fun room budget_pos => ?_⟩
      omega
    next =>
      split at run
      next skipped =>
        rcases ih sameStart timeout_eq isGood candidates.2 run with ⟨same, goodNext, kept, found⟩
        refine ⟨same, goodNext, kept, fun room budget_pos chosen => found room budget_pos ?_⟩
        rw [List.exists_mem_cons_iff] at chosen
        rcases chosen with ⟨fresh, available⟩ | later
        · have cooling : start.isCooling now address = true := by
            simpa [fresh] using skipped
          rw [((sameStart address).mpr available).2] at cooling
          cases cooling
        · exact later
      next chosen =>
        rw [not_or, not_or, Bool.not_eq_true] at chosen
        have available := candidates.1 chosen.2.2
        rw [← timeout_eq] at cooperates
        rcases @contact_of_cooperates _ platform now _ _ _ _ cooperates _ available isGood with
          ⟨after, live, contact_eq, connections_eq, rfl, peers_eq, cooldowns_eq, goodAfter⟩
        rcases contact_cases contact_eq with ⟨_, contacted⟩
        rw [timeout_eq] at cooperates
        rcases ((sameStart live.address).mpr available).1 with ⟨state, known, -⟩
        have sameAfter : SameAvailable now client after := by
          intro other
          refine (isAvailable_congr ?_ cooldowns_eq).trans (sameStart other)
          rw [peers_eq]
          exact banned_recordConnection known other
        have coolingAfter (other : SocketAddr) :
            after.isCooling now other = start.isCooling now other := by
          rw [isCooling, isCooling, cooldowns_eq]
        rw [contact_eq] at run
        rcases ih sameAfter (contacted.settings.timeout.trans timeout_eq) goodAfter
          (fun other mem free => candidates.2 other mem ((coolingAfter other).symm.trans free)) run
          with ⟨same, goodNext, kept, -⟩
        rw [connections_eq, List.append_subset] at kept
        exact ⟨same, goodNext, kept.1, fun _ _ _ => ⟨live, kept.2 List.mem_cons_self, available⟩⟩

theorem sameAvailable_dropBanned (now : Nat) (client : DnsRelayClient World) :
    SameAvailable now client (client.dropBanned platform now) := by
  rcases @dropBanned_spec _ platform now client with ⟨-, -, peers_eq, cooldowns_eq, -, -⟩
  intro address
  apply isAvailable_congr _ cooldowns_eq
  rw [peers_eq]

/-- After replenishing there is a connection to an available peer if there was one, or if
the connections to peers that are not banned left room for one. -/
theorem replenishConnections_of_cooperates
    (cooperates : Cooperates platform client.timeout (client.IsAvailable now) query good)
    (isGood : good client.io.world) {budget left : Nat} (budget_pos : 0 < budget)
    (available : ∃ address, client.IsAvailable now address)
    (room : (∃ live ∈ client.connections, client.IsAvailable now live.address) ∨
      (client.connections.filter fun live => !client.isBanned now live.address).length <
        client.maxConnections)
    (run : client.replenishConnections platform now ∅ budget = (left, next)) :
    SameAvailable now client next ∧ good next.io.world ∧
      ∃ live ∈ next.connections, client.IsAvailable now live.address := by
  rcases @dropBanned_spec _ platform now client with
    ⟨connections, settings, peers_eq, cooldowns_eq, -, -⟩
  have goodDropped : good (client.dropBanned platform now).io.world :=
    dropBannedFrom_good cooperates.close isGood _ _
  have sameDropped := @sameAvailable_dropBanned _ platform now client
  have notBanned {address : SocketAddr} (available : client.IsAvailable now address) :
      client.isBanned now address = false := by
    rcases available.1 with ⟨state, known, free⟩
    rw [isBanned, known, Option.any_some, free]
  -- Connections to available peers survive the removal of banned ones.
  have survives {live : LiveRelayConnection} (mem : live ∈ client.connections)
      (available : client.IsAvailable now live.address) :
      live ∈ (client.dropBanned platform now).connections := by
    rw [connections.mem_iff, List.mem_filter, notBanned available]
    exact ⟨mem, rfl⟩
  unfold replenishConnections at run
  dsimp only at run
  split at run
  next full =>
    cases run
    refine ⟨sameDropped, goodDropped, ?_⟩
    rcases room with ⟨live, mem, isAvailable⟩ | room
    · exact ⟨live, survives mem isAvailable, isAvailable⟩
    · rw [settings.maxConnections, connections.length_eq] at full
      omega
  next notFull =>
    have candidates (address : SocketAddr)
        (mem : address ∈ (client.dropBanned platform now).candidates now)
        (free : (client.dropBanned platform now).isCooling now address = false) :
        client.IsAvailable now address :=
      (sameDropped address).mp ⟨mem_candidates_iff.mp mem, free⟩
    rcases contactAll_of_cooperates cooperates sameDropped settings.timeout goodDropped candidates
      run with ⟨same, goodNext, kept, found⟩
    refine ⟨same, goodNext, ?_⟩
    rcases available with ⟨address, isAvailable⟩
    by_cases connected : address ∈ (client.dropBanned platform now).addresses
    · rcases List.mem_map.mp connected with ⟨live, mem, rfl⟩
      exact ⟨live, kept mem, isAvailable⟩
    · refine found (Nat.not_le.mp notFull) budget_pos ⟨address, ?_, connected, isAvailable⟩
      exact mem_candidates_iff.mpr ((sameDropped address).mpr isAvailable).1

end

/-! ## Selection -/

variable {now : Nat} {client : DnsRelayClient World}

/-- A connection to an available peer that advertised the service is selected. -/
theorem exists_selectConnection {live : LiveRelayConnection} (mem : live ∈ client.connections)
    (available : client.IsAvailable now live.address)
    (capable : live.services &&& experimentalDnsRelayService ≠ 0) :
    ∃ index, client.selectConnection now ∅ = some index := by
  rcases available with ⟨⟨peer, known, free⟩, notCooling⟩
  have eligible : peer ∈ eligiblePeers client.peers client.capabilities now := by
    refine mem_eligiblePeers_iff.mpr ⟨_, List.mem_map_of_mem mem, ?_, known, free⟩
    simp [DnsRelayPeerCapability.isEligible, capable, isCooling_eq_false_iff.mp notCooling]
  have nonempty : ∃ address, address ∈ selectDnsRelay client.peers client.capabilities
      client.connections.length now client.proofPeer := by
    unfold selectDnsRelay
    dsimp only
    generalize sorted_eq : (eligiblePeers client.peers client.capabilities now).insertionSort
      (fun left right => relayKey client.proofPeer left ≤ relayKey client.proofPeer right) = sorted
    have perm : sorted.Perm (eligiblePeers client.peers client.capabilities now) :=
      sorted_eq ▸ List.perm_insertionSort _ _
    have few : (NamespaceResolution.dedup (sorted.map PeerState.address)).length ≤
        client.connections.length := by
      refine (NamespaceResolution.length_dedup_le _).trans ?_
      rw [List.length_map, perm.length_eq]
      refine (List.length_filterMap_le _ _).trans ((List.length_filter_le _ _).trans ?_)
      rw [capabilities, List.length_map]
    have some_left : NamespaceResolution.dedup (sorted.map PeerState.address) ≠ [] := by
      intro none_left
      have none_sorted := (List.destutter_eq_nil _).mp none_left
      rw [List.map_eq_nil_iff] at none_sorted
      have mem := perm.mem_iff.mpr eligible
      rw [none_sorted] at mem
      cases mem
    rcases List.exists_mem_of_ne_nil _ some_left with ⟨address, addressMem⟩
    exact ⟨address, (mem_selectDiverse_iff few).mpr addressMem⟩
  rcases nonempty with ⟨address, selected⟩
  have found_some : ((selectDnsRelay client.peers client.capabilities client.connections.length now
      client.proofPeer).find? fun address => address ∉ (∅ : Finset SocketAddr)).isSome = true := by
    rw [List.find?_isSome]
    exact ⟨address, selected, by simp⟩
  rcases Option.isSome_iff_exists.mp found_some with ⟨chosen, chosen_eq⟩
  rcases mem_of_mem_selectDnsRelay (List.mem_of_find?_eq_some chosen_eq) with
    ⟨other, otherEligible, rfl⟩
  rcases mem_eligiblePeers_iff.mp otherEligible with ⟨capability, capabilityMem, -, otherKnown, -⟩
  rcases List.mem_map.mp capabilityMem with ⟨connected, connectedMem, rfl⟩
  have position : (client.connections.findFinIdx? fun live => live.address == other.address).isSome =
      true := by
    rw [List.isSome_findFinIdx?, List.any_eq_true]
    exact ⟨connected, connectedMem, by simpa using (PeerManager.address_of_get otherKnown).symm⟩
  rcases Option.isSome_iff_exists.mp position with ⟨index, index_eq⟩
  exact ⟨index, Option.bind_eq_some_iff.mpr ⟨other.address, chosen_eq, index_eq⟩⟩

/-! ## The first attempt -/

/-- Without room no peer is contacted, so that only the connections there are can be used. -/
theorem selectConnection_of_full {budget left : Nat} {filled : DnsRelayClient World}
    (full : client.maxConnections ≤
      (client.connections.filter fun live => !client.isBanned now live.address).length)
    (none_available : ∀ live ∈ client.connections, ¬ client.IsAvailable now live.address)
    (run : client.replenishConnections platform now ∅ budget = (left, filled)) :
    filled.selectConnection now ∅ = none := by
  rcases @dropBanned_spec _ platform now client with ⟨connections, settings, -, -, -, -⟩
  rw [replenishConnections, if_pos (by rwa [settings.maxConnections, connections.length_eq])] at run
  cases run
  rw [Option.eq_none_iff_forall_ne_some]
  intro index selected
  have available := (selectConnection_eq_some selected).2
  have mem := connections.mem_iff.mp (List.get_mem _ index)
  exact none_available _ (List.mem_of_mem_filter mem)
    ((sameAvailable_dropBanned now client _).mp available)

/-- The exchange over a connection to a willing peer succeeds. -/
theorem attempt_of_cooperates {client : DnsRelayClient World} {willing : SocketAddr → Prop}
    {query : Octets} {good : World → Prop} {live : LiveRelayConnection} {requestId : UInt64}
    (cooperates : Cooperates platform client.timeout willing query good) (nonempty : query ≠ [])
    (fits : query.length ≤ maxDnsRelayQuerySize) (isWilling : willing live.connection.address)
    (requestId_ne : requestId ≠ 0) (isGood : good client.io.world) :
    ∃ response after, attempt platform live requestId query client = (.ok response, after) := by
  have isGoodNoted : good (client.io.record (.exchange ⟨live.address, requestId,
    client.peers.get live.address, client.cooldowns.lookup live.address⟩)).world := isGood
  rcases exchange_of_cooperates cooperates nonempty fits isWilling requestId_ne
    (Finset.mem_insert_self requestId client.pending) isGoodNoted with ⟨response, exchange_eq⟩
  exact ⟨response, (attempt platform live requestId query client).2, Prod.ext exchange_eq rfl⟩

/-- With willing peers a resolution succeeds exactly when there is a live connection to an
available peer, or room for one beside the connections to peers that are not banned. -/
theorem resolveAt_isOk_iff_of_idle (idle : Idle client) {query prepared : Octets}
    {good : World → Prop} (prepares : prepareDnsRelayQuery query = .ok prepared)
    (available : ∃ address, client.IsAvailable now address)
    (cooperates : Cooperates platform client.timeout (client.IsAvailable now) prepared good)
    (isGood : good client.io.world) :
    (∃ answer, (client.resolveAt platform query now).1 = .ok answer) ↔
      (∃ live ∈ client.connections, client.IsAvailable now live.address) ∨
        (client.connections.filter fun live => !client.isBanned now live.address).length <
          client.maxConnections := by
  rcases replenish_eq : client.replenishConnections platform now ∅
    maxDnsRelayHandshakeAttemptsPerResolution with ⟨left, filled⟩
  unfold resolveAt
  rw [prepares]
  dsimp only
  rw [resolveFrom, replenish_eq]
  dsimp only
  constructor
  · rintro ⟨answer, returned⟩
    by_contra wedged
    rw [not_or, Nat.not_lt] at wedged
    have none_available : ∀ live ∈ client.connections, ¬ client.IsAvailable now live.address :=
      fun live mem isAvailable => wedged.1 ⟨live, mem, isAvailable⟩
    rw [selectConnection_of_full wedged.2 none_available replenish_eq] at returned
    cases returned
  · intro room
    rcases replenishConnections_of_cooperates cooperates isGood (Nat.succ_pos 3) available room
      replenish_eq with ⟨same, goodFilled, live, liveMem, isAvailable⟩
    have opens := (replenishConnections_opens idle.sound replenish_eq).2
    have advertised := opens.sound.advertised live liveMem
    rcases exists_selectConnection liveMem ((same _).mpr isAvailable) advertised.service with
      ⟨index, selected⟩
    have idleFilled : filled.pending = ∅ := opens.settings.pending.trans idle.pending
    rcases cooperates.draw filled.io goodFilled with ⟨requestId, io, drawn, goodDrawn⟩
    rw [selected]
    dsimp only
    rw [idleFilled, drawn]
    dsimp only
    have isWilling : client.IsAvailable now (filled.connections.get index).connection.address := by
      rw [(opens.sound.advertised _ (List.get_mem _ index)).address_eq]
      exact (same _).mp (selectConnection_eq_some selected).2
    rw [← opens.settings.timeout] at cooperates
    have lengths := length_of_prepareDnsRelayQuery prepares
    have nonempty : prepared ≠ [] := by
      rintro rfl
      exact absurd lengths.1 (by decide)
    rcases @attempt_of_cooperates _ platform { filled with io } _ _ _ (filled.connections.get index)
      requestId cooperates nonempty lengths.2 isWilling (allocateRequestIdFrom_ne drawn) goodDrawn with
      ⟨response, after, attempt_eq⟩
    simp only [idleFilled] at attempt_eq
    rw [attempt_eq]
    exact ⟨_, rfl⟩

/-- In every state that calls lead to. -/
theorem resolveAt_isOk_iff (platform : Platform World) (peers : PeerManager) (world : World)
    (calls : List Call) {query prepared : Octets} {now : Nat} {good : World → Prop}
    (prepares : prepareDnsRelayQuery query = .ok prepared)
    (available : ∃ address, (run platform peers world calls).IsAvailable now address)
    (cooperates : Cooperates platform (run platform peers world calls).timeout
      ((run platform peers world calls).IsAvailable now) prepared good)
    (isGood : good (run platform peers world calls).io.world) :
    (∃ answer, ((run platform peers world calls).resolveAt platform query now).1 = .ok answer) ↔
      (∃ live ∈ (run platform peers world calls).connections,
          (run platform peers world calls).IsAvailable now live.address) ∨
        ((run platform peers world calls).connections.filter fun live =>
            !(run platform peers world calls).isBanned now live.address).length <
          (run platform peers world calls).maxConnections :=
  resolveAt_isOk_iff_of_idle (run_idle peers world calls) prepares available cooperates isGood

end DnsRelayClient

/-! ## Two busy peers -/

namespace ExampleRelay

/-- A query for the address of `www.relaytest`. -/
def query : Octets :=
  [18, 52, 1, 16, 0, 1, 0, 0, 0, 0, 0, 1, 3, 119, 119, 119, 9, 114, 101, 108, 97, 121, 116,
    101, 115, 116, 0, 0, 1, 0, 1, 0, 0, 41, 4, 208, 0, 0, 128, 0, 0, 0]

def response : Octets :=
  [18, 52, 129, 176, 0, 1, 0, 1, 0, 0, 0, 1, 3, 119, 119, 119, 9, 114, 101, 108, 97, 121, 116,
    101, 115, 116, 0, 0, 1, 0, 1, 192, 12, 0, 1, 0, 1, 0, 0, 0, 60, 0, 4, 192, 0, 2, 1, 0, 0,
    41, 4, 208, 0, 0, 128, 0, 0, 0]

def peer (number : UInt8) : SocketAddr :=
  .v4 ⟨10, number, 0, 1⟩ 12038

/-- The world keeps the identifier of the last request.  The first two peers are busy. -/
def busyPlatform : Platform UInt64 where
  instant world := (0, world)
  random world := (some 7, world)
  connect _ _ world := (.ok (), world)
  handshake _ _ _ world :=
    (.ok { relayRequesterVersion with services := experimentalDnsRelayService }, world)
  sendPacket _ packet _ world :=
    (.ok (), match packet with
      | .getDnsRelay request => request.requestId
      | _ => world)
  receivePacket connection _ world :=
    (.ok (.dnsRelay
      (if connection.address = peer 1 ∨ connection.address = peer 2 then ⟨world, .busy, []⟩
      else ⟨world, .ok, response⟩)), world)
  close _ world := world

theorem no_entries : ∀ entry ∈ (∅ : Data.Store SocketAddr PeerState).entries,
    entry.2.address = entry.1 := by
  intro entry mem
  cases mem

def peers : PeerManager :=
  ((PeerManager.upsert ⟨∅, no_entries⟩ (peer 1)).upsert (peer 2)).upsert (peer 3)

theorem prepares_query : prepareDnsRelayQuery query = .ok query := by
  decide +kernel

theorem response_valid : validateDnsRelayResponse query response = .ok () := by
  decide +kernel

/-- Peers other than the busy ones cooperate. -/
theorem busyPlatform_cooperates {willing : SocketAddr → Prop}
    (timeout_pos : 0 < timeout) (first : ¬ willing (peer 1)) (second : ¬ willing (peer 2)) :
    Cooperates busyPlatform timeout willing query fun _ => True where
  instant _ _ := True.intro
  timely _ _ := by simpa [busyPlatform] using timeout_pos
  draw io _ := ⟨7, io, by simp [allocateRequestId, allocateRequestIdFrom, busyPlatform], True.intro⟩
  connect _ _ world _ _ := ⟨world, rfl, True.intro⟩
  handshake _ _ _ world _ _ := ⟨_, world, rfl, True.intro, by decide⟩
  close _ _ _ := True.intro
  answer connection requestId deadline world isWilling _ _ := by
    have notBusy : ¬ (connection.address = peer 1 ∨ connection.address = peer 2) := by
      rintro (same | same)
      · exact first (same ▸ isWilling)
      · exact second (same ▸ isWilling)
    refine ⟨requestId, rfl, ?_⟩
    apply WillAnswer.answer _ response_valid
    · exact requestId
    · simp only [busyPlatform, if_neg notBusy]

theorem not_available_of_cooling {client : DnsRelayClient UInt64} {now : Nat}
    (cooling : client.isCooling now address = true) : ¬ client.IsAvailable now address := by
  rintro ⟨-, notCooling⟩
  rw [cooling] at notCooling
  cases notCooling

/-- The client after both busy peers were asked. -/
def afterBusy : DnsRelayClient UInt64 :=
  DnsRelayClient.run busyPlatform peers 0 [.resolveAt query 100]

theorem resolveAt_isOk_iff_shutdown :
    ∃ answer, ((DnsRelayClient.run busyPlatform peers 0 [.resolveAt query 100, .shutdown]).resolveAt
      busyPlatform query 100).1 = .ok answer := by
  have third : (DnsRelayClient.run busyPlatform peers 0
      [.resolveAt query 100, .shutdown]).IsAvailable 100 (peer 3) :=
    ⟨⟨.new (peer 3), by decide +kernel⟩, by decide +kernel⟩
  refine (DnsRelayClient.resolveAt_isOk_iff busyPlatform peers 0 [.resolveAt query 100, .shutdown]
    prepares_query ⟨peer 3, third⟩ (busyPlatform_cooperates (by decide +kernel)
      (not_available_of_cooling (by decide +kernel))
      (not_available_of_cooling (by decide +kernel))) True.intro).mpr (.inr ?_)
  decide +kernel

/-- The third peer is available and would answer, but the connections to the two busy peers
take all places. -/
theorem fresh_peer_not_asked :
    afterBusy.IsAvailable 100 (peer 3) ∧
      Cooperates busyPlatform afterBusy.timeout (afterBusy.IsAvailable 100) query (fun _ => True) ∧
      ∀ answer, (afterBusy.resolveAt busyPlatform query 100).1 ≠ .ok answer := by
  refine ⟨⟨⟨.new (peer 3), by decide +kernel⟩, by decide +kernel⟩,
    busyPlatform_cooperates (by decide +kernel) (not_available_of_cooling (by decide +kernel))
      (not_available_of_cooling (by decide +kernel)), ?_⟩
  intro answer returned
  have refused : (afterBusy.resolveAt busyPlatform query 100).1.toOption = none := by
    decide +kernel
  rw [returned] at refused
  cases refused

end ExampleRelay

end HnsDaneEngine.RelayClient
