import HnsDaneEngine.P2pTransport.Requester
import Mathlib.Data.List.Nodup

/-!
# What the requesters admit

A call takes at most one id and sends at most one request, and an answer counts
only after it has passed every check under the id of that request.  Ids grow and
end at the largest 64-bit number, so over a whole run no request repeats an id,
whatever the adapters return and however the calls fail.
-/

namespace HnsDaneEngine.P2pTransport

open Control Transport Wire

namespace RequestIds

/-- The id is taken, and the next one is ready unless it was the last. -/
def Takes (ids : RequestIds) (id : UInt64) (later : RequestIds) : Prop :=
  ∃ current, ids.next = some current ∧ id = current.value ∧
    later = ⟨current.checkedSucc.bind NonZeroU64.new⟩

/-- Every id taken from now on is larger. -/
def Above (ids : RequestIds) (id : UInt64) : Prop :=
  ∀ next, ids.next = some next → id < next.value

variable {ids later : RequestIds} {id : UInt64}

theorem Takes.ne_zero (takes : ids.Takes id later) : id ≠ 0 := by
  rcases takes with ⟨current, -, rfl, -⟩
  exact current.ne_zero

theorem Takes.next_eq (takes : ids.Takes id later) {next : NonZeroU64}
    (next_eq : later.next = some next) : next.value.toNat = id.toNat + 1 := by
  rcases takes with ⟨current, -, rfl, rfl⟩
  dsimp only at next_eq
  rcases Option.bind_eq_some_iff.mp next_eq with ⟨successor, successor_eq, next_eq⟩
  unfold NonZeroU64.checkedSucc at successor_eq
  unfold NonZeroU64.new at next_eq
  split at successor_eq
  next fits =>
    obtain rfl := Option.some.inj successor_eq
    split at next_eq
    · obtain rfl := Option.some.inj next_eq
      dsimp only
      rw [UInt64.toNat_add, UInt64.toNat_one]
      omega
    · cases next_eq
  · cases successor_eq

/-- The ids that come later are above the one taken. -/
theorem Takes.above (takes : ids.Takes id later) : later.Above id := by
  intro next next_eq
  have := takes.next_eq next_eq
  rw [UInt64.lt_iff_toNat_lt]
  omega

/-- What is below the next id stays below, and is not taken. -/
theorem Above.takes {earlier : UInt64} (above : ids.Above earlier) (takes : ids.Takes id later) :
    earlier ≠ id ∧ later.Above earlier := by
  have below : earlier < id := by
    rcases takes with ⟨current, current_eq, rfl, -⟩
    exact above current current_eq
  refine ⟨?_, ?_⟩
  · rintro rfl
    exact absurd below (UInt64.lt_irrefl earlier)
  · intro next next_eq
    exact UInt64.lt_trans below (takes.above next next_eq)

end RequestIds

section

variable {T : ProtocolTypes} {protocols : Protocols T} {request : ExperimentalRequest}

theorem take_eq {before after : ExchangeState T} {result : Except (P2pTransportError T) UInt64}
    (run : RequestIds.take before = (result, after)) :
    ((∃ error, result = .error error) ∧ after = before) ∨
      ∃ id, result = .ok id ∧ before.requestIds.Takes id after.requestIds ∧
        after.sent = before.sent := by
  unfold RequestIds.take at run
  split at run
  · cases run
    exact .inl ⟨⟨_, rfl⟩, rfl⟩
  next current current_eq =>
    cases run
    exact .inr ⟨current.value, rfl, ⟨current, current_eq, rfl, rfl⟩, rfl⟩

/-- What a requester keeps over its calls, with the requests sent so far. -/
structure Trace where
  requestIds : RequestIds
  sent : List ExperimentalRequest

def ExchangeState.trace (state : ExchangeState T) : Trace :=
  ⟨state.requestIds, state.sent⟩

open Effect in
theorem admit_frames (protocols : Protocols T) (packet : PacketType) :
    Frames ExchangeState.trace (AuthenticatedPeer.admitPacketType protocols packet) :=
  fun _ => rfl

open Effect in
theorem admitOutbound_frames (protocols : Protocols T) (peer : AuthenticatedPeer T)
    (packet : PacketType) (length : Nat) :
    Frames ExchangeState.trace (peer.admitOutbound protocols packet length) := by
  unfold AuthenticatedPeer.admitOutbound
  apply Frames.bind (admit_frames protocols packet)
  intro _
  exact Frames.ite (Frames.throw _) (Frames.pure _)

theorem checkLifecycle_eq_ok {cancelled : Bool} {now deadline : Nat}
    (checked : checkLifecycle (T := T) cancelled now deadline = .ok ()) :
    cancelled = false ∧ now ≤ deadline := by
  simp only [checkLifecycle, guard_eq_ok_iff, not_lt] at checked
  rcases checked with ⟨notCancelled, inTime, -⟩
  exact ⟨by simpa using notCancelled, inTime⟩

theorem checkResponseBoundary_eq_ok {cancelled : Bool} {expectedPeer : PeerIdentity}
    {response : ExperimentalResponse} {startedAt deadline maximum : Nat}
    (checked : checkResponseBoundary (T := T) cancelled expectedPeer response startedAt deadline
      maximum = .ok ()) :
    cancelled = false ∧ startedAt ≤ response.completedAt ∧ response.completedAt ≤ deadline ∧
      response.authenticatedPeer = expectedPeer ∧ response.payload ≠ [] ∧
      response.payload.length ≤ maximum := by
  simp only [checkResponseBoundary, guard_eq_ok_iff, not_or, not_not, not_lt] at checked
  rcases checked with ⟨notCancelled, started, inTime, peer_eq, ⟨nonempty, bounded⟩, -⟩
  refine ⟨by simpa using notCancelled, started, inTime, peer_eq, ?_, bounded⟩
  intro empty
  rw [empty] at nonempty
  exact nonempty rfl

/-- The answer of a call that returns a value. -/
structure Answered {Result : Type} (call : CallContext T) (responsePacket : PacketType)
    (maximum : Nat) (ensureCurrent : Nat → Except (P2pTransportError T) Unit)
    (accept : ExperimentalResponse → Except (P2pTransportError T) Result)
    (request : ExperimentalRequest) (response : ExperimentalResponse) (value : Result) : Prop where
  returned : call.adapter request = .ok response
  notCancelled : call.cancelledAfter = false
  started : call.now ≤ response.completedAt
  inTime : response.completedAt ≤ call.deadline
  authenticatedPeer : response.authenticatedPeer = call.peer.identity
  nonempty : response.payload ≠ []
  bounded : response.payload.length ≤ maximum
  current : ensureCurrent response.completedAt = .ok ()
  packet : response.packet = responsePacket
  accepted : accept response = .ok value

section

variable {Result : Type} {call : CallContext T} {requestPacket responsePacket : PacketType}
  {maximum : Nat} {ensureCurrent : Nat → Except (P2pTransportError T) Unit}
  {accept : ExperimentalResponse → Except (P2pTransportError T) Result}

open Effect in
theorem receive_frames (response : ExperimentalResponse) : Frames ExchangeState.trace
      (receive protocols call responsePacket maximum ensureCurrent accept response) := by
  unfold receive
  apply Frames.bind (Frames.ofExcept _)
  intro _
  apply Frames.bind (Frames.ofExcept _)
  intro _
  apply Frames.ite (Frames.throw _)
  apply Frames.bind (admit_frames protocols responsePacket)
  intro _
  exact Frames.ofExcept _

theorem receive_eq_ok {response : ExperimentalResponse} {value : Result}
    {before after : ExchangeState T} (returned : call.adapter request = .ok response)
    (run : receive protocols call responsePacket maximum ensureCurrent accept response before =
      (.ok value, after)) :
    Answered call responsePacket maximum ensureCurrent accept request response value := by
  rcases Effect.of_bind_ok run with ⟨_, _, boundary, run⟩
  rcases Effect.of_bind_ok run with ⟨_, _, current, run⟩
  rcases checkResponseBoundary_eq_ok (Prod.mk.inj boundary).1 with
    ⟨notCancelled, started, inTime, peer_eq, nonempty, bounded⟩
  split at run
  · cases run
  next packet_eq =>
    rcases Effect.of_bind_ok run with ⟨_, _, -, run⟩
    exact {
      returned := returned
      notCancelled := notCancelled
      started := started
      inTime := inTime
      authenticatedPeer := peer_eq
      nonempty := nonempty
      bounded := bounded
      current := (Prod.mk.inj current).1
      packet := not_not.mp packet_eq
      accepted := (Prod.mk.inj run).1 }

/-- A delivery sends nothing and fails, or sends its request and returns only
what it accepts from the answer. -/
theorem deliver_cases {payload : Octets} {before after : ExchangeState T}
    {result : Except (P2pTransportError T) Result}
    (run : deliver protocols call requestPacket responsePacket maximum ensureCurrent accept payload
      before = (result, after)) :
    after.requestIds = before.requestIds ∧
      ((after.sent = before.sent ∧ ∃ error, result = .error error) ∨
        (after.sent = before.sent ++ [call.request requestPacket maximum payload] ∧
          ∀ value, result = .ok value → ∃ response, Answered call responsePacket maximum
            ensureCurrent accept (call.request requestPacket maximum payload) response value)) := by
  have outboundFrames := admitOutbound_frames protocols call.peer requestPacket payload.length
  rcases Effect.bind_cases run with ⟨error, outbound, rfl⟩ | ⟨_, admitted, outbound, run⟩
  · rcases Trace.mk.inj (outboundFrames.of_run outbound) with ⟨ids_eq, sent_eq⟩
    exact ⟨ids_eq, .inl ⟨sent_eq, error, rfl⟩⟩
  rcases Trace.mk.inj (outboundFrames.of_run outbound) with ⟨ids_eq, sent_eq⟩
  rw [← ids_eq, ← sent_eq]
  rcases Effect.bind_cases run with ⟨error, sending, rfl⟩ | ⟨response, delivered, sending, run⟩
  · rcases Prod.mk.inj sending with ⟨-, rfl⟩
    exact ⟨rfl, .inr ⟨rfl, fun _ failed => by cases failed⟩⟩
  rcases Prod.mk.inj sending with ⟨adapter_eq, rfl⟩
  rcases Trace.mk.inj ((receive_frames response).of_run run) with ⟨later_ids_eq, later_sent_eq⟩
  refine ⟨later_ids_eq, .inr ⟨later_sent_eq, ?_⟩⟩
  rintro value rfl
  have returned : call.adapter (call.request requestPacket maximum payload) = .ok response := by
    cases returned : call.adapter (call.request requestPacket maximum payload) with
    | error failure =>
      rw [returned] at adapter_eq
      cases adapter_eq
    | ok answer =>
      rw [returned] at adapter_eq
      obtain rfl := Except.ok.inj adapter_eq
      rfl
  exact ⟨response, receive_eq_ok returned run⟩

end

/-- What a call does to the ids and to the requests sent. -/
inductive Exchanged {Context Result : Type} (call : CallContext T)
    (requestPacket responsePacket : PacketType) (maximum : Nat)
    (prepare : Except (P2pTransportError T) Unit)
    (encode : UInt64 → Except (P2pTransportError T) (Octets × Context))
    (ensureCurrent : Nat → Except (P2pTransportError T) Unit)
    (accept : UInt64 → Context → ExperimentalResponse → Except (P2pTransportError T) Result)
    (before after : ExchangeState T) (result : Except (P2pTransportError T) Result) : Prop
  | refused (ids_eq : after.requestIds = before.requestIds) (sent_eq : after.sent = before.sent)
      (failed : ∃ error, result = .error error)
  | unsent {id : UInt64} (takes : before.requestIds.Takes id after.requestIds)
      (sent_eq : after.sent = before.sent) (failed : ∃ error, result = .error error)
  | sent {id : UInt64} {payload : Octets} {context : Context}
      (notCancelled : call.cancelledBefore = false) (prepared : prepare = .ok ())
      (takes : before.requestIds.Takes id after.requestIds)
      (encoded : encode id = .ok (payload, context))
      (sent_eq : after.sent = before.sent ++ [call.request requestPacket maximum payload])
      (answered : ∀ value, result = .ok value → ∃ response,
        Answered call responsePacket maximum ensureCurrent (accept id context)
          (call.request requestPacket maximum payload) response value)

theorem exchangeOnce_cases {Context Result : Type} {call : CallContext T}
    {requestPacket responsePacket : PacketType} {maximum : Nat}
    {prepare : Except (P2pTransportError T) Unit}
    {encode : UInt64 → Except (P2pTransportError T) (Octets × Context)}
    {ensureCurrent : Nat → Except (P2pTransportError T) Unit}
    {accept : UInt64 → Context → ExperimentalResponse → Except (P2pTransportError T) Result}
    {before after : ExchangeState T} {result : Except (P2pTransportError T) Result}
    (run : exchangeOnce protocols call requestPacket responsePacket maximum prepare encode
      ensureCurrent accept before = (result, after)) :
    Exchanged call requestPacket responsePacket maximum prepare encode ensureCurrent accept before
      after result := by
  rcases Effect.bind_cases run with ⟨error, lifecycle, rfl⟩ | ⟨_, _, lifecycle, run⟩
  · rcases Prod.mk.inj lifecycle with ⟨-, rfl⟩
    exact .refused rfl rfl ⟨error, rfl⟩
  rcases Prod.mk.inj lifecycle with ⟨checked, rfl⟩
  rcases Effect.bind_cases run with ⟨error, prepared, rfl⟩ | ⟨_, _, prepared, run⟩
  · rcases Prod.mk.inj prepared with ⟨-, rfl⟩
    exact .refused rfl rfl ⟨error, rfl⟩
  rcases Prod.mk.inj prepared with ⟨prepare_eq, rfl⟩
  rcases Effect.bind_cases run with ⟨error, taken, rfl⟩ | ⟨id, taking, taken, run⟩
  · rcases take_eq taken with ⟨-, rfl⟩ | ⟨_, failed, -⟩
    · exact .refused rfl rfl ⟨error, rfl⟩
    · cases failed
  rcases take_eq taken with ⟨⟨_, failed⟩, -⟩ | ⟨_, id_eq, takes, sent_eq⟩
  · cases failed
  obtain rfl := Except.ok.inj id_eq
  rcases Effect.bind_cases run with ⟨error, encoded, rfl⟩ | ⟨⟨payload, context⟩, _, encoded, run⟩
  · rcases Prod.mk.inj encoded with ⟨-, rfl⟩
    exact .unsent takes sent_eq ⟨error, rfl⟩
  rcases Prod.mk.inj encoded with ⟨encode_eq, rfl⟩
  rcases deliver_cases run with ⟨ids_eq, ⟨same, failed⟩ | ⟨extended, answered⟩⟩
  · rw [← ids_eq] at takes
    exact .unsent takes (same.trans sent_eq) failed
  · rw [← ids_eq] at takes
    rw [sent_eq] at extended
    exact .sent (checkLifecycle_eq_ok checked).1 prepare_eq takes encode_eq extended answered

variable {id : UInt64}

namespace Protocols

/-- The id that a request carries. -/
def requestIdOf (protocols : Protocols T) (request : ExperimentalRequest) : Option UInt64 :=
  match request.packet with
  | .dnsRelayRequest => (protocols.decodeGetDnsRelay request.payload).toOption.map Prod.fst
  | .odoh => (protocols.decodeOdnsPacket request.payload).toOption.map OdnsPacket.requestId
  | _ => none

/-- The id that an answer carries. -/
def responseIdOf (protocols : Protocols T) (response : ExperimentalResponse) : Option UInt64 :=
  match response.packet with
  | .dnsRelayResponse => (protocols.decodeDnsRelay response.payload).toOption.map DnsRelay.requestId
  | .odoh => (protocols.decodeOdnsPacket response.payload).toOption.map OdnsPacket.requestId
  | _ => none

/-- The packet codecs read back what they write; an ODoH packet has twelve
octets before its body, and padding adds its own length to a query. -/
structure Codecs (protocols : Protocols T) : Prop where
  relay : ∀ {id queryWire payload}, protocols.encodeGetDnsRelay id queryWire = .ok payload →
    protocols.decodeGetDnsRelay payload = .ok (id, queryWire)
  new : ∀ {opcode id body packet}, protocols.newOdnsPacket opcode id body = .ok packet →
    packet = ⟨opcode, id, body⟩
  odoh : ∀ {packet payload}, protocols.encodeOdnsPacket packet = .ok payload →
    protocols.decodeOdnsPacket payload = .ok packet
  header : ∀ {packet payload}, protocols.encodeOdnsPacket packet = .ok payload →
    payload.length = 12 + packet.body.length
  padding : ∀ {query : ClientQuery T} {padding short long : Octets},
    protocols.encodeClientQuery { query with padding := [] } = .ok short →
    protocols.encodeClientQuery { query with padding := padding } = .ok long →
    long.length = short.length + padding.length

variable (protocols) in
/-- Every request carries an id, no two the same and none zero. -/
def UniqueIds (sent : List ExperimentalRequest) : Prop :=
  ∃ ids : List UInt64, sent.map protocols.requestIdOf = ids.map some ∧ ids.Nodup ∧ 0 ∉ ids

variable (protocols) in
/-- The ids of the requests are used up. -/
def Spent (trace : Trace) : Prop :=
  ∃ ids : List UInt64, trace.sent.map protocols.requestIdOf = ids.map some ∧ ids.Nodup ∧ 0 ∉ ids ∧
    ∀ id ∈ ids, trace.requestIds.Above id

variable {trace : Trace}

theorem Spent.uniqueIds (spent : protocols.Spent trace) : protocols.UniqueIds trace.sent := by
  rcases spent with ⟨ids, ids_eq, nodup, ne_zero, -⟩
  exact ⟨ids, ids_eq, nodup, ne_zero⟩

theorem spent_start (requestIds : RequestIds) : protocols.Spent ⟨requestIds, []⟩ :=
  ⟨[], rfl, .nil, List.not_mem_nil, fun _ idMem => absurd idMem List.not_mem_nil⟩

variable {later : RequestIds}

/-- An id that is taken stays spent, whether its request is sent or not. -/
theorem Spent.takes (spent : protocols.Spent trace)
    (takes : trace.requestIds.Takes id later) : protocols.Spent ⟨later, trace.sent⟩ := by
  rcases spent with ⟨ids, ids_eq, nodup, ne_zero, above⟩
  exact ⟨ids, ids_eq, nodup, ne_zero, fun earlier earlierMem =>
    ((above earlier earlierMem).takes takes).2⟩

/-- No earlier request carries an id that is taken now. -/
theorem Spent.not_reused (spent : protocols.Spent trace) (takes : trace.requestIds.Takes id later) :
    ∀ earlier ∈ trace.sent, protocols.requestIdOf earlier ≠ some id := by
  rcases spent with ⟨ids, ids_eq, -, -, above⟩
  intro earlier earlierMem carries
  have mapped : some id ∈ trace.sent.map protocols.requestIdOf :=
    List.mem_map.mpr ⟨earlier, earlierMem, carries⟩
  rw [ids_eq] at mapped
  rcases List.mem_map.mp mapped with ⟨other, otherMem, other_eq⟩
  obtain rfl := Option.some.inj other_eq
  exact ((above other otherMem).takes takes).1 rfl

theorem Spent.send (spent : protocols.Spent trace)
    (takes : trace.requestIds.Takes id later) (carries : protocols.requestIdOf request = some id) :
    protocols.Spent ⟨later, trace.sent ++ [request]⟩ := by
  have fresh := spent.not_reused takes
  rcases spent with ⟨ids, ids_eq, nodup, ne_zero, above⟩
  have notMem : id ∉ ids := by
    intro idMem
    exact ((above id idMem).takes takes).1 rfl
  refine ⟨ids ++ [id], ?_, ?_, ?_, ?_⟩
  · rw [List.map_append, List.map_append, ids_eq, List.map_singleton, List.map_singleton, carries]
  · rw [List.nodup_append]
    refine ⟨nodup, List.nodup_singleton id, ?_⟩
    intro first firstMem second secondMem same
    rw [List.mem_singleton.mp secondMem] at same
    exact notMem (same ▸ firstMem)
  · rw [List.mem_append, List.mem_singleton]
    rintro (zeroMem | zero_eq)
    · exact ne_zero zeroMem
    · exact takes.ne_zero zero_eq.symm
  · intro other otherMem
    rcases List.mem_append.mp otherMem with otherMem | otherMem
    · exact ((above other otherMem).takes takes).2
    · rw [List.mem_singleton.mp otherMem]
      exact takes.above

end Protocols

section

variable (codecs : protocols.Codecs)

include codecs

theorem encodeOdoh_eq_ok {opcode : OdohOpcode} {body payload : Octets}
    (encoded : encodeOdoh protocols opcode id body = .ok payload) :
    protocols.decodeOdnsPacket payload = .ok ⟨opcode, id, body⟩ ∧
      payload.length = 12 + body.length := by
  rcases of_bind_ok encoded with ⟨packet, new_eq, encode_eq⟩
  obtain rfl := codecs.new (mapError_eq_ok_iff.mp new_eq)
  have encode_eq := mapError_eq_ok_iff.mp encode_eq
  exact ⟨codecs.odoh encode_eq, codecs.header encode_eq⟩

theorem encodePaddedClientQuery_eq_ok {query : ClientQuery T} {bucket : Nat} {body : Octets}
    (unpadded : query.padding = []) (bucket_ne : bucket ≠ 0)
    (encoded : encodePaddedClientQuery protocols query bucket = .ok body) :
    bucket ∣ 12 + body.length := by
  rcases of_bind_ok encoded with ⟨short, short_eq, encoded⟩
  rw [if_neg bucket_ne, guard_eq_ok_iff] at encoded
  rcases encoded with ⟨-, encoded⟩
  rw [guard_eq_ok_iff] at encoded
  rcases encoded with ⟨-, long_eq⟩
  have same : { query with padding := [] } = query := by
    rw [← unpadded]
  have short_eq := mapError_eq_ok_iff.mp short_eq
  rw [← same] at short_eq
  have length_eq := codecs.padding short_eq (mapError_eq_ok_iff.mp long_eq)
  rw [List.length_replicate] at length_eq
  have positive := Nat.pos_iff_ne_zero.mpr bucket_ne
  rw [length_eq, ← Nat.add_assoc]
  -- The padding completes the rest of the packet length to the bucket, or to zero.
  apply Nat.dvd_of_mod_eq_zero
  have rest_lt := Nat.mod_lt (12 + short.length) positive
  rw [Nat.add_mod, Nat.mod_mod]
  by_cases rest_zero : (12 + short.length) % bucket = 0
  · rw [rest_zero, Nat.sub_zero, Nat.mod_self]
    exact Nat.zero_mod bucket
  · have padding_lt : bucket - (12 + short.length) % bucket < bucket := by
      omega
    rw [Nat.mod_eq_of_lt padding_lt, Nat.add_sub_cancel' rest_lt.le, Nat.mod_self]

end

/-- The answer stands for the one request that the call sent, came from its peer
in time under its id, and no earlier request had that id. -/
structure Attributed (protocols : Protocols T) (call : CallContext T)
    (requestPacket responsePacket : PacketType) (before after : Trace)
    (request : ExperimentalRequest) (response : ExperimentalResponse) : Prop where
  sent_eq : after.sent = before.sent ++ [request]
  request_peer : request.peer = call.peer.identity
  request_packet : request.packet = requestPacket
  returned : call.adapter request = .ok response
  authenticatedPeer : response.authenticatedPeer = call.peer.identity
  packet : response.packet = responsePacket
  started : call.now ≤ response.completedAt
  inTime : response.completedAt ≤ call.deadline
  notCancelled : call.cancelledBefore = false ∧ call.cancelledAfter = false
  requestId : ∃ id, protocols.requestIdOf request = some id ∧
    protocols.responseIdOf response = some id ∧
    ∀ earlier ∈ before.sent, protocols.requestIdOf earlier ≠ some id

/-- The message is parsed from the octets and correlated with the query. -/
structure Correlated (query : Query) (maximum : Nat) (answer : AdmittedDnsResponse) : Prop where
  parsed : Message.parseWithLimits answer.wire
    { ParseLimits.requester with maxMessageLen := maximum } = .ok answer.message
  correlated : query.correlate answer.message = .ok ()

theorem admitDns_eq_ok {query : Query} {wire : Octets} {maximum completedAt : Nat}
    {identities : GatewayIdentities} {answer : AdmittedDnsResponse}
    (admitted : admitDns (T := T) query wire maximum identities completedAt = .ok answer) :
    Correlated query maximum answer ∧ answer.wire = wire ∧ answer.completedAt = completedAt := by
  rcases of_guard_ok admitted with ⟨-, admitted⟩
  rcases of_bind_ok admitted with ⟨message, parsed, admitted⟩
  rcases of_bind_ok admitted with ⟨_, correlated, answer_eq⟩
  obtain rfl := Except.ok.inj answer_eq
  exact ⟨⟨mapError_eq_ok_iff.mp parsed, mapError_eq_ok_iff.mp correlated⟩, rfl, rfl⟩

/-- The state in which a call runs. -/
def CallContext.start (call : CallContext T) (trace : Trace) : ExchangeState T :=
  ⟨trace.requestIds, call.peer.admission, trace.sent⟩

section

variable {Context Result : Type} {call : CallContext T} {requestPacket responsePacket : PacketType}
  {maximum : Nat} {prepare : Except (P2pTransportError T) Unit}
  {encode : UInt64 → Except (P2pTransportError T) (Octets × Context)}
  {ensureCurrent : Nat → Except (P2pTransportError T) Unit}
  {accept : UInt64 → Context → ExperimentalResponse → Except (P2pTransportError T) Result}
  {before : Trace}

/-- A call whose packets carry the id it takes leaves all ids spent. -/
theorem exchangeOnce_spent (spent : protocols.Spent before)
    (carries : ∀ id payload context, encode id = .ok (payload, context) →
      protocols.requestIdOf (call.request requestPacket maximum payload) = some id) :
    protocols.Spent (exchangeOnce protocols call requestPacket responsePacket maximum prepare encode
      ensureCurrent accept (call.start before)).2.trace := by
  rcases run : exchangeOnce protocols call requestPacket responsePacket maximum prepare encode
    ensureCurrent accept (call.start before) with ⟨result, after⟩
  cases exchangeOnce_cases run with
  | refused ids_eq sent_eq _ =>
    rw [ExchangeState.trace, ids_eq, sent_eq]
    exact spent
  | unsent takes sent_eq _ =>
    rw [ExchangeState.trace, sent_eq]
    exact spent.takes takes
  | @sent id payload context _ _ takes encoded sent_eq _ =>
    rw [ExchangeState.trace, sent_eq]
    exact spent.send takes (carries id payload context encoded)

/-- What holds of every request sent so far and of the packets of the call. -/
theorem exchangeOnce_forall_sent {holds : ExperimentalRequest → Prop}
    (earlier : ∀ request ∈ before.sent, holds request)
    (own : ∀ id payload context, encode id = .ok (payload, context) →
      holds (call.request requestPacket maximum payload)) :
    ∀ request ∈ (exchangeOnce protocols call requestPacket responsePacket maximum prepare encode
      ensureCurrent accept (call.start before)).2.trace.sent, holds request := by
  rcases run : exchangeOnce protocols call requestPacket responsePacket maximum prepare encode
    ensureCurrent accept (call.start before) with ⟨result, after⟩
  cases exchangeOnce_cases run with
  | refused _ sent_eq _ =>
    rw [ExchangeState.trace, sent_eq]
    exact earlier
  | unsent _ sent_eq _ =>
    rw [ExchangeState.trace, sent_eq]
    exact earlier
  | @sent id payload context _ _ _ encoded sent_eq _ =>
    rw [ExchangeState.trace, sent_eq, List.forall_mem_append, List.forall_mem_singleton]
    exact ⟨earlier, own id payload context encoded⟩

/-- A call that returns has an attributed answer under the id it took. -/
theorem exchangeOnce_attributed {value : Result} (spent : protocols.Spent before)
    (carries : ∀ id payload context, encode id = .ok (payload, context) →
      protocols.requestIdOf (call.request requestPacket maximum payload) = some id)
    (answers : ∀ id context response, response.packet = responsePacket →
      accept id context response = .ok value → protocols.responseIdOf response = some id)
    (returned : (exchangeOnce protocols call requestPacket responsePacket maximum prepare encode
      ensureCurrent accept (call.start before)).1 = .ok value) :
    ∃ id context request response, Attributed protocols call requestPacket responsePacket before
        (exchangeOnce protocols call requestPacket responsePacket maximum prepare encode
          ensureCurrent accept (call.start before)).2.trace request response ∧
      prepare = .ok () ∧ (∃ payload, encode id = .ok (payload, context)) ∧
      ensureCurrent response.completedAt = .ok () ∧ accept id context response = .ok value := by
  rcases run : exchangeOnce protocols call requestPacket responsePacket maximum prepare encode
    ensureCurrent accept (call.start before) with ⟨result, after⟩
  rw [run] at returned
  obtain rfl : result = .ok value := returned
  cases exchangeOnce_cases run with
  | refused _ _ failed =>
    rcases failed with ⟨error, failed⟩
    cases failed
  | unsent _ _ failed =>
    rcases failed with ⟨error, failed⟩
    cases failed
  | @sent id payload context notCancelled prepared takes encoded sent_eq answered =>
    rcases answered value rfl with ⟨response, answer⟩
    refine ⟨id, context, call.request requestPacket maximum payload, response, ?_, prepared,
      ⟨payload, encoded⟩, answer.current, answer.accepted⟩
    exact {
      sent_eq := sent_eq
      request_peer := rfl
      request_packet := rfl
      returned := answer.returned
      authenticatedPeer := answer.authenticatedPeer
      packet := answer.packet
      started := answer.started
      inTime := answer.inTime
      notCancelled := ⟨notCancelled, answer.notCancelled⟩
      requestId := ⟨id, carries id payload context encoded,
        answers id context response answer.packet answer.accepted, spent.not_reused takes⟩ }

end

end

end HnsDaneEngine.P2pTransport
