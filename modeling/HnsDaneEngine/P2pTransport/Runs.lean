import HnsDaneEngine.Encoding.Codec
import HnsDaneEngine.P2pTransport.Admission

/-!
# Runs of the requesters

Calls follow each other on one requester, each with its own peer, times and
adapter.  Whatever answers the adapters make up or repeat, a call returns only the
answer to its own request.
-/

namespace HnsDaneEngine.P2pTransport

open Control Wire

variable {packet : OdnsPacket}

section

variable {T : ProtocolTypes} {protocols : Protocols T} {query : Query}

namespace DnsRelayRequester

/-- One call of the relay requester. -/
structure Call (T : ProtocolTypes) where
  context : CallContext T
  query : Query

variable (protocols) in
/-- The ids and the requests after a call, also when it fails. -/
def step (limits : RequesterLimits) (trace : Trace) (call : Call T) : Trace :=
  (exchange protocols limits call.context call.query (call.context.start trace)).2.trace

variable (protocols) in
/-- The octets that a successful answer relays. -/
def Relays (response : ExperimentalResponse) (wire : Octets) : Prop :=
  ∃ decoded, protocols.decodeDnsRelay response.payload = .ok decoded ∧ decoded.status = .ok ∧
    decoded.response = wire

variable (protocols) in
/-- A message that answers the request of the call. -/
def Admitted (limits : RequesterLimits) (before : Trace) (call : Call T)
    (answer : AdmittedDnsResponse) : Prop :=
  ∃ request response, Attributed protocols call.context .dnsRelayRequest .dnsRelayResponse before
      (step protocols limits before call) request response ∧
    Relays protocols response answer.wire ∧
    answer.completedAt = response.completedAt ∧
    Correlated call.query limits.maximumDnsResponseBytes answer

theorem requestIdOf_of_encoded (codecs : protocols.Codecs) {call : CallContext T} {id : UInt64}
    {payload : Octets} {context : Unit} {maximum : Nat}
    (encoded : (do
      let queryWire ← (query.encode protocols.maxDnsRelayQuerySize).mapError .dnsWire
      let request ← (protocols.encodeGetDnsRelay id queryWire).mapError .dnsRelayProtocol
      return (request, ()) : Except (P2pTransportError T) (Octets × Unit)) =
        .ok (payload, context)) :
    protocols.requestIdOf (call.request .dnsRelayRequest maximum payload) = some id := by
  rcases of_bind_ok encoded with ⟨queryWire, -, encoded⟩
  rcases of_bind_ok encoded with ⟨request, request_eq, encoded⟩
  obtain rfl := (Prod.mk.inj (Except.ok.inj encoded)).1
  have decoded := codecs.relay (mapError_eq_ok_iff.mp request_eq)
  simp [Protocols.requestIdOf, CallContext.request, decoded, Except.toOption]

variable {limits : RequesterLimits} {answer : AdmittedDnsResponse}

theorem acceptRelay_eq_ok {relay : PeerIdentity} {id : UInt64}
    {response : ExperimentalResponse} (packet_eq : response.packet = .dnsRelayResponse)
    (accepted : acceptRelay protocols limits relay query id response = .ok answer) :
    protocols.responseIdOf response = some id ∧ Relays protocols response answer.wire ∧
      answer.completedAt = response.completedAt ∧
      Correlated query limits.maximumDnsResponseBytes answer := by
  rcases of_bind_ok accepted with ⟨decoded, decoded_eq, accepted⟩
  rcases of_guard_ok accepted with ⟨id_eq, accepted⟩
  rcases of_guard_ok accepted with ⟨status_eq, accepted⟩
  rcases admitDns_eq_ok accepted with ⟨correlated, wire_eq, completed_eq⟩
  have decoded_eq := mapError_eq_ok_iff.mp decoded_eq
  have relays : Relays protocols response answer.wire :=
    ⟨decoded, decoded_eq, not_not.mp status_eq, wire_eq.symm⟩
  refine ⟨?_, relays, completed_eq, correlated⟩
  simp [Protocols.responseIdOf, packet_eq, decoded_eq, Except.toOption, not_not.mp id_eq]

theorem step_spent (codecs : protocols.Codecs) {trace : Trace} (spent : protocols.Spent trace)
    (call : Call T) : protocols.Spent (step protocols limits trace call) :=
  exchangeOnce_spent spent fun _ _ _ encoded => requestIdOf_of_encoded codecs encoded

theorem admitted_of_returned (codecs : protocols.Codecs) {trace : Trace}
    (spent : protocols.Spent trace) {call : Call T}
    (returned : (exchange protocols limits call.context call.query
      (call.context.start trace)).1 = .ok answer) :
    Admitted protocols limits trace call answer := by
  rcases exchangeOnce_attributed spent
    (fun _ _ _ encoded => requestIdOf_of_encoded codecs encoded)
    (fun _ _ _ packet_eq accepted => (acceptRelay_eq_ok packet_eq accepted).1) returned with
    ⟨id, context, request, response, attributed, -, -, -, accepted⟩
  rcases acceptRelay_eq_ok attributed.packet accepted with ⟨-, admitted⟩
  exact ⟨request, response, attributed, admitted⟩

theorem run_spent (codecs : protocols.Codecs) (requester : DnsRelayRequester)
    (calls : List (Call T)) :
    protocols.Spent
      (runFrom (step protocols requester.limits) ⟨requester.requestIds, []⟩ calls) :=
  @runFrom_invariant _ _ (step protocols requester.limits) protocols.Spent
    (fun _ call spent => step_spent codecs spent call) _
    (Protocols.spent_start requester.requestIds) calls

end DnsRelayRequester

namespace OdohRequester

/-- One call of the ODoH requester. -/
inductive Call (T : ProtocolTypes)
  | requestTargetConfiguration (context : CallContext T) (request : ConfigRequest T)
  | exchange (context : CallContext T) (target : VerifiedOdohTarget T) (query : Query)
      (entropy : T.Entropy)

variable (protocols) in
/-- The ids and the requests after a call, also when it fails. -/
def step (limits : RequesterLimits) (trace : Trace) : Call T → Trace
  | .requestTargetConfiguration context request =>
    (requestTargetConfiguration protocols context request (context.start trace)).2.trace
  | .exchange context target query entropy =>
    (exchange protocols limits context target query entropy (context.start trace)).2.trace

variable (protocols) in
/-- The proxy is not the target of the locator. -/
def Distinct (context : CallContext T) (locator : T.Locator) : Prop :=
  protocols.isPublicKey (protocols.targetPeerKey locator) = true ∧
    context.peer.identity.key ≠ protocols.targetPeerKey locator

variable (protocols) in
/-- The signed record in a configuration packet. -/
def Carries (response : ExperimentalResponse) (signedRecord : Octets) : Prop :=
  ∃ packet, protocols.decodeOdnsPacket response.payload = .ok packet ∧ packet.opcode = .config ∧
    protocols.decodeOdohConfigBody packet.body = .ok signedRecord

variable (protocols) in
/-- A signed record that answers the request of the call and is verified for the
selected configuration at the time of the answer. -/
def ConfigAdmitted (limits : RequesterLimits) (before : Trace) (context : CallContext T)
    (request : ConfigRequest T) (fetched : FetchedOdohTargetConfig) : Prop :=
  Distinct protocols context request.locator ∧ ∃ sent response,
    Attributed protocols context .odoh .odoh before
      (step protocols limits before (.requestTargetConfiguration context request)) sent response ∧
    Carries protocols response fetched.signedRecord ∧
    fetched.completedAt = response.completedAt ∧
    ∃ record, protocols.decodeAndVerify fetched.signedRecord request.locator
        request.expectedNetworkMagic response.completedAt request.allowPrivateTarget = .ok record ∧
      request.configurationIndex < record.configurations.length

variable (protocols) in
/-- The octets in a response packet, opened with the context of the sealed query. -/
def Opens (target : VerifiedOdohTarget T) (query : Query) (entropy : T.Entropy)
    (response : ExperimentalResponse) (wire : Octets) : Prop :=
  ∃ queryWire message sealing packet body,
    query.encode protocols.maxOdohQuerySize = .ok queryWire ∧
    protocols.sealQuery entropy target.configuration queryWire = .ok (message, sealing) ∧
    protocols.decodeOdnsPacket response.payload = .ok packet ∧ packet.opcode = .clientResponse ∧
    protocols.decodeOdohResponseBody packet.body = .ok body ∧
    protocols.openResponse sealing body = .ok wire

variable (protocols) in
/-- A message that answers the request of the call, opened while the target is
current. -/
def AnswerAdmitted (limits : RequesterLimits) (before : Trace) (context : CallContext T)
    (target : VerifiedOdohTarget T) (query : Query) (entropy : T.Entropy)
    (answer : AdmittedDnsResponse) : Prop :=
  Distinct protocols context target.locator ∧ ∃ sent response,
    Attributed protocols context .odoh .odoh before
      (step protocols limits before (.exchange context target query entropy)) sent response ∧
    Opens protocols target query entropy response answer.wire ∧
    answer.completedAt = response.completedAt ∧
    response.completedAt < target.expiresAt ∧
    Correlated query limits.maximumDnsResponseBytes answer

variable (protocols) in
/-- Sealed queries fill their buckets. -/
def Padded (bucket : Nat) (request : ExperimentalRequest) : Prop :=
  ∀ packet, protocols.decodeOdnsPacket request.payload = .ok packet →
    packet.opcode = .clientQuery → bucket ≠ 0 → bucket ∣ request.payload.length

variable {context : CallContext T} {id : UInt64} {payload : Octets} {maximum : Nat}
  {request : ConfigRequest T} {response : ExperimentalResponse} {fetched : FetchedOdohTargetConfig}
  {answer : AdmittedDnsResponse} {trace : Trace}

theorem distinct_of_prepared {locator : T.Locator}
    (prepared : (do
      let targetIdentity ← PeerIdentity.new protocols (protocols.targetPeerKey locator)
      if context.peer.identity = targetIdentity then .error .proxyTargetCollision else .ok () :
        Except (P2pTransportError T) Unit) = .ok ()) :
    Distinct protocols context locator := by
  rcases of_bind_ok prepared with ⟨identity, identity_eq, prepared⟩
  unfold PeerIdentity.new at identity_eq
  split at identity_eq
  next publicKey =>
    obtain rfl := Except.ok.inj identity_eq
    rcases of_guard_ok prepared with ⟨distinct, -⟩
    refine ⟨publicKey, ?_⟩
    intro key_eq
    apply distinct
    rw [← key_eq]
  · cases identity_eq

variable {target : VerifiedOdohTarget T}

theorem ensureCurrent_eq_ok {now : Nat} (current : target.ensureCurrent now = .ok ()) :
    now < target.expiresAt := by
  rcases of_guard_ok current with ⟨current, -⟩
  omega

/-- The id and the padding of an encoded ODoH request. -/
theorem request_of_encoded (codecs : protocols.Codecs) {opcode : OdohOpcode} {body : Octets}
    {bucket : Nat} (padded : opcode = .clientQuery → bucket ≠ 0 → bucket ∣ 12 + body.length)
    (encoded : encodeOdoh protocols opcode id body = .ok payload) :
    protocols.requestIdOf (context.request .odoh maximum payload) = some id ∧
      Padded protocols bucket (context.request .odoh maximum payload) := by
  rcases encodeOdoh_eq_ok codecs encoded with ⟨decoded, length_eq⟩
  constructor
  · simp [Protocols.requestIdOf, CallContext.request, decoded, Except.toOption]
  · intro packet packet_eq opcode_eq bucket_ne
    have same := packet_eq.symm.trans decoded
    obtain rfl := Except.ok.inj same
    rw [CallContext.request, length_eq]
    exact padded opcode_eq bucket_ne

theorem config_of_encoded (codecs : protocols.Codecs) {rest : Unit} (bucket : Nat)
    (encoded : (do
      let body := protocols.encodeGetConfigBody request.locator request.allowCached
      let packet ← encodeOdoh protocols .getConfig id body
      return (packet, ()) : Except (P2pTransportError T) (Octets × Unit)) =
        .ok (payload, rest)) :
    protocols.requestIdOf (context.request .odoh maximum payload) = some id ∧
      Padded protocols bucket (context.request .odoh maximum payload) := by
  rcases of_bind_ok encoded with ⟨packet, packet_eq, encoded⟩
  obtain rfl := (Prod.mk.inj (Except.ok.inj encoded)).1
  exact request_of_encoded codecs (fun opcode_eq => by cases opcode_eq) packet_eq

theorem query_of_encoded (codecs : protocols.Codecs) {query : Query} {entropy : T.Entropy}
    {sealing : T.Context} {bucket : Nat} (encoded : (do
      let queryWire ← (query.encode protocols.maxOdohQuerySize).mapError .dnsWire
      let (message, sealing) ←
        (protocols.sealQuery entropy target.configuration queryWire).mapError .odohProtocol
      let clientQuery : ClientQuery T := ⟨target.locator, target.recordId, message, []⟩
      let body ← encodePaddedClientQuery protocols clientQuery bucket
      let packet ← encodeOdoh protocols .clientQuery id body
      return (packet, sealing) : Except (P2pTransportError T) (Octets × T.Context)) =
        .ok (payload, sealing)) :
    protocols.requestIdOf (context.request .odoh maximum payload) = some id ∧
      Padded protocols bucket (context.request .odoh maximum payload) ∧
      ∃ queryWire message, query.encode protocols.maxOdohQuerySize = .ok queryWire ∧
        protocols.sealQuery entropy target.configuration queryWire = .ok (message, sealing) := by
  rcases of_bind_ok encoded with ⟨queryWire, queryWire_eq, encoded⟩
  rcases of_bind_ok encoded with ⟨⟨message, sealed⟩, sealed_eq, encoded⟩
  rcases of_bind_ok encoded with ⟨body, body_eq, encoded⟩
  rcases of_bind_ok encoded with ⟨packet, packet_eq, encoded⟩
  obtain ⟨rfl, rfl⟩ := Prod.mk.inj (Except.ok.inj encoded)
  rcases @request_of_encoded T protocols context id _ maximum codecs _ _ bucket
    (fun _ bucket_ne => encodePaddedClientQuery_eq_ok codecs rfl bucket_ne body_eq) packet_eq with
    ⟨requestId_eq, padded⟩
  exact ⟨requestId_eq, padded, queryWire, message, mapError_eq_ok_iff.mp queryWire_eq,
    mapError_eq_ok_iff.mp sealed_eq⟩

theorem signedRecordOf_eq_ok {signedRecord : Octets}
    (signed : signedRecordOf protocols packet = .ok signedRecord) :
    packet.opcode = .config ∧ protocols.decodeOdohConfigBody packet.body = .ok signedRecord := by
  unfold signedRecordOf at signed
  split at signed
  next opcode_eq => exact ⟨opcode_eq, mapError_eq_ok_iff.mp signed⟩
  next =>
    rcases of_bind_ok signed with ⟨_, -, failed⟩
    cases failed
  next => cases signed

theorem openOdohResponse_eq_ok {sealing : T.Context} {wire : Octets}
    (opened : openOdohResponse protocols packet sealing = .ok wire) :
    packet.opcode = .clientResponse ∧ ∃ body,
      protocols.decodeOdohResponseBody packet.body = .ok body ∧
        protocols.openResponse sealing body = .ok wire := by
  unfold openOdohResponse at opened
  split at opened
  next opcode_eq =>
    rcases of_bind_ok opened with ⟨body, body_eq, opened⟩
    exact ⟨opcode_eq, body, mapError_eq_ok_iff.mp body_eq, mapError_eq_ok_iff.mp opened⟩
  next =>
    rcases of_bind_ok opened with ⟨_, -, failed⟩
    cases failed
  next => cases opened

theorem acceptConfig_eq_ok (packet_eq : response.packet = .odoh)
    (accepted : acceptConfig protocols request id response = .ok fetched) :
    protocols.responseIdOf response = some id ∧ Carries protocols response fetched.signedRecord ∧
      fetched.completedAt = response.completedAt ∧
      ∃ record, protocols.decodeAndVerify fetched.signedRecord request.locator
          request.expectedNetworkMagic response.completedAt request.allowPrivateTarget =
            .ok record ∧
        request.configurationIndex < record.configurations.length := by
  rcases of_bind_ok accepted with ⟨packet, decoded_eq, accepted⟩
  rcases of_guard_ok accepted with ⟨id_eq, accepted⟩
  rcases of_bind_ok accepted with ⟨signedRecord, signedRecord_eq, accepted⟩
  rcases of_bind_ok accepted with ⟨target, target_eq, accepted⟩
  obtain rfl := Except.ok.inj accepted
  have decoded_eq := mapError_eq_ok_iff.mp decoded_eq
  rcases signedRecordOf_eq_ok signedRecord_eq with ⟨opcode_eq, body_eq⟩
  refine ⟨?_, ⟨packet, decoded_eq, opcode_eq, body_eq⟩, rfl, ?_⟩
  · simp [Protocols.responseIdOf, packet_eq, decoded_eq, Except.toOption, not_not.mp id_eq]
  rcases of_bind_ok target_eq with ⟨record, verified, selected⟩
  refine ⟨record, mapError_eq_ok_iff.mp verified, ?_⟩
  split at selected
  · cases selected
  next configuration configuration_eq =>
    exact (List.getElem?_eq_some_iff.mp configuration_eq).1

variable {limits : RequesterLimits}

theorem acceptAnswer_eq_ok {proxy : PeerIdentity} {sealing : T.Context}
    (packet_eq : response.packet = .odoh)
    (accepted : acceptAnswer protocols limits proxy target query id sealing response = .ok answer) :
    protocols.responseIdOf response = some id ∧
      (∃ packet body, protocols.decodeOdnsPacket response.payload = .ok packet ∧
        packet.opcode = .clientResponse ∧ protocols.decodeOdohResponseBody packet.body = .ok body ∧
        protocols.openResponse sealing body = .ok answer.wire) ∧
      answer.completedAt = response.completedAt ∧
      Correlated query limits.maximumDnsResponseBytes answer := by
  rcases of_bind_ok accepted with ⟨packet, decoded_eq, accepted⟩
  rcases of_guard_ok accepted with ⟨id_eq, accepted⟩
  rcases of_bind_ok accepted with ⟨responseWire, opened, accepted⟩
  rcases of_bind_ok accepted with ⟨targetIdentity, -, accepted⟩
  rcases admitDns_eq_ok accepted with ⟨correlated, wire_eq, completed_eq⟩
  rcases openOdohResponse_eq_ok opened with ⟨opcode_eq, body, body_eq, opened⟩
  have decoded_eq := mapError_eq_ok_iff.mp decoded_eq
  rw [← wire_eq] at opened
  refine ⟨?_, ⟨packet, body, decoded_eq, opcode_eq, body_eq, opened⟩, completed_eq, correlated⟩
  simp [Protocols.responseIdOf, packet_eq, decoded_eq, Except.toOption, not_not.mp id_eq]

section

variable (codecs : protocols.Codecs)

include codecs

theorem step_spent (spent : protocols.Spent trace) (call : Call T) :
    protocols.Spent (step protocols limits trace call) := by
  cases call with
  | requestTargetConfiguration context request =>
    exact exchangeOnce_spent spent fun _ _ _ encoded =>
      (config_of_encoded codecs 0 encoded).1
  | exchange context target query entropy =>
    exact exchangeOnce_spent spent fun _ _ _ encoded => (query_of_encoded codecs encoded).1

theorem step_padded
    (earlier : ∀ request ∈ trace.sent, Padded protocols limits.odohPaddingBucket request)
    (call : Call T) :
    ∀ request ∈ (step protocols limits trace call).sent,
      Padded protocols limits.odohPaddingBucket request := by
  cases call with
  | requestTargetConfiguration context request =>
    exact exchangeOnce_forall_sent earlier fun _ _ _ encoded =>
      (config_of_encoded codecs _ encoded).2
  | exchange context target query entropy =>
    exact exchangeOnce_forall_sent earlier fun _ _ _ encoded =>
      (query_of_encoded codecs encoded).2.1

theorem run_spent (requester : OdohRequester) (calls : List (Call T)) :
    protocols.Spent
      (runFrom (step protocols requester.limits) ⟨requester.requestIds, []⟩ calls) :=
  @runFrom_invariant _ _ (step protocols requester.limits) protocols.Spent
    (fun _ call spent => step_spent codecs spent call) _
    (Protocols.spent_start requester.requestIds) calls

theorem run_padded (requester : OdohRequester) (calls : List (Call T)) :
    ∀ request ∈ (runFrom (step protocols requester.limits) ⟨requester.requestIds, []⟩ calls).sent,
      Padded protocols requester.limits.odohPaddingBucket request :=
  @runFrom_invariant _ _ (step protocols requester.limits)
    (fun trace => ∀ request ∈ trace.sent,
      Padded protocols requester.limits.odohPaddingBucket request)
    (fun _ call earlier => step_padded codecs earlier call) _
    (fun _ requestMem => absurd requestMem List.not_mem_nil) calls

theorem configAdmitted_of_returned (limits : RequesterLimits) (spent : protocols.Spent trace)
    (returned : (requestTargetConfiguration protocols context request (context.start trace)).1 =
      .ok fetched) : ConfigAdmitted protocols limits trace context request fetched := by
  rcases exchangeOnce_attributed spent
    (fun _ _ _ encoded => (config_of_encoded codecs 0 encoded).1)
    (fun _ _ _ packet_eq accepted => (acceptConfig_eq_ok packet_eq accepted).1) returned with
    ⟨id, _, sent, response, attributed, prepared, -, -, accepted⟩
  rcases acceptConfig_eq_ok attributed.packet accepted with ⟨-, admitted⟩
  exact ⟨distinct_of_prepared prepared, sent, response, attributed, admitted⟩

theorem answerAdmitted_of_returned (spent : protocols.Spent trace)
    {entropy : T.Entropy} (returned : (exchange protocols limits context target query entropy
      (context.start trace)).1 = .ok answer) :
    AnswerAdmitted protocols limits trace context target query entropy answer := by
  rcases exchangeOnce_attributed spent
    (fun _ _ _ encoded => (query_of_encoded codecs encoded).1)
    (fun _ _ _ packet_eq accepted => (acceptAnswer_eq_ok packet_eq accepted).1) returned with
    ⟨id, sealing, sent, response, attributed, prepared, ⟨payload, encoded⟩, current, accepted⟩
  rcases acceptAnswer_eq_ok attributed.packet accepted with
    ⟨-, ⟨packet, body, opened⟩, completed_eq, correlated⟩
  rcases of_bind_ok prepared with ⟨_, -, prepared⟩
  rcases @query_of_encoded T protocols context id payload protocols.maxOdohPacketSize target codecs
    query entropy sealing limits.odohPaddingBucket encoded with
    ⟨-, -, queryWire, message, query_eq, seal_eq⟩
  have opens : Opens protocols target query entropy response answer.wire :=
    ⟨queryWire, message, sealing, packet, body, query_eq, seal_eq, opened⟩
  exact ⟨distinct_of_prepared prepared, sent, response, attributed, opens, completed_eq,
    ensureCurrent_eq_ok current, correlated⟩

end

end OdohRequester

/-- On one requester no two requests carry the same id and none carries zero, and
every call, after any other calls, returns only an answer that is attributed to
its own request; the sealed queries of an ODoH requester fill their buckets. -/
theorem requesters_admit_own_answers (codecs : protocols.Codecs) :
    (∀ (first : NonZeroU64) (limits : RequesterLimits) (requester : DnsRelayRequester)
      (calls : List (DnsRelayRequester.Call T)),
      DnsRelayRequester.new protocols first limits = .ok requester →
      let trace := runFrom (DnsRelayRequester.step protocols requester.limits)
        ⟨requester.requestIds, []⟩ calls
      protocols.UniqueIds trace.sent ∧
        ∀ call answer, (DnsRelayRequester.exchange protocols requester.limits call.context
            call.query (call.context.start trace)).1 = .ok answer →
          DnsRelayRequester.Admitted protocols requester.limits trace call answer) ∧
    ∀ (first : NonZeroU64) (limits : RequesterLimits) (requester : OdohRequester)
      (calls : List (OdohRequester.Call T)),
      OdohRequester.new protocols first limits = .ok requester →
      let trace := runFrom (OdohRequester.step protocols requester.limits)
        ⟨requester.requestIds, []⟩ calls
      protocols.UniqueIds trace.sent ∧
        (∀ request ∈ trace.sent,
          OdohRequester.Padded protocols requester.limits.odohPaddingBucket request) ∧
        (∀ context request fetched,
          (OdohRequester.requestTargetConfiguration protocols context request
            (context.start trace)).1 = .ok fetched →
          OdohRequester.ConfigAdmitted protocols requester.limits trace context request fetched) ∧
        ∀ context target query entropy answer,
          (OdohRequester.exchange protocols requester.limits context target query entropy
            (context.start trace)).1 = .ok answer →
          OdohRequester.AnswerAdmitted protocols requester.limits trace context target query
            entropy answer := by
  constructor
  · intro first limits requester calls created trace
    have spent : protocols.Spent trace := DnsRelayRequester.run_spent codecs requester calls
    exact ⟨spent.uniqueIds, fun _ _ => DnsRelayRequester.admitted_of_returned codecs spent⟩
  · intro first limits requester calls created trace
    have spent : protocols.Spent trace := OdohRequester.run_spent codecs requester calls
    have padded := OdohRequester.run_padded codecs requester calls
    exact ⟨spent.uniqueIds, padded,
      fun _ _ _ => OdohRequester.configAdmitted_of_returned codecs requester.limits spent,
      fun _ _ _ _ _ => OdohRequester.answerAdmitted_of_returned codecs spent⟩

end

namespace Example

open Codec

abbrev types : ProtocolTypes where
  Admission := Unit
  AdmissionError := Unit
  RelayError := Unit
  OdohError := Unit
  OdohStatus := UInt8
  Locator := Octets
  Configuration := Unit
  Sealed := Octets
  Context := Unit
  Entropy := Unit

def idOctets (id : UInt64) : Octets :=
  leOctets 8 id.toNat

def idOf (octets : Octets) : UInt64 :=
  UInt64.ofNat (leNumber octets)

def opcodeOctet : OdohOpcode → Option UInt8
  | .getConfig => some 1
  | .config => some 2
  | .clientQuery => some 3
  | .clientResponse => some 4
  | .error => some 5
  | .other _ => none

def opcodeOf : UInt8 → Option OdohOpcode
  | 1 => some .getConfig
  | 2 => some .config
  | 3 => some .clientQuery
  | 4 => some .clientResponse
  | 5 => some .error
  | _ => none

def encodePacket (packet : OdnsPacket) : Except Unit Octets :=
  match opcodeOctet packet.opcode with
  | some opcode => .ok ([1, opcode, 0, 0] ++ (idOctets packet.requestId ++ packet.body))
  | none => .error ()

def decodePacket : Octets → Except Unit OdnsPacket
  | 1 :: opcode :: 0 :: 0 :: rest =>
    match opcodeOf opcode with
    | some opcode => .ok ⟨opcode, idOf (rest.take 8), rest.drop 8⟩
    | none => .error ()
  | _ => .error ()

/-- Octets for the packets, and sealing that leaves a query as it is. -/
def protocols : Protocols types where
  isPublicKey key := key.length == 33
  admitPacket _ _ := (.ok (), ())
  maxDnsRelayQuerySize := 512
  maxDnsRelayResponsePayloadSize := 4096
  encodeGetDnsRelay id query := .ok (idOctets id ++ query)
  decodeGetDnsRelay payload := .ok (idOf (payload.take 8), payload.drop 8)
  decodeDnsRelay payload := .ok ⟨idOf (payload.take 8), .ok, payload.drop 8⟩
  maxOdohQuerySize := 512
  maxOdohPacketSize := 4096
  maxOuterPaddingSize := 1024
  targetPeerKey locator := locator
  newOdnsPacket opcode id body := .ok ⟨opcode, id, body⟩
  encodeOdnsPacket := encodePacket
  decodeOdnsPacket := decodePacket
  encodeGetConfigBody locator _ := locator
  decodeOdohConfigBody body := .ok body
  decodeOdohErrorBody body := .ok (body.headD 0)
  decodeOdohResponseBody body := .ok body
  encodeClientQuery query := .ok (query.message ++ query.padding)
  decodeAndVerify _ locator _ now _ := .ok ⟨locator, [()], [], 1, now + 1⟩
  sealQuery _ _ query := .ok (query, ())
  openResponse _ sealed := .ok sealed

theorem length_idOctets (id : UInt64) : (idOctets id).length = 8 :=
  length_leOctets 8 id.toNat

theorem idOf_idOctets (id : UInt64) : idOf (idOctets id) = id := by
  rw [idOf, idOctets, leNumber_leOctets (isWord_uint64.toNat_lt id), UInt64.ofNat_toNat]

theorem opcodeOf_opcodeOctet {opcode : OdohOpcode} {octet : UInt8}
    (octet_eq : opcodeOctet opcode = some octet) : opcodeOf octet = some opcode := by
  cases opcode <;> simp only [opcodeOctet, Option.some.injEq, reduceCtorEq] at octet_eq <;>
    subst octet_eq <;> rfl

theorem encodePacket_eq_ok {payload : Octets} (encoded : encodePacket packet = .ok payload) :
    ∃ octet, opcodeOctet packet.opcode = some octet ∧
      payload = [1, octet, 0, 0] ++ (idOctets packet.requestId ++ packet.body) := by
  unfold encodePacket at encoded
  split at encoded
  next octet octet_eq =>
    obtain rfl := Except.ok.inj encoded
    exact ⟨octet, octet_eq, rfl⟩
  · cases encoded

theorem decodePacket_encodePacket {payload : Octets}
    (encoded : encodePacket packet = .ok payload) : decodePacket payload = .ok packet := by
  rcases encodePacket_eq_ok encoded with ⟨octet, octet_eq, rfl⟩
  simp only [List.cons_append, List.nil_append, decodePacket, opcodeOf_opcodeOctet octet_eq,
    List.take_left' (length_idOctets packet.requestId),
    List.drop_left' (length_idOctets packet.requestId), idOf_idOctets]

theorem codecs : protocols.Codecs where
  relay := by
    intro id queryWire payload encoded
    obtain rfl := Except.ok.inj encoded
    simp only [protocols, List.take_left' (length_idOctets id),
      List.drop_left' (length_idOctets id), idOf_idOctets]
  new := by
    intro opcode id body packet created
    exact (Except.ok.inj created).symm
  odoh := decodePacket_encodePacket
  header := by
    intro packet payload encoded
    rcases encodePacket_eq_ok encoded with ⟨octet, -, rfl⟩
    rw [List.length_append, List.length_append, length_idOctets]
    simp only [List.length_cons, List.length_nil]
    omega
  padding := by
    intro query padding short long short_eq long_eq
    obtain rfl := Except.ok.inj short_eq
    obtain rfl := Except.ok.inj long_eq
    simp

def first : NonZeroU64 := ⟨7, by decide⟩

def limits : RequesterLimits := ⟨4096, 128⟩

theorem name_valid : ValidLabels [[0x61]] := by decide

def query : Query := ⟨1, ⟨⟨[[0x61]], name_valid⟩, .a, classIn⟩⟩

/-- The response to the query, without records. -/
def responseWire : Octets :=
  [0, 1, 0x80, 0, 0, 1, 0, 0, 0, 0, 0, 0, 1, 0x61, 0, 0, 1, 0, 1]

def relay : AuthenticatedPeer types := ⟨⟨List.replicate 33 2⟩, (), 4096⟩

/-- A call of which the adapter loses the request. -/
def lost : CallContext types :=
  ⟨relay, 10, 20, false, false, fun _ => .error .timeout⟩

/-- The relay repeats the id of the request. -/
def relayed : CallContext types where
  peer := relay
  now := 10
  deadline := 20
  cancelledBefore := false
  cancelledAfter := false
  adapter request :=
    .ok ⟨relay.identity, .dnsRelayResponse, request.payload.take 8 ++ responseWire, 15⟩

/-- The target answers under the id of the request. -/
def proxied : CallContext types where
  peer := relay
  now := 10
  deadline := 20
  cancelledBefore := false
  cancelledAfter := false
  adapter request :=
    .ok ⟨relay.identity, .odoh, [1, 4, 0, 0] ++ (request.payload.drop 4).take 8 ++ responseWire, 15⟩

def target : VerifiedOdohTarget types := ⟨List.replicate 33 3, (), [], 1, 100⟩

def relayTrace : Trace :=
  runFrom (DnsRelayRequester.step protocols limits) ⟨⟨some first⟩, []⟩ [⟨lost, query⟩]

def odohTrace : Trace :=
  runFrom (OdohRequester.step protocols limits) ⟨⟨some first⟩, []⟩ [.exchange lost target query ()]

theorem answered_after_lost :
    (∃ answer, DnsRelayRequester.Admitted protocols limits relayTrace ⟨relayed, query⟩ answer) ∧
      ∃ answer,
        OdohRequester.AnswerAdmitted protocols limits odohTrace proxied target query () answer := by
  rcases requesters_admit_own_answers codecs with ⟨relays, odoh⟩
  have relayOk : (DnsRelayRequester.exchange protocols limits relayed query
      (relayed.start relayTrace)).1.toOption.isSome = true := by
    rfl
  have odohOk : (OdohRequester.exchange protocols limits proxied target query ()
      (proxied.start odohTrace)).1.toOption.isSome = true := by
    decide +kernel
  constructor
  · rcases returned : (DnsRelayRequester.exchange protocols limits relayed query
      (relayed.start relayTrace)).1 with error | answer
    · rw [returned] at relayOk
      cases relayOk
    · exact ⟨answer, (relays first limits ⟨⟨some first⟩, limits⟩ [⟨lost, query⟩] rfl).2
        ⟨relayed, query⟩ answer returned⟩
  · rcases returned : (OdohRequester.exchange protocols limits proxied target query ()
      (proxied.start odohTrace)).1 with error | answer
    · rw [returned] at odohOk
      cases odohOk
    · exact ⟨answer, (odoh first limits ⟨⟨some first⟩, limits⟩
        [.exchange lost target query ()] rfl).2.2.2 proxied target query () answer returned⟩

end Example

end HnsDaneEngine.P2pTransport
