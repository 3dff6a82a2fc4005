import HnsDaneEngine.PeerWire.Frame

/-!
# Reading back packets

What an encoder of a packet writes, the decoder of its type reads back.  The two kinds of
values that share their octets with others are excluded: unknown packets of an assigned
type, and IPv6 addresses in which an IPv4 address is embedded.
-/

namespace HnsDaneEngine.PeerWire

open Browser (IpAddr Ipv4Addr Ipv6Addr)
open Buffer (u16Octets u16Of u16Of_u16Octets)
open Codec Control
open Primitives (BlockHeader ExtraNonce Hash)

/-- An address that is not read back as an IPv4 address. -/
def NetAddress.Representable (address : NetAddress) : Prop :=
  ∀ v6, address.address = .v6 v6 → v6.toIpv4Mapped = none

def assignedTypes : Octets :=
  [0, 1, 2, 3, 4, 5, 10, 11, 12, 26, 27, experimentalGetDnsRelay, experimentalDnsRelay]

/-- A packet that has its octets to itself. -/
def Packet.Representable : Packet → Prop
  | .version packet => packet.remote.Representable
  | .addr packet => ∀ item ∈ packet.items, item.Representable
  | .unknown packetType _ => packetType ∉ assignedTypes
  | _ => True

theorem readU8_readsBack (value : UInt8) : ReadsBack readU8 [value] value := by
  have read := ReadsBack.of_lossless
    (readLe_lossless (P2pError.parse .unexpectedEof) isWord_uint8) value
  rwa [leOctets, leOctets, UInt8.ofNat_toNat] at read

theorem readU16Le_readsBack (value : UInt16) : ReadsBack readU16Le (leOctets 2 value.toNat) value :=
  ReadsBack.of_lossless (readLe_lossless (P2pError.parse .unexpectedEof) isWord_uint16) value

theorem readU32Le_readsBack (value : UInt32) : ReadsBack readU32Le (leOctets 4 value.toNat) value :=
  ReadsBack.of_lossless (readLe_lossless (P2pError.parse .unexpectedEof) isWord_uint32) value

theorem readU64Le_readsBack (value : UInt64) : ReadsBack readU64Le (leOctets 8 value.toNat) value :=
  ReadsBack.of_lossless (readLe_lossless (P2pError.parse .unexpectedEof) isWord_uint64) value

theorem readHash_readsBack (hash : Hash) : ReadsBack readHash hash.bytes hash :=
  ReadsBack.exactly (P2pError.parse .unexpectedEof) Hash.mk hash.bytes hash.length_eq

theorem readNonce_readsBack (nonce : Nonce) : ReadsBack readNonce nonce.bytes nonce :=
  ReadsBack.exactly (P2pError.parse .unexpectedEof) Nonce.mk nonce.bytes nonce.length_eq

variable {octets : Octets} {α : Type} {read : PayloadReader α} {packet : Packet}

theorem readBytes_readsBack {count : Nat} (length_eq : octets.length = count) :
    ReadsBack (readBytes count) octets octets :=
  ReadsBack.octets _ octets length_eq

/-- A word of 64 bits from its halves. -/
theorem joinHalves (value : UInt64) :
    (UInt32.ofNat (value.toNat % 2 ^ 32)).toUInt64 |||
      ((UInt32.ofNat (value.toNat / 2 ^ 32)).toUInt64 <<< 32) = value := by
  have bound := value.toNat_lt
  have low : (UInt32.ofNat (value.toNat % 2 ^ 32)).toNat = value.toNat % 2 ^ 32 := by
    rw [UInt32.toNat_ofNat']
    omega
  have high : (UInt32.ofNat (value.toNat / 2 ^ 32)).toNat = value.toNat / 2 ^ 32 := by
    rw [UInt32.toNat_ofNat']
    omega
  apply UInt64.toNat_inj.mp
  rw [UInt64.toNat_or, UInt64.toNat_shiftLeft, UInt32.toNat_toUInt64, UInt32.toNat_toUInt64, low,
    high, Nat.or_comm]
  simp only [UInt64.reduceToNat, Nat.reduceMod]
  rw [Nat.mod_eq_of_lt (by rw [Nat.shiftLeft_eq]; omega),
    ← Nat.shiftLeft_add_eq_or_of_lt (Nat.mod_lt _ (by decide)), Nat.shiftLeft_eq]
  omega

theorem readU64Service_readsBack (value : UInt64) :
    ReadsBack readU64Service (writeU64Service value) value := by
  have bound := value.toNat_lt
  have read : ∀ number, number < 2 ^ 32 →
      ReadsBack readU32Le (leOctets 4 number) (UInt32.ofNat number) := by
    intro number fits
    have word := readU32Le_readsBack (UInt32.ofNat number)
    rwa [UInt32.toNat_ofNat', Nat.mod_eq_of_lt fits] at word
  have high := read _ (by omega : value.toNat / 2 ^ 32 < 2 ^ 32)
  have joined : ReadsBack readU64Service (writeU64Service value)
      ((UInt32.ofNat (value.toNat % 2 ^ 32)).toUInt64 |||
        ((UInt32.ofNat (value.toNat / 2 ^ 32)).toUInt64 <<< 32)) :=
    (read _ (Nat.mod_lt value.toNat (by decide))).bind high.bind_pure
  rwa [joinHalves] at joined

/-- A word that must not fit a shorter form. -/
theorem readCanonical_readsBack (toNat : α → Nat) (canonical : Nat → Prop) [DecidablePred canonical]
    {word : α} (readsBack : ReadsBack read octets word) (holds : canonical (toNat word)) :
    ReadsBack
      (do
        let value ← read
        Reader.ensure (canonical (toNat value)) P2pError.nonCanonicalVarint
        pure (toNat value)) octets (toNat word) := by
  rw [← List.append_nil octets]
  exact readsBack.bind (ReadsBack.ensure_bind holds (ReadsBack.pure (toNat word)))

theorem readVarint_readsBack {value : Nat} (fits : value < 2 ^ 64) :
    ReadsBack readVarint (writeVarint value) value := by
  -- the first octet says how wide the number is
  have after : ∀ (tag : UInt8) (input : Octets), readVarint (tag :: input) =
      (if tag ≤ 0xfc then pure tag.toNat
        else if tag = 0xfd then do
          let value ← readU16Le
          Reader.ensure (0xfd ≤ value.toNat) .nonCanonicalVarint
          pure value.toNat
        else if tag = 0xfe then do
          let value ← readU32Le
          Reader.ensure (0xffff < value.toNat) .nonCanonicalVarint
          pure value.toNat
        else do
          let value ← readU64Le
          Reader.ensure (0xffffffff < value.toNat) .nonCanonicalVarint
          pure value.toNat : PayloadReader Nat) input :=
    fun tag input => Reader.bind_of_ok (readU8_readsBack tag input)
  rw [writeVarint]
  by_cases one : value ≤ 0xfc
  · have octet_eq : (UInt8.ofNat value).toNat = value := by
      rw [UInt8.toNat_ofNat']
      omega
    have small : UInt8.ofNat value ≤ 0xfc := by
      rw [UInt8.le_iff_toNat_le, octet_eq]
      exact one
    rw [if_pos one]
    intro rest
    rw [List.singleton_append, after, if_pos small, octet_eq]
    rfl
  · rw [if_neg one]
    by_cases two : value ≤ 0xffff
    · have word_eq : (UInt16.ofNat value).toNat = value := by
        rw [UInt16.toNat_ofNat']
        omega
      have read := readCanonical_readsBack UInt16.toNat (fun number => 0xfd ≤ number)
        (readU16Le_readsBack (UInt16.ofNat value)) (by rw [word_eq]; omega)
      rw [word_eq] at read
      rw [if_pos two]
      intro rest
      rw [List.cons_append, after, if_neg (by decide), if_pos rfl]
      exact read rest
    · rw [if_neg two]
      by_cases four : value ≤ 0xffffffff
      · have word_eq : (UInt32.ofNat value).toNat = value := by
          rw [UInt32.toNat_ofNat']
          omega
        have read := readCanonical_readsBack UInt32.toNat (fun number => 0xffff < number)
          (readU32Le_readsBack (UInt32.ofNat value)) (by rw [word_eq]; omega)
        rw [word_eq] at read
        rw [if_pos four]
        intro rest
        rw [List.cons_append, after, if_neg (by decide), if_neg (by decide), if_pos rfl]
        exact read rest
      · have word_eq : (UInt64.ofNat value).toNat = value := by
          rw [UInt64.toNat_ofNat']
          omega
        have read := readCanonical_readsBack UInt64.toNat (fun number => 0xffffffff < number)
          (readU64Le_readsBack (UInt64.ofNat value)) (by rw [word_eq]; omega)
        rw [word_eq] at read
        rw [if_neg four]
        intro rest
        rw [List.cons_append, after, if_neg (by decide), if_neg (by decide), if_neg (by decide)]
        exact read rest

theorem length_rawAddress (address : IpAddr) : (rawAddress address).length = 16 := by
  cases address with
  | v4 address => rfl
  | v6 address => exact address.length_octets

theorem toIpv4Mapped_of_take {address : Ipv6Addr}
    (front : address.octets.take 12 = ipv4MappedFront) : address.toIpv4Mapped ≠ none := by
  rcases address with ⟨s0, s1, s2, s3, s4, s5, s6, s7⟩
  simp only [Ipv6Addr.octets, u16Octets, Frame.u16, ipv4MappedFront, List.cons_append,
    List.nil_append, List.take_succ_cons, List.take_zero, List.cons.injEq, and_true] at front
  rcases front with ⟨a0, b0, a1, b1, a2, b2, a3, b3, a4, b4, a5, b5⟩
  have read0 := u16Of_u16Octets s0
  have read1 := u16Of_u16Octets s1
  have read2 := u16Of_u16Octets s2
  have read3 := u16Of_u16Octets s3
  have read4 := u16Of_u16Octets s4
  have read5 := u16Of_u16Octets s5
  rw [a0, b0] at read0
  rw [a1, b1] at read1
  rw [a2, b2] at read2
  rw [a3, b3] at read3
  rw [a4, b4] at read4
  rw [a5, b5] at read5
  rw [Ipv6Addr.toIpv4Mapped, if_pos]
  · exact Option.some_ne_none _
  · exact ⟨read0.symm, read1.symm, read2.symm, read3.symm, read4.symm, read5.symm⟩

theorem addressFromRaw_rawAddress {address : IpAddr}
    (representable : ∀ v6, address = .v6 v6 → v6.toIpv4Mapped = none) :
    addressFromRaw (rawAddress address) = address := by
  cases address with
  | v4 address => rfl
  | v6 address =>
    have front_ne : address.octets.take 12 ≠ ipv4MappedFront :=
      fun front => toIpv4Mapped_of_take front (representable address rfl)
    rw [addressFromRaw, rawAddress, if_neg front_ne, Ipv6Addr.ofOctets_octets]
    rfl

theorem NetAddress.readRaw_readsBack (address : IpAddr) :
    ReadsBack readRaw ([0] ++ (rawAddress address ++ List.replicate 20 0)) (rawAddress address) := by
  intro rest
  rw [readRaw, List.append_assoc, Reader.bind_of_ok (readU8_readsBack 0 _), if_pos rfl]
  exact ((readBytes_readsBack (length_rawAddress address)).bind
    (readBytes_readsBack List.length_replicate).bind_pure) rest

theorem NetAddress.decode_readsBack {address : NetAddress} (representable : address.Representable) :
    ReadsBack NetAddress.decode address.encode address := by
  have fields : ReadsBack NetAddress.decode
      (leOctets 8 address.time.toNat ++ (writeU64Service address.services ++
        (([0] ++ (rawAddress address.address ++ List.replicate 20 0)) ++
          (leOctets 2 address.port.toNat ++ List.replicate 33 0))))
      { address with address := addressFromRaw (rawAddress address.address) } :=
    (readU64Le_readsBack address.time).bind
      ((readU64Service_readsBack address.services).bind
        ((readRaw_readsBack address.address).bind
          ((readU16Le_readsBack address.port).bind
            (readBytes_readsBack List.length_replicate).bind_pure)))
  rw [addressFromRaw_rawAddress representable] at fields
  simpa only [NetAddress.encode, List.append_assoc] using fields

theorem agentFromOctets_agentOctets (agent : String) :
    agentFromOctets (agentOctets agent) = .ok agent := by
  have valid : agent.toByteArray.IsValidUTF8 := agent.isValidUTF8
  have again : (⟨(agentOctets agent).toArray⟩ : ByteArray) = agent.toByteArray := rfl
  rw [agentFromOctets, again, String.fromUTF8?, dif_pos valid]
  rfl

theorem VersionPacket.decode_readsBack {packet : VersionPacket}
    (representable : packet.remote.Representable) (encoded : packet.encode = .ok octets) :
    ReadsBack VersionPacket.decode octets packet := by
  rw [VersionPacket.encode, guard_eq_ok_iff] at encoded
  rcases encoded with ⟨notLong, same⟩
  cases same
  have short : (agentOctets packet.agent).length ≤ maxAgentLen := Nat.le_of_not_lt notLong
  have length_eq : (UInt8.ofNat (agentOctets packet.agent).length).toNat =
      (agentOctets packet.agent).length := by
    rw [maxAgentLen] at short
    rw [UInt8.toNat_ofNat']
    omega
  have agent : ReadsBack (Reader.lift (agentFromOctets (agentOctets packet.agent))) []
      packet.agent := by
    intro rest
    rw [agentFromOctets_agentOctets]
    rfl
  have flag : ((if packet.noRelay then 1 else 0 : UInt8) == 1) = packet.noRelay := by
    cases packet.noRelay <;> rfl
  have fields : ReadsBack VersionPacket.decode
      (leOctets 4 packet.version.toNat ++ (writeU64Service packet.services ++
        (leOctets 8 packet.time.toNat ++ (packet.remote.encode ++ (packet.nonce.bytes ++
          ([UInt8.ofNat (agentOctets packet.agent).length] ++ (agentOctets packet.agent ++
            ([] ++ (leOctets 4 packet.height.toNat ++
              [if packet.noRelay then 1 else 0])))))))))
      { packet with noRelay := (if packet.noRelay then 1 else 0 : UInt8) == 1 } :=
    (readU32Le_readsBack packet.version).bind
      ((readU64Service_readsBack packet.services).bind
        ((readU64Le_readsBack packet.time).bind
          ((NetAddress.decode_readsBack representable).bind
            ((readNonce_readsBack packet.nonce).bind
              ((readU8_readsBack _).bind
                (ReadsBack.ensure_bind (length_eq.trans_le short)
                  ((readBytes_readsBack length_eq.symm).bind
                    (agent.bind
                      ((readU32Le_readsBack packet.height).bind
                        (readU8_readsBack _).bind_pure)))))))))
  rw [flag] at fields
  simpa only [List.append_assoc, List.nil_append] using fields

variable (header : BlockHeader)

theorem readHeader_readsBack : ReadsBack readHeader (serializeHeader header) header := by
  have fields : ReadsBack readHeader
      (leOctets 4 header.nonce.toNat ++ (leOctets 8 header.time.toNat ++
        (header.prevBlock.bytes ++ (header.treeRoot.bytes ++ (header.extraNonce.bytes ++
          (header.reservedRoot.bytes ++ (header.witnessRoot.bytes ++ (header.merkleRoot.bytes ++
            (leOctets 4 header.version.toNat ++ (leOctets 4 header.bits.toNat ++
              header.mask.bytes)))))))))) header :=
    (readU32Le_readsBack header.nonce).bind
      ((readU64Le_readsBack header.time).bind
        ((readHash_readsBack header.prevBlock).bind
          ((readHash_readsBack header.treeRoot).bind
            ((ReadsBack.exactly (P2pError.parse .unexpectedEof) ExtraNonce.mk
                header.extraNonce.bytes header.extraNonce.length_eq).bind
              ((readHash_readsBack header.reservedRoot).bind
                ((readHash_readsBack header.witnessRoot).bind
                  ((readHash_readsBack header.merkleRoot).bind
                    ((readU32Le_readsBack header.version).bind
                      ((readU32Le_readsBack header.bits).bind
                        (readHash_readsBack header.mask).bind_pure)))))))))
  simpa only [serializeHeader, List.append_assoc] using fields

theorem length_serializeHeader : (serializeHeader header).length = headerSize := by
  simp [serializeHeader, headerSize, header.prevBlock.length_eq, header.treeRoot.length_eq,
    header.extraNonce.length_eq, header.reservedRoot.length_eq, header.witnessRoot.length_eq,
    header.merkleRoot.length_eq, header.mask.length_eq]

theorem parseHeader_serializeHeader : parseHeader (serializeHeader header) = .ok header := by
  have read := (readHeader_readsBack header).eq_ok
  rw [parseHeader, if_neg (not_not.mpr (length_serializeHeader header)), read]
  rfl

theorem readPacketHeader_readsBack :
    ReadsBack readPacketHeader (serializeHeader header) header := by
  have parsed : ReadsBack (Reader.lift (parseHeader (serializeHeader header))) [] header := by
    intro rest
    rw [parseHeader_serializeHeader]
    rfl
  rw [← List.append_nil (serializeHeader header)]
  exact (readBytes_readsBack (length_serializeHeader header)).bind parsed

theorem encodeCounted_eq_ok_iff {limit : Nat} {write : α → Octets} {items : List α} :
    encodeCounted limit write items = .ok octets ↔
      items.length ≤ limit ∧ octets = writeVarint items.length ++ items.flatMap write := by
  rw [encodeCounted, guard_eq_ok_iff, Nat.not_lt, Except.ok.injEq]
  exact and_congr_right fun _ => eq_comm

theorem readCount_readsBack {limit count : Nat} (limit_lt : limit < 2 ^ 64)
    (count_le : count ≤ limit) : ReadsBack (readCount limit) (writeVarint count) count := by
  rw [← List.append_nil (writeVarint count)]
  exact (readVarint_readsBack (count_le.trans_lt limit_lt)).bind
    (ReadsBack.ensure_bind count_le (ReadsBack.pure count))

theorem AddrPacket.decode_readsBack {packet : AddrPacket}
    (representable : ∀ item ∈ packet.items, item.Representable)
    (encoded : packet.encode = .ok octets) : ReadsBack AddrPacket.decode octets packet := by
  rcases encodeCounted_eq_ok_iff.mp encoded with ⟨count_le, rfl⟩
  exact (readCount_readsBack (by decide) count_le).bind
    (ReadsBack.many fun item mem =>
      NetAddress.decode_readsBack (representable item mem)).bind_pure

theorem LocatorPacket.decode_readsBack {packet : LocatorPacket}
    (encoded : packet.encode = .ok octets) : ReadsBack LocatorPacket.decode octets packet := by
  rcases of_bind_ok encoded with ⟨locator, counted, same⟩
  cases same
  rcases encodeCounted_eq_ok_iff.mp counted with ⟨count_le, rfl⟩
  rw [List.append_assoc]
  exact (readCount_readsBack (by decide) count_le).bind
    ((ReadsBack.many fun hash _ => readHash_readsBack hash).bind
      (readHash_readsBack packet.stop).bind_pure)

theorem HeadersPacket.decode_readsBack {packet : HeadersPacket}
    (encoded : packet.encode = .ok octets) : ReadsBack HeadersPacket.decode octets packet := by
  rcases encodeCounted_eq_ok_iff.mp encoded with ⟨count_le, rfl⟩
  exact (readCount_readsBack (by decide) count_le).bind
    (ReadsBack.many fun header _ => readPacketHeader_readsBack header).bind_pure

theorem leNumber_take_leOctets {width number : Nat} (fits : number < 256 ^ width)
    (rest : Octets) : leNumber ((leOctets width number ++ rest).take width) = number := by
  rw [List.take_append_of_le_length (length_leOctets width number).ge,
    List.take_of_length_le (length_leOctets width number).le, leNumber_leOctets fits]

theorem drop_leOctets (width number : Nat) (rest : Octets) :
    (leOctets width number ++ rest).drop width = rest :=
  List.drop_left' (length_leOctets width number)

theorem GetDnsRelayPacket.validate_eq_ok {packet : GetDnsRelayPacket}
    (valid : packet.validate = .ok ()) :
    packet.requestId ≠ 0 ∧ packet.query.length ≤ maxDnsRelayQuerySize := by
  rw [validate, guard_eq_ok_iff, guard_eq_ok_iff, guard_eq_ok_iff] at valid
  exact ⟨valid.1, Nat.le_of_not_lt valid.2.2.1⟩

theorem GetDnsRelayPacket.decode_encode {packet : GetDnsRelayPacket}
    (encoded : packet.encode = .ok octets) : GetDnsRelayPacket.decode octets = .ok packet := by
  rcases of_bind_ok encoded with ⟨⟨⟩, valid, same⟩
  cases same
  rcases validate_eq_ok valid with ⟨id_ne, query_le⟩
  have id_lt : packet.requestId.toNat < 256 ^ 8 := packet.requestId.toNat_lt
  have query_lt : packet.query.length < 256 ^ 2 := Nat.lt_of_le_of_lt query_le (by decide)
  have length_eq : (leOctets 8 packet.requestId.toNat ++ leOctets 2 packet.query.length ++
      packet.query).length = 10 + packet.query.length := by
    simp only [List.length_append, length_leOctets]
  have drop_eq : (leOctets 8 packet.requestId.toNat ++ leOctets 2 packet.query.length ++
      packet.query).drop 10 = packet.query := by
    rw [← List.drop_drop (i := 2) (j := 8)]
    rw [List.append_assoc, drop_leOctets, drop_leOctets]
  have new_eq : GetDnsRelayPacket.new packet.requestId packet.query = .ok packet := by
    rw [GetDnsRelayPacket.new, valid]
    rfl
  rw [GetDnsRelayPacket.decode, length_eq, drop_eq, if_neg (by omega)]
  simp only [List.append_assoc, leNumber_take_leOctets id_lt, drop_leOctets,
    leNumber_take_leOctets query_lt, UInt64.ofNat_toNat, if_neg id_ne,
    if_neg (Nat.not_lt.mpr query_le), Nat.lt_irrefl, if_false, new_eq]

theorem DnsRelayPacket.validate_eq_ok {packet : DnsRelayPacket} (valid : packet.validate = .ok ()) :
    packet.requestId ≠ 0 ∧ packet.response.length ≤ maxDnsRelayResponseSize := by
  rw [validate, guard_eq_ok_iff, guard_eq_ok_iff] at valid
  exact ⟨valid.1, Nat.le_of_not_lt valid.2.1⟩

theorem DnsRelayPacket.decode_encode {packet : DnsRelayPacket}
    (encoded : packet.encode = .ok octets) : DnsRelayPacket.decode octets = .ok packet := by
  rcases of_bind_ok encoded with ⟨⟨⟩, valid, same⟩
  cases same
  rcases validate_eq_ok valid with ⟨id_ne, response_le⟩
  have id_lt : packet.requestId.toNat < 256 ^ 8 := packet.requestId.toNat_lt
  have response_lt : packet.response.length < 256 ^ 2 := Nat.lt_of_le_of_lt response_le (by decide)
  have length_eq : (leOctets 8 packet.requestId.toNat ++ [packet.status.toOctet] ++
      leOctets 2 packet.response.length ++ packet.response).length =
        11 + packet.response.length := by
    simp only [List.length_append, length_leOctets, List.length_singleton]
  have drop_status : (leOctets 8 packet.requestId.toNat ++ [packet.status.toOctet] ++
      leOctets 2 packet.response.length ++ packet.response).drop 8 =
        packet.status.toOctet :: (leOctets 2 packet.response.length ++ packet.response) := by
    simp only [List.append_assoc, drop_leOctets, List.cons_append, List.nil_append]
  have drop_length : (leOctets 8 packet.requestId.toNat ++ [packet.status.toOctet] ++
      leOctets 2 packet.response.length ++ packet.response).drop 9 =
        leOctets 2 packet.response.length ++ packet.response := by
    rw [← List.drop_drop (i := 1) (j := 8), drop_status]
    rfl
  have drop_body : (leOctets 8 packet.requestId.toNat ++ [packet.status.toOctet] ++
      leOctets 2 packet.response.length ++ packet.response).drop 11 = packet.response := by
    rw [← List.drop_drop (i := 2) (j := 9), drop_length, drop_leOctets]
  have take_id : leNumber ((leOctets 8 packet.requestId.toNat ++ [packet.status.toOctet] ++
      leOctets 2 packet.response.length ++ packet.response).take 8) = packet.requestId.toNat := by
    simp only [List.append_assoc, leNumber_take_leOctets id_lt]
  have new_eq : DnsRelayPacket.new packet.requestId packet.status packet.response = .ok packet := by
    rw [DnsRelayPacket.new, valid]
    rfl
  rw [DnsRelayPacket.decode, length_eq, drop_status, drop_length, drop_body, take_id,
    if_neg (by omega), List.headD_cons, DnsRelayStatus.tryFrom_toOctet,
    leNumber_take_leOctets response_lt]
  simp only [UInt64.ofNat_toNat, if_neg id_ne]
  change (if maxDnsRelayResponseSize < packet.response.length then _ else _) = _
  rw [if_neg (Nat.not_lt.mpr response_le), if_neg (Nat.lt_irrefl _), if_neg (Nat.lt_irrefl _),
    new_eq]

theorem Packet.decodeWhole_map {make : α → Packet} {value : α}
    (readsBack : ReadsBack read octets value) :
    Packet.decodeWhole (make <$> read) octets = .ok (make value) := by
  have mapped : (make <$> read) octets = .ok (make value, []) := by
    rw [map_eq_pure_bind, Reader.bind_of_ok readsBack.eq_ok]
    rfl
  rw [Packet.decodeWhole, mapped]
  rfl

theorem Packet.decodePayload_unknown {packetType : UInt8} (unassigned : packetType ∉ assignedTypes)
    (payload : Octets) :
    Packet.decodePayload packetType payload = .ok (.unknown packetType payload) := by
  simp only [assignedTypes, List.mem_cons, List.not_mem_nil, or_false, not_or] at unassigned
  rcases unassigned with ⟨n0, n1, n2, n3, n4, n5, n10, n11, n12, n26, n27, nGet, nRelay⟩
  rw [Packet.decodePayload, if_neg n0, if_neg n1, if_neg n2, if_neg n3, if_neg n4, if_neg n5,
    if_neg n10, if_neg n11, if_neg n12, if_neg n26, if_neg n27, if_neg nGet, if_neg nRelay]

/-- Every packet is read back from its payload. -/
theorem Packet.decodePayload_encodePayload (representable : packet.Representable)
    {payload : Octets} (encoded : packet.encodePayload = .ok payload) :
    Packet.decodePayload packet.rawPacketType payload = .ok packet := by
  cases packet with
  | version packet => exact decodeWhole_map (VersionPacket.decode_readsBack representable encoded)
  | verack =>
    cases encoded
    rfl
  | ping nonce =>
    cases encoded
    exact decodeWhole_map (readNonce_readsBack nonce)
  | pong nonce =>
    cases encoded
    exact decodeWhole_map (readNonce_readsBack nonce)
  | getAddr =>
    cases encoded
    rfl
  | addr packet => exact decodeWhole_map (AddrPacket.decode_readsBack representable encoded)
  | getHeaders packet => exact decodeWhole_map (LocatorPacket.decode_readsBack encoded)
  | headers packet => exact decodeWhole_map (HeadersPacket.decode_readsBack encoded)
  | sendHeaders =>
    cases encoded
    rfl
  | getProof request =>
    cases encoded
    have read : ReadsBack readGetProof (request.root.bytes ++ request.key.bytes)
        (.getProof request) :=
      (readHash_readsBack request.root).bind (readHash_readsBack request.key).bind_pure
    change decodeWhole readGetProof _ = _
    rw [decodeWhole, read.eq_ok]
    rfl
  | proof packet =>
    cases encoded
    have read : readProof (packet.root.bytes ++ packet.key.bytes ++ packet.proof) =
        .ok (.proof packet, []) := by
      rw [readProof, List.append_assoc, Reader.bind_of_ok (readHash_readsBack packet.root _),
        Reader.bind_of_ok (readHash_readsBack packet.key _)]
    change decodeWhole readProof _ = _
    rw [decodeWhole, read]
    rfl
  | getDnsRelay packet =>
    change Packet.getDnsRelay <$> GetDnsRelayPacket.decode payload = _
    rw [GetDnsRelayPacket.decode_encode encoded]
    rfl
  | dnsRelay packet =>
    change Packet.dnsRelay <$> DnsRelayPacket.decode payload = _
    rw [DnsRelayPacket.decode_encode encoded]
    rfl
  | unknown packetType bytes =>
    cases encoded
    exact decodePayload_unknown representable payload

/-- The payload of a relay packet is within the limit of its type. -/
theorem Packet.relayPayload_le (representable : packet.Representable) {payload : Octets}
    (encoded : packet.encodePayload = .ok payload) :
    (packet.rawPacketType = experimentalGetDnsRelay →
        payload.length ≤ maxDnsRelayRequestPayloadSize) ∧
      (packet.rawPacketType = experimentalDnsRelay →
        payload.length ≤ maxDnsRelayResponsePayloadSize) := by
  cases packet with
  | getDnsRelay packet =>
    refine ⟨fun _ => ?_, fun same => (by cases same)⟩
    rcases of_bind_ok encoded with ⟨⟨⟩, valid, same⟩
    cases same
    simp only [List.length_append, length_leOctets]
    exact Nat.add_le_add_left (GetDnsRelayPacket.validate_eq_ok valid).2 _
  | dnsRelay packet =>
    refine ⟨fun same => (by cases same), fun _ => ?_⟩
    rcases of_bind_ok encoded with ⟨⟨⟩, valid, same⟩
    cases same
    simp only [List.length_append, length_leOctets, List.length_singleton]
    exact Nat.add_le_add_left (DnsRelayPacket.validate_eq_ok valid).2 _
  | unknown packetType bytes =>
    constructor
    · rintro rfl
      exact absurd (by decide : experimentalGetDnsRelay ∈ assignedTypes) representable
    · rintro rfl
      exact absurd (by decide : experimentalDnsRelay ∈ assignedTypes) representable
  | _ => exact ⟨fun same => (by cases same), fun same => (by cases same)⟩

theorem FrameHeader.parse_encode (header : FrameHeader) (rest : Octets) :
    FrameHeader.parse (header.encode ++ rest) = .ok header := by
  have magic_lt : header.magic.toNat < 256 ^ 4 := header.magic.toNat_lt
  have length_lt : header.payloadLen.toNat < 256 ^ 4 := header.payloadLen.toNat_lt
  have enough : ¬ (header.encode ++ rest).length < frameHeaderSize := by
    simp only [FrameHeader.encode, frameHeaderSize, List.length_append, length_leOctets,
      List.length_singleton]
    omega
  have drop_type : (header.encode ++ rest).drop 4 =
      header.packetType :: (leOctets 4 header.payloadLen.toNat ++ rest) := by
    simp only [FrameHeader.encode, List.append_assoc, drop_leOctets, List.cons_append,
      List.nil_append]
  have drop_length : (header.encode ++ rest).drop 5 =
      leOctets 4 header.payloadLen.toNat ++ rest := by
    rw [← List.drop_drop (i := 1) (j := 4), drop_type]
    rfl
  have type_eq : (header.encode ++ rest)[4]? = some header.packetType := by
    rw [← List.head?_drop, drop_type]
    rfl
  have magic_eq : leNumber ((header.encode ++ rest).take 4) = header.magic.toNat := by
    simp only [FrameHeader.encode, List.append_assoc, leNumber_take_leOctets magic_lt]
  rw [FrameHeader.parse, if_neg enough, magic_eq, drop_length, type_eq,
    leNumber_take_leOctets length_lt, UInt32.ofNat_toNat, UInt32.ofNat_toNat, Option.getD_some]

theorem FrameHeader.length_encode (header : FrameHeader) :
    header.encode.length = frameHeaderSize := by
  simp only [FrameHeader.encode, List.length_append, length_leOctets, List.length_singleton,
    frameHeaderSize]

/-- A frame is read back, whatever follows it. -/
theorem decodeFrame_encodeFrame {magic : UInt32} (representable : packet.Representable)
    (encoded : encodeFrame magic packet = .ok octets) (rest : Octets) :
    decodeFrame magic (octets ++ rest) = .ok (some (packet, octets.length)) := by
  rcases of_bind_ok encoded with ⟨payload, payload_eq, framed⟩
  rw [guard_eq_ok_iff] at framed
  rcases framed with ⟨notOver, same⟩
  cases same
  have payload_le : payload.length ≤ maxMessage := Nat.le_of_not_lt notOver
  have length_eq : (UInt32.ofNat payload.length).toNat = payload.length := by
    rw [maxMessage] at payload_le
    rw [UInt32.toNat_ofNat']
    omega
  have relay_le := Packet.relayPayload_le representable payload_eq
  rw [decodeFrame_eq_found_iff, List.append_assoc, FrameHeader.parse_encode]
  refine ⟨?_, _, rfl, ?_, ?_, ?_⟩
  · rw [List.length_append, FrameHeader.length_encode]
    exact Nat.le_add_right _ _
  · rw [FrameHeader.frameLen, if_neg (not_not.mpr rfl)]
    simp only [length_eq]
    rw [if_neg notOver, if_neg, if_neg, List.length_append, FrameHeader.length_encode]
    · rintro ⟨isRelay, exceeds⟩
      exact absurd (relay_le.2 isRelay) (Nat.not_le.mpr exceeds)
    · rintro ⟨isRelay, exceeds⟩
      exact absurd (relay_le.1 isRelay) (Nat.not_le.mpr exceeds)
  · rw [← List.append_assoc, @List.length_append _ _ rest]
    exact Nat.le_add_right _ _
  · rw [← List.append_assoc, List.take_left, List.drop_left' (FrameHeader.length_encode _)]
    exact Packet.decodePayload_encodePayload representable payload_eq

end HnsDaneEngine.PeerWire
