import HnsDaneEngine.Encoding.Incremental
import HnsDaneEngine.PeerWire.Payload

/-!
# Frames

A frame is a header of nine octets and a payload.  The decoder of a connection keeps the
octets of an unfinished frame.
-/

namespace HnsDaneEngine.PeerWire

open Codec Control Incremental

/-- The header of a frame. -/
structure FrameHeader where
  magic : UInt32
  packetType : UInt8
  payloadLen : UInt32

namespace FrameHeader

def encode (header : FrameHeader) : Octets :=
  leOctets 4 header.magic.toNat ++ [header.packetType] ++ leOctets 4 header.payloadLen.toNat

def parse (data : Octets) : Except P2pError FrameHeader :=
  if data.length < frameHeaderSize then .error (.parse .unexpectedEof)
  else
    .ok
      { magic := UInt32.ofNat (leNumber (data.take 4))
        packetType := data[4]?.getD 0
        payloadLen := UInt32.ofNat (leNumber ((data.drop 5).take 4)) }

/-- The length of the frame, if the header is acceptable. -/
def frameLen (magic : UInt32) (header : FrameHeader) : Except P2pError Nat :=
  if header.magic ≠ magic then .error .invalidMagic
  else if maxMessage < header.payloadLen.toNat then .error .messageTooLarge
  else if header.packetType = experimentalGetDnsRelay ∧
      maxDnsRelayRequestPayloadSize < header.payloadLen.toNat then .error .dnsRelayQueryTooLarge
  else if header.packetType = experimentalDnsRelay ∧
      maxDnsRelayResponsePayloadSize < header.payloadLen.toNat then
    .error .dnsRelayResponseTooLarge
  else .ok (frameHeaderSize + header.payloadLen.toNat)

end FrameHeader

def encodeFrame (magic : UInt32) (packet : Packet) : Except P2pError Octets := do
  let payload ← packet.encodePayload
  if maxMessage < payload.length then .error .messageTooLarge
  else
    .ok (FrameHeader.encode
      { magic
        packetType := packet.rawPacketType
        payloadLen := UInt32.ofNat payload.length } ++ payload)

/-- The packet at the front of the data and the length of its frame. -/
def decodeFrame (magic : UInt32) (data : Octets) : Except P2pError (Option (Packet × Nat)) :=
  if data.length < frameHeaderSize then .ok none
  else do
    let header ← FrameHeader.parse data
    let frameLen ← header.frameLen magic
    if data.length < frameLen then .ok none
    else do
      let packet ← Packet.decodePayload header.packetType
        ((data.take frameLen).drop frameHeaderSize)
      .ok (some (packet, frameLen))

/-- The octets that wait for a frame. -/
structure FrameDecoder where
  buffer : Octets
  magic : UInt32

namespace FrameDecoder

def new (magic : UInt32) : FrameDecoder where
  buffer := []
  magic := magic

/-- After a failure the buffer keeps what was added to it. -/
def feed (decoder : FrameDecoder) (data : Octets) : Except P2pError (List Packet) × FrameDecoder :=
  if maxMessage + frameHeaderSize < decoder.buffer.length + data.length then
    (.error .messageTooLarge, decoder)
  else
    let buffer := decoder.buffer ++ data
    match drain (decodeFrame decoder.magic) buffer.length buffer with
    | .error error => (.error error, { decoder with buffer })
    | .ok (packets, rest) => (.ok packets, { decoder with buffer := rest })

/-- Packets delivered by chunk after chunk up to the first error. -/
def feedAll (decoder : FrameDecoder) : List Octets → List Packet × Except P2pError FrameDecoder
  | [] => ([], .ok decoder)
  | data :: chunks =>
    match decoder.feed data with
    | (.error error, _) => ([], .error error)
    | (.ok packets, next) =>
      let later := feedAll next chunks
      (packets ++ later.1, later.2)

end FrameDecoder

section

variable {magic : UInt32} {data : Octets}

theorem FrameHeader.parse_append (enough : frameHeaderSize ≤ data.length) (more : Octets) :
    FrameHeader.parse (data ++ more) = FrameHeader.parse data := by
  have long : ¬ data.length < frameHeaderSize := Nat.not_lt.mpr enough
  have longer : ¬ (data ++ more).length < frameHeaderSize := by
    rw [List.length_append]
    omega
  rw [frameHeaderSize] at enough
  rw [parse, parse, if_neg long, if_neg longer,
    List.take_append_of_le_length (by omega), List.getElem?_append_left (by omega),
    List.drop_append_of_le_length (by omega),
    List.take_append_of_le_length (by rw [List.length_drop]; omega)]

theorem FrameHeader.frameLen_eq_ok {header : FrameHeader} {length : Nat}
    (accepted : header.frameLen magic = .ok length) :
    frameHeaderSize ≤ length ∧ length ≤ maxMessage + frameHeaderSize := by
  rw [frameLen, guard_eq_ok_iff, guard_eq_ok_iff, guard_eq_ok_iff, guard_eq_ok_iff] at accepted
  rcases accepted with ⟨-, notOver, -, -, same⟩
  cases same
  constructor
  · exact Nat.le_add_right _ _
  · rw [Nat.add_comm]
    exact Nat.add_le_add_right (Nat.le_of_not_lt notOver) _

theorem decodeFrame_eq_found_iff {packet : Packet} {used : Nat} :
    decodeFrame magic data = .ok (some (packet, used)) ↔
      frameHeaderSize ≤ data.length ∧ ∃ header, FrameHeader.parse data = .ok header ∧
        header.frameLen magic = .ok used ∧ used ≤ data.length ∧
        Packet.decodePayload header.packetType ((data.take used).drop frameHeaderSize) =
          .ok packet := by
  rw [decodeFrame]
  by_cases short : data.length < frameHeaderSize
  · rw [if_pos short]
    constructor
    · rintro ⟨⟩
    · rintro ⟨enough, -⟩
      exact absurd short (Nat.not_lt.mpr enough)
  rw [if_neg short, bind_eq_ok_iff]
  constructor
  · rintro ⟨header, parsed, found⟩
    rcases of_bind_ok found with ⟨length, accepted, found⟩
    by_cases unfinished : data.length < length
    · rw [if_pos unfinished] at found
      cases found
    · rw [if_neg unfinished] at found
      rcases of_bind_ok found with ⟨decoded, payload_eq, same⟩
      cases same
      exact ⟨Nat.le_of_not_lt short, header, parsed, accepted, Nat.le_of_not_lt unfinished,
        payload_eq⟩
  · rintro ⟨-, header, parsed, accepted, used_le, payload_eq⟩
    refine ⟨header, parsed, bind_eq_ok_iff.mpr ⟨used, accepted, ?_⟩⟩
    rw [if_neg (Nat.not_lt.mpr used_le), payload_eq]
    rfl

theorem decodeFrame_eq_error_iff {error : P2pError} :
    decodeFrame magic data = .error error ↔
      frameHeaderSize ≤ data.length ∧ ∃ header, FrameHeader.parse data = .ok header ∧
        (header.frameLen magic = .error error ∨
          ∃ used, header.frameLen magic = .ok used ∧ used ≤ data.length ∧
            Packet.decodePayload header.packetType ((data.take used).drop frameHeaderSize) =
              .error error) := by
  rw [decodeFrame]
  by_cases short : data.length < frameHeaderSize
  · rw [if_pos short]
    constructor
    · rintro ⟨⟩
    · rintro ⟨enough, -⟩
      exact absurd short (Nat.not_lt.mpr enough)
  have enough := Nat.le_of_not_lt short
  rw [if_neg short, bind_eq_error_iff]
  constructor
  · rintro (unparsed | ⟨header, parsed, failed⟩)
    · rw [FrameHeader.parse, if_neg short] at unparsed
      cases unparsed
    · rcases bind_eq_error_iff.mp failed with rejected | ⟨used, accepted, failed⟩
      · exact ⟨enough, header, parsed, .inl rejected⟩
      by_cases unfinished : data.length < used
      · rw [if_pos unfinished] at failed
        cases failed
      · rw [if_neg unfinished] at failed
        rcases bind_eq_error_iff.mp failed with payload_eq | ⟨packet, -, absurdity⟩
        · exact ⟨enough, header, parsed,
            .inr ⟨used, accepted, Nat.le_of_not_lt unfinished, payload_eq⟩⟩
        · cases absurdity
  · rintro ⟨-, header, parsed, rejected | ⟨used, accepted, used_le, payload_eq⟩⟩
    · exact .inr ⟨header, parsed, bind_eq_error_iff.mpr (.inl rejected)⟩
    · refine .inr ⟨header, parsed, bind_eq_error_iff.mpr (.inr ⟨used, accepted, ?_⟩)⟩
      rw [if_neg (Nat.not_lt.mpr used_le)]
      exact bind_eq_error_iff.mpr (.inl payload_eq)

/-- More data does not change the packet at the front. -/
theorem decodeFrame_local (magic : UInt32) : Decode.Local (decodeFrame magic) where
  nil := rfl
  found_append := by
    intro buffer packet used found more
    rw [decodeFrame_eq_found_iff] at found ⊢
    rcases found with ⟨enough, header, parsed, accepted, used_le, payload_eq⟩
    rw [FrameHeader.parse_append enough, List.length_append, List.take_append_of_le_length used_le]
    exact ⟨Nat.le_add_right_of_le enough, header, parsed, accepted,
      Nat.le_add_right_of_le used_le, payload_eq⟩
  error_append := by
    intro buffer error failed more
    rw [decodeFrame_eq_error_iff] at failed ⊢
    rcases failed with ⟨enough, header, parsed, rejected⟩
    rw [FrameHeader.parse_append enough, List.length_append]
    refine ⟨Nat.le_add_right_of_le enough, header, parsed, ?_⟩
    rcases rejected with rejected | ⟨used, accepted, used_le, payload_eq⟩
    · exact .inl rejected
    · refine .inr ⟨used, accepted, Nat.le_add_right_of_le used_le, ?_⟩
      rw [List.take_append_of_le_length used_le]
      exact payload_eq
  used_pos := by
    intro buffer packet used found
    rcases decodeFrame_eq_found_iff.mp found with ⟨-, header, -, accepted, -⟩
    exact Nat.lt_of_lt_of_le (by decide) (FrameHeader.frameLen_eq_ok accepted).1
  used_le := by
    intro buffer packet used found
    rcases decodeFrame_eq_found_iff.mp found with ⟨-, header, -, -, used_le, -⟩
    exact used_le
  found_take := by
    intro buffer packet used found
    rw [decodeFrame_eq_found_iff] at found ⊢
    rcases found with ⟨enough, header, parsed, accepted, used_le, payload_eq⟩
    have header_le := (FrameHeader.frameLen_eq_ok accepted).1
    have taken : frameHeaderSize ≤ (buffer.take used).length := by
      rw [List.length_take_of_le used_le]
      exact header_le
    have same := FrameHeader.parse_append taken (buffer.drop used)
    rw [List.take_append_drop] at same
    rw [← same, List.take_take, Nat.min_self, List.length_take_of_le used_le]
    exact ⟨header_le, header, parsed, accepted, Nat.le_refl _, payload_eq⟩

/-- An unfinished frame is shorter than the buffer may be. -/
theorem length_lt_of_decodeFrame_none (data : Octets)
    (incomplete : decodeFrame magic data = .ok none) :
    data.length < maxMessage + frameHeaderSize := by
  rw [decodeFrame] at incomplete
  by_cases short : data.length < frameHeaderSize
  · exact Nat.lt_of_lt_of_le short (Nat.le_add_left _ _)
  rw [if_neg short, bind_eq_ok_iff] at incomplete
  rcases incomplete with ⟨header, -, incomplete⟩
  rcases of_bind_ok incomplete with ⟨length, accepted, incomplete⟩
  by_cases unfinished : data.length < length
  · exact Nat.lt_of_lt_of_le unfinished (FrameHeader.frameLen_eq_ok accepted).2
  · rw [if_neg unfinished] at incomplete
    rcases of_bind_ok incomplete with ⟨packet, -, same⟩
    cases same

end

end HnsDaneEngine.PeerWire
