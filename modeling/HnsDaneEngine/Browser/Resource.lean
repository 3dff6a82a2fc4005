import HnsDaneEngine.Browser.Dns.Message
import HnsDaneEngine.Control.Simulation
import HnsDaneEngine.Encoding.Base32Hex
import HnsDaneEngine.Encoding.Codec

/-!
# Name resources of the browser

The decoder that turns the resource of a Handshake name into DNS records of an owner.
Names may be compressed as in DNS messages; the names of synthesized servers are made
from their addresses in base32hex.
-/

namespace HnsDaneEngine.Browser

open Codec Control Wire

def defaultHandshakeResourceTtl : UInt32 := 21600

def maxHandshakeResourceRecords : Nat := 128

def maxHandshakeTxtStrings : Nat := 64

/-- Why a resource is refused. -/
inductive ResourceError
  | malformed
  | unsupportedVersion
  | unsupportedRecordType
  | tooManyRecords

/-- Readers over the data; the state is the offset. -/
abbrev CursorRead (α : Type) : Type :=
  StateT Nat (Except ResourceError) α

namespace Cursor

variable (data : Octets)

def readBytes (len : Nat) : CursorRead Octets := fun offset =>
  if data.length < offset + len then .error .malformed
  else .ok ((data.drop offset).take len, offset + len)

def readU8 : CursorRead UInt8 := fun offset =>
  match data[offset]? with
  | none => .error .malformed
  | some byte => .ok (byte, offset + 1)

def readU16Be : CursorRead UInt16 := do
  let bytes ← readBytes data 2
  pure (UInt16.ofNat (leNumber bytes.reverse))

def readLenU8Bytes : CursorRead Octets := do
  let len ← readU8 data
  readBytes data len.toNat

def readName : CursorRead DnsName := fun offset =>
  match DnsName.parseWire data offset with
  | .error _ => .error .malformed
  | .ok (name, next) =>
    if next ≤ offset ∨ data.length < next then .error .malformed else .ok (name, next)

/-- The strings of a text record, each after its length. -/
def readTexts : Nat → CursorRead Octets
  | 0 => pure []
  | count + 1 => do
    let text ← readLenU8Bytes data
    let rdata ← readTexts count
    pure (UInt8.ofNat text.length :: text ++ rdata)

end Cursor

/-- `0123456789abcdefghijklmnopqrstuv`. -/
def base32hexAlphabet : Octets :=
  [48, 49, 50, 51, 52, 53, 54, 55, 56, 57, 97, 98, 99, 100, 101, 102, 103, 104, 105, 106, 107,
    108, 109, 110, 111, 112, 113, 114, 115, 116, 117, 118]

/-- The digit of the low five bits. -/
def base32hexDigitOf (value : UInt32) : UInt8 :=
  base32hexAlphabet[(value &&& 0x1f).toNat]?.getD 0

/-- The inner loop: digits while five bits are pending, and the bits that stay. -/
def takeDigits (buffer : UInt32) (bits : Nat) : Octets × Nat :=
  if 5 ≤ bits then
    let (digits, rest) := takeDigits buffer (bits - 5)
    (base32hexDigitOf (buffer >>> UInt32.ofNat (bits - 5)) :: digits, rest)
  else ([], bits)
termination_by bits

def base32hexNopadFrom (buffer : UInt32) (bits : Nat) : Octets → Octets
  | [] => if 0 < bits then [base32hexDigitOf (buffer <<< UInt32.ofNat (5 - bits))] else []
  | byte :: rest =>
    let buffer := (buffer <<< 8) ||| byte.toUInt32
    let (digits, bits) := takeDigits buffer (bits + 8)
    digits ++ base32hexNopadFrom buffer bits rest

def base32hexNopad (input : Octets) : Octets :=
  base32hexNopadFrom 0 0 input

/-- `_synth`. -/
def synthLabel : Label := [95, 115, 121, 110, 116, 104]

def synthName (address : Octets) : Except ResourceError DnsName :=
  match DnsName.fromAscii
      ('_' :: labelText (base32hexNopad address) ++ '.' :: labelText synthLabel) with
  | .error _ => .error .malformed
  | .ok name => .ok name

def record (name : DnsName) (recordType : RecordType) (ttl : UInt32) (rdata : Octets) :
    ResourceRecord where
  name := name
  recordType := recordType
  class_ := 1
  ttl := ttl
  rdata := rdata

def pushRecord (records : List ResourceRecord) (record : ResourceRecord) :
    Except ResourceError (List ResourceRecord) :=
  if maxHandshakeResourceRecords ≤ records.length then .error .tooManyRecords
  else .ok (records ++ [record])

def nameRdata (name : DnsName) : Except ResourceError Octets :=
  match name.encodeWire with
  | .error _ => .error .malformed
  | .ok rdata => .ok rdata

def isSubdomainOrEqual (name parent : DnsName) : Bool :=
  parent.labels.isSuffixOf name.labels

/-- A computation that reads nothing. -/
def CursorRead.lift {α : Type} (result : Except ResourceError α) : CursorRead α := fun offset =>
  match result with
  | .error error => .error error
  | .ok value => .ok (value, offset)

/-- A server name with its address: the server, and the address when the owner can vouch
for it. -/
def readGlue (data : Octets) (owner : DnsName) (ttl : UInt32) (addressType : RecordType)
    (width : Nat) : CursorRead (List ResourceRecord) := do
  let ns ← Cursor.readName data
  let address ← Cursor.readBytes data width
  let rdata ← CursorRead.lift (nameRdata ns)
  if isSubdomainOrEqual ns owner then
    pure [record owner .ns ttl rdata, record ns addressType ttl address]
  else pure [record owner .ns ttl rdata]

/-- A server whose name is made from its address. -/
def readSynth (data : Octets) (owner : DnsName) (ttl : UInt32) (addressType : RecordType)
    (width : Nat) : CursorRead (List ResourceRecord) := do
  let address ← Cursor.readBytes data width
  let ns ← CursorRead.lift (synthName address)
  let rdata ← CursorRead.lift (nameRdata ns)
  pure [record owner .ns ttl rdata, record ns addressType ttl address]

/-- The records of one entry of the resource. -/
def readEntry (data : Octets) (owner : DnsName) (ttl : UInt32) (kind : UInt8) :
    CursorRead (List ResourceRecord) :=
  match kind.toNat with
  | 0 => do
    let keyTag ← Cursor.readU16Be data
    let algorithm ← Cursor.readU8 data
    let digestType ← Cursor.readU8 data
    let digest ← Cursor.readLenU8Bytes data
    pure [record owner .ds ttl
      ((leOctets 2 keyTag.toNat).reverse ++ algorithm :: digestType :: digest)]
  | 1 => do
    let ns ← Cursor.readName data
    let rdata ← CursorRead.lift (nameRdata ns)
    pure [record owner .ns ttl rdata]
  | 2 => readGlue data owner ttl .a 4
  | 3 => readGlue data owner ttl .aaaa 16
  | 4 => readSynth data owner ttl .a 4
  | 5 => readSynth data owner ttl .aaaa 16
  | 6 => do
    let count ← Cursor.readU8 data
    if maxHandshakeTxtStrings < count.toNat then CursorRead.lift (.error .tooManyRecords)
    else
      let rdata ← Cursor.readTexts data count.toNat
      pure [record owner .txt ttl rdata]
  | _ => CursorRead.lift (.error .unsupportedRecordType)

/-- One round of the decoding loop, over the offset and the records so far. -/
def decodeNextEntry (data : Octets) (owner : DnsName) (ttl : UInt32)
    (state : Nat × List ResourceRecord) : Except ResourceError (Nat × List ResourceRecord) := do
  let (kind, offset) ← Cursor.readU8 data state.1
  let (added, offset) ← readEntry data owner ttl kind offset
  let records ← added.foldlM pushRecord state.2
  .ok (offset, records)

def decodeHandshakeResourceRecordsWithTtl (owner : DnsName) (data : Octets) (ttl : UInt32) :
    Except ResourceError (List ResourceRecord) := do
  let (version, offset) ← Cursor.readU8 data 0
  if version ≠ 0 then .error .unsupportedVersion
  else
    let (_, records) ← repeatUntil (fun state => decide (data.length - state.1 = 0))
      (decodeNextEntry data owner ttl) .malformed data.length (offset, [])
    .ok records

def decodeHandshakeResourceRecords (owner : DnsName) (data : Octets) :
    Except ResourceError (List ResourceRecord) :=
  decodeHandshakeResourceRecordsWithTtl owner data defaultHandshakeResourceTtl

section

variable {data : Octets}

/-- A reader moves forward, inside of the data. -/
def MovesForward {α : Type} (data : Octets) (read : CursorRead α) : Prop :=
  Moves (Forward data.length) read

theorem MovesForward.pure {α : Type} (value : α) : MovesForward data (pure value : CursorRead α) :=
  Moves.pure (Forward.refl _) value

theorem MovesForward.bind {α β : Type} {first : CursorRead α} {next : α → CursorRead β}
    (forward : MovesForward data first) (continue_ : ∀ value, MovesForward data (next value)) :
    MovesForward data (first >>= next) :=
  Moves.bind (fun first second third (left : Forward data.length first second)
    (right : Forward data.length second third) => left.trans right) forward continue_

theorem CursorRead.lift_forward {α : Type} (result : Except ResourceError α) :
    MovesForward data (CursorRead.lift result) := by
  intro offset _ _ read
  cases result with
  | error error => cases read
  | ok value =>
    cases read
    exact Forward.refl _ _

namespace Cursor

theorem readBytes_forward (len : Nat) : MovesForward data (readBytes data len) := by
  intro offset _ _ read _
  obtain ⟨fits, read⟩ := of_guard_ok read
  cases read
  exact ⟨Nat.le_add_right _ _, Nat.not_lt.mp fits⟩

theorem readU8_offset {offset after : Nat} {byte : UInt8}
    (read : readU8 data offset = .ok (byte, after)) :
    after = offset + 1 ∧ after ≤ data.length := by
  unfold readU8 at read
  split at read
  next => cases read
  next found =>
    cases read
    exact ⟨rfl, (List.getElem?_eq_some_iff.mp found).1⟩

theorem readU8_forward : MovesForward data (readU8 data) := by
  intro offset _ _ read _
  obtain ⟨offset_eq, inside⟩ := readU8_offset read
  exact ⟨by omega, inside⟩

theorem readLenU8Bytes_forward : MovesForward data (readLenU8Bytes data) :=
  readU8_forward.bind fun _ => readBytes_forward _

theorem readName_forward : MovesForward data (readName data) := by
  intro offset _ _ read _
  unfold readName at read
  split at read
  next => cases read
  next name next parsed =>
    obtain ⟨inside, read⟩ := of_guard_ok read
    cases read
    exact ⟨(Nat.not_le.mp (not_or.mp inside).1).le, Nat.not_lt.mp (not_or.mp inside).2⟩

theorem readTexts_forward (count : Nat) : MovesForward data (readTexts data count) := by
  induction count with
  | zero => exact MovesForward.pure []
  | succ count ih =>
    exact readLenU8Bytes_forward.bind fun _ => ih.bind fun _ => MovesForward.pure _

end Cursor

open Cursor in
theorem readEntry_forward (owner : DnsName) (ttl : UInt32) (kind : UInt8) :
    MovesForward data (readEntry data owner ttl kind) := by
  have glue (addressType : RecordType) (width : Nat) :
      MovesForward data (readGlue data owner ttl addressType width) := by
    refine readName_forward.bind fun ns => (readBytes_forward width).bind fun _ =>
      (CursorRead.lift_forward _).bind fun _ => ?_
    split
    · exact MovesForward.pure _
    · exact MovesForward.pure _
  have synth (addressType : RecordType) (width : Nat) :
      MovesForward data (readSynth data owner ttl addressType width) :=
    (readBytes_forward width).bind fun _ => (CursorRead.lift_forward _).bind fun _ =>
      (CursorRead.lift_forward _).bind fun _ => MovesForward.pure _
  unfold readEntry
  split
  · exact ((readBytes_forward 2).bind fun _ => MovesForward.pure _).bind fun _ =>
      readU8_forward.bind fun _ => readU8_forward.bind fun _ =>
        readLenU8Bytes_forward.bind fun _ => MovesForward.pure _
  · exact readName_forward.bind fun _ => (CursorRead.lift_forward _).bind fun _ =>
      MovesForward.pure _
  · exact glue .a 4
  · exact glue .aaaa 16
  · exact synth .a 4
  · exact synth .aaaa 16
  · refine readU8_forward.bind fun count => ?_
    split
    · exact CursorRead.lift_forward _
    · exact (readTexts_forward _).bind fun _ => MovesForward.pure _
  · exact CursorRead.lift_forward _

/-- Every round of the decoding loop leaves less of the data. -/
theorem decodeNextEntry_progress {owner : DnsName} {ttl : UInt32}
    {state after : Nat × List ResourceRecord}
    (decoded : decodeNextEntry data owner ttl state = .ok after) :
    after.1 ≤ data.length ∧ data.length - after.1 < data.length - state.1 := by
  obtain ⟨⟨kind, middle⟩, kindRead, rest⟩ := of_bind_ok decoded
  obtain ⟨⟨added, final⟩, entryRead, rest⟩ := of_bind_ok rest
  obtain ⟨records, -, returned⟩ := of_bind_ok rest
  obtain rfl := Except.ok.inj returned
  obtain ⟨offset_eq, middleInside⟩ := Cursor.readU8_offset kindRead
  obtain ⟨later, finalInside⟩ := readEntry_forward owner ttl kind entryRead middleInside
  refine ⟨finalInside, ?_⟩
  dsimp only
  omega

/-- As many rounds as octets are enough for all entries. -/
theorem decodeEntries_of_enough (owner : DnsName) (ttl : UInt32) {offset rounds : Nat}
    (records : List ResourceRecord) (inside : offset ≤ data.length)
    (enough : data.length - offset < rounds) (more : Nat) :
    repeatUntil (fun state => decide (data.length - state.1 = 0)) (decodeNextEntry data owner ttl)
        .malformed (rounds + more) (offset, records) =
      repeatUntil (fun state => decide (data.length - state.1 = 0))
        (decodeNextEntry data owner ttl) .malformed rounds (offset, records) := by
  have progress : ∀ state after : Nat × List ResourceRecord, state.1 ≤ data.length →
      decide (data.length - state.1 = 0) = false →
      decodeNextEntry data owner ttl state = .ok after →
      after.1 ≤ data.length ∧ data.length - after.1 < data.length - state.1 :=
    fun _ _ _ _ decoded => decodeNextEntry_progress decoded
  exact repeatUntil_of_enough progress inside enough more

end

theorem base32hexDigitOf_eq (value : UInt32) :
    base32hexDigitOf value = Base32Hex.digitChar (value.toNat % 32) := by
  have table : ∀ index < 32,
      base32hexAlphabet[index]?.getD 0 = Base32Hex.digitChar index := by decide
  have masked : (value &&& 0x1f).toNat = value.toNat % 32 := by
    rw [UInt32.toNat_and]
    exact Nat.and_two_pow_sub_one_eq_mod value.toNat 5
  rw [base32hexDigitOf, masked]
  exact table _ (Nat.mod_lt _ (by decide))

/-- An octet is shifted in below the pending bits. -/
theorem toNat_shiftLeft_or_octet (buffer : UInt32) (byte : UInt8) :
    ((buffer <<< 8) ||| byte.toUInt32).toNat = buffer.toNat * 256 % 2 ^ 32 + byte.toNat := by
  have kept : (buffer <<< 8).toNat = (buffer.toNat % 2 ^ 24) <<< 8 := by
    simp only [UInt32.toNat_shiftLeft, UInt32.reduceToNat, Nat.shiftLeft_eq, Nat.reduceMod,
      Nat.reducePow]
    omega
  have byteBound : byte.toNat < 2 ^ 8 := byte.toNat_lt
  rw [UInt32.toNat_or, kept, UInt8.toNat_toUInt32, ← Nat.shiftLeft_add_eq_or_of_lt byteBound,
    Nat.shiftLeft_eq]
  omega

theorem toNat_shiftRight_mod (register : UInt32) (bits : Nat) (bound : bits < 8) :
    (register >>> UInt32.ofNat bits).toNat % 32 = register.toNat / 2 ^ bits % 32 := by
  have bits_eq : (UInt32.ofNat bits).toNat % 32 = bits := by
    rw [UInt32.toNat_ofNat']
    omega
  rw [UInt32.toNat_shiftRight, bits_eq, Nat.shiftRight_eq_div_pow]

theorem takeDigits_of_lt {buffer : UInt32} {bits : Nat} (few : bits < 5) :
    takeDigits buffer bits = ([], bits) := by
  rw [takeDigits, if_neg (Nat.not_le.mpr few)]

theorem takeDigits_of_le {buffer : UInt32} {bits : Nat} (enough : 5 ≤ bits) :
    takeDigits buffer bits =
      (base32hexDigitOf (buffer >>> UInt32.ofNat (bits - 5)) :: (takeDigits buffer (bits - 5)).1,
        (takeDigits buffer (bits - 5)).2) := by
  rw [takeDigits, if_pos enough]

/-- The digits are those of the octets, whatever stands above the pending bits of the
buffer. -/
theorem base32hexNopadFrom_eq (buffer : UInt32) (bits : Nat) (bound : bits < 5) (input : Octets) :
    base32hexNopadFrom buffer bits input =
      (Base32Hex.encodeDigits (buffer.toNat % 2 ^ bits) bits input).map Base32Hex.digitChar := by
  induction input generalizing buffer bits with
  | nil =>
    unfold base32hexNopadFrom Base32Hex.encodeDigits
    interval_cases bits
    · rfl
    all_goals
      rw [if_pos (by decide), if_neg (by decide), base32hexDigitOf_eq, List.map_singleton,
        UInt32.toNat_shiftLeft]
      simp only [Nat.shiftLeft_eq, Nat.reduceSub, Nat.reducePow, UInt32.toNat_ofNat', Nat.reduceMod]
      congr 2
      omega
  | cons byte rest ih =>
    have byteBound : byte.toNat < 256 := byte.toNat_lt
    have shifted := toNat_shiftLeft_or_octet buffer byte
    unfold base32hexNopadFrom Base32Hex.encodeDigits
    dsimp only
    generalize (buffer <<< 8) ||| byte.toUInt32 = register at shifted ⊢
    rw [takeDigits_of_le (by omega), show bits + 8 - 5 = bits + 3 by omega]
    rcases Nat.lt_or_ge bits 2 with few | many
    · have digit_eq : register.toNat / 2 ^ (bits + 3) % 32 =
          (buffer.toNat % 2 ^ bits * 256 + byte.toNat) / 2 ^ (bits + 3) := by
        interval_cases bits <;> omega
      have pending_eq : register.toNat % 2 ^ (bits + 3) =
          (buffer.toNat % 2 ^ bits * 256 + byte.toNat) % 2 ^ (bits + 3) := by
        interval_cases bits <;> omega
      rw [takeDigits_of_lt (by omega), if_pos few, base32hexDigitOf_eq,
        toNat_shiftRight_mod register (bits + 3) (by omega), digit_eq,
        ih register (bits + 3) (by omega), pending_eq]
      rfl
    · have first_eq : register.toNat / 2 ^ (bits + 3) % 32 =
          (buffer.toNat % 2 ^ bits * 256 + byte.toNat) / 2 ^ (bits + 3) := by
        interval_cases bits <;> omega
      have second_eq : register.toNat / 2 ^ (bits - 2) % 32 =
          (buffer.toNat % 2 ^ bits * 256 + byte.toNat) / 2 ^ (bits - 2) % 32 := by
        interval_cases bits <;> omega
      have pending_eq : register.toNat % 2 ^ (bits - 2) =
          (buffer.toNat % 2 ^ bits * 256 + byte.toNat) % 2 ^ (bits - 2) := by
        interval_cases bits <;> omega
      rw [takeDigits_of_le (by omega), show bits + 3 - 5 = bits - 2 by omega,
        takeDigits_of_lt (by omega), if_neg (Nat.not_lt.mpr many), base32hexDigitOf_eq,
        base32hexDigitOf_eq, toNat_shiftRight_mod register (bits + 3) (by omega),
        toNat_shiftRight_mod register (bits - 2) (by omega), first_eq, second_eq,
        ih register (bits - 2) (by omega), pending_eq]
      rfl

theorem base32hexNopad_eq (input : Octets) : base32hexNopad input = Base32Hex.encode input := by
  rw [base32hexNopad, base32hexNopadFrom_eq 0 0 (by decide)]
  rfl

theorem length_encodeDigits_le (input : Octets) (pending bits : Nat) :
    (Base32Hex.encodeDigits pending bits input).length ≤ 2 * input.length + 1 := by
  induction input generalizing pending bits with
  | nil =>
    unfold Base32Hex.encodeDigits
    split <;> simp
  | cons byte rest ih =>
    unfold Base32Hex.encodeDigits
    dsimp only
    split
    next =>
      have tail := ih ((pending * 256 + byte.toNat) % 2 ^ (bits + 3)) (bits + 3)
      simp only [List.length_cons]
      omega
    next =>
      have tail := ih ((pending * 256 + byte.toNat) % 2 ^ (bits - 2)) (bits - 2)
      simp only [List.length_cons]
      omega

variable {address : Octets}

/-- Digits are lower-case label octets. -/
theorem isLabelByte_of_mem_encode {byte : UInt8} (byteMem : byte ∈ Base32Hex.encode address) :
    isLabelByte byte = true ∧ toAsciiLowercase byte = byte := by
  have table : ∀ value < 32, isLabelByte (Base32Hex.digitChar value) = true ∧
      toAsciiLowercase (Base32Hex.digitChar value) = Base32Hex.digitChar value := by decide
  obtain ⟨value, valueMem, rfl⟩ := List.mem_map.mp byteMem
  exact table value (Base32Hex.encodeDigits_lt address 0 0 (by decide) (by decide) value valueMem)

theorem validDnsLabels_synth (short : address.length ≤ 16) :
    ValidDnsLabels [0x5f :: Base32Hex.encode address, synthLabel] := by
  have length_le : (Base32Hex.encode address).length ≤ 33 := by
    have digits_le := length_encodeDigits_le address 0 0
    rw [Base32Hex.encode, List.length_map]
    omega
  constructor
  · simp [synthLabel]
  · simp only [List.forall_mem_cons, List.length_cons, maxDnsLabelLen]
    exact ⟨by omega, by decide, nofun⟩
  · simp only [List.forall_mem_cons]
    refine ⟨?_, by decide, nofun⟩
    simp only [isValidDnsLabel, List.all_cons, Bool.or_eq_true, Bool.and_eq_true, List.all_eq_true]
    exact .inr ⟨by decide, fun byte byteMem => (isLabelByte_of_mem_encode byteMem).1⟩
  · simp only [List.forall_mem_cons]
    refine ⟨?_, by decide, nofun⟩
    rw [canonicalLabel, List.map_cons, List.map_congr_left fun byte byteMem =>
      (isLabelByte_of_mem_encode byteMem).2, List.map_id']
    rfl
  · simp only [wireLen_eq_labelOctets, labelOctets, List.map_cons, List.length_cons, List.map_nil,
      List.sum_cons, List.sum_nil, synthLabel, List.length_nil, maxDnsNameLen]
    omega

/-- A synthesized name has the digits of the address in its first label. -/
theorem synthName_labels (short : address.length ≤ 16) {name : DnsName}
    (synthesized : synthName address = .ok name) :
    name.labels = [0x5f :: Base32Hex.encode address, synthLabel] := by
  have text_eq : '_' :: labelText (base32hexNopad address) ++ '.' :: labelText synthLabel =
      joinLabels [0x5f :: Base32Hex.encode address, synthLabel] := by
    rw [base32hexNopad_eq, joinLabels, List.map_cons, List.map_cons, List.map_nil,
      List.intercalate_cons_cons, List.intercalate_singleton, labelText, labelText, labelText,
      List.map_cons]
    simp
  unfold synthName at synthesized
  rw [text_eq, DnsName.fromAscii_joinLabels (validDnsLabels_synth short)] at synthesized
  obtain rfl := Except.ok.inj synthesized
  rfl

end HnsDaneEngine.Browser
