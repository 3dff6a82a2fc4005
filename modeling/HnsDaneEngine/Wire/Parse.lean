import HnsDaneEngine.Wire.DecodeName
import HnsDaneEngine.Wire.Message

/-!
# Parsing messages of the strict wire crate

Names in record data may point into the whole message, so that the typed parsers
get the message and the positions of the data.  Lengths and counts stay far below
the machine-integer range, and the checked additions of the source do not fail.
-/

namespace HnsDaneEngine.Wire

open Buffer

def beU16 (bytes : Octets) (offset : Nat) : Except Error UInt16 :=
  match slice bytes offset (offset + 2) with
  | some [high, low] => .ok (u16Of high low)
  | _ => .error .unexpectedEof

def beU32 (bytes : Octets) (offset : Nat) : Except Error UInt32 :=
  match slice bytes offset (offset + 4) with
  | some [first, second, third, fourth] => .ok (u32Of first second third fourth)
  | _ => .error .unexpectedEof

/-- `raw.get(position).ok_or(Error::InvalidRdata)`. -/
def getOctet (raw : Octets) (position : Nat) : Except Error UInt8 :=
  match raw[position]? with
  | some octet => .ok octet
  | none => .error .invalidRdata

/-- `raw.get(start..).ok_or(Error::InvalidRdata)`. -/
def getFrom (raw : Octets) (start : Nat) : Except Error Octets :=
  getRange raw start raw.length .invalidRdata

/-- `raw.try_into()` for an array. -/
def toArray (size : Nat) (raw : Octets) : Except Error (Vector UInt8 size) :=
  if sized : raw.length = size then .ok ⟨raw.toArray, by rw [List.size_toArray, sized]⟩
  else .error .invalidRdata

/-- The loop of `validate_type_bitmaps`.  Every block takes more than two octets,
which bounds the rounds. -/
def validateBlocks (raw : Octets) :
    Nat → Nat → Option UInt8 → Nat → Except Error Nat
  | 0, _, _, blockCount => .ok blockCount
  | rounds + 1, cursor, previousWindow, blockCount =>
    if raw.length ≤ cursor then .ok blockCount
    else do
      let window ← getOctet raw cursor
      let bitmapLen := (← getOctet raw (cursor + 1)).toNat
      if ¬ (1 ≤ bitmapLen ∧ bitmapLen ≤ 32) ∨ previousWindow.any (window ≤ ·) then
        .error .invalidRdata
      else if raw.length < cursor + 2 + bitmapLen then .error .invalidRdata
      else if 256 < blockCount + 1 then .error .invalidRdata
      else validateBlocks raw rounds (cursor + 2 + bitmapLen) (some window) (blockCount + 1)

def validateTypeBitmaps (raw : Octets) : Except Error Unit := do
  let blockCount ← validateBlocks raw raw.length 0 none 0
  if blockCount = 0 then .error .invalidRdata else .ok ()

/-- The loop of `parse_txt`.  Every string takes at least one octet. -/
def parseStrings (raw : Octets) : Nat → Nat → Except Error (List Octets)
  | 0, _ => .ok []
  | rounds + 1, cursor =>
    if raw.length ≤ cursor then .ok []
    else do
      let length := (← getOctet raw cursor).toNat
      let string ← getRange raw (cursor + 1) (cursor + 1 + length) .invalidRdata
      let strings ← parseStrings raw rounds (cursor + 1 + length)
      return string :: strings

def parseTxt (raw : Octets) : Except Error (List Octets) := do
  let strings ← parseStrings raw raw.length 0
  if strings.isEmpty then .error .invalidRdata else .ok strings

/-- The loop of `parse_edns`.  Every option takes at least four octets. -/
def parseOptions (raw : Octets) : Nat → Nat → Except Error (List EdnsOption)
  | 0, _ => .ok []
  | rounds + 1, cursor =>
    if raw.length ≤ cursor then .ok []
    else do
      let header ← getRange raw cursor (cursor + 4) .invalidEdns
      match beU16 header 0, beU16 header 2 with
      | .ok code, .ok length =>
        let dataEnd := cursor + 4 + length.toNat
        let data ← getRange raw (cursor + 4) dataEnd .invalidEdns
        let options ← parseOptions raw rounds dataEnd
        return ⟨code, data⟩ :: options
      | _, _ => .error .invalidEdns

def parseEdns (raw : Octets) : Except Error (List EdnsOption) :=
  parseOptions raw raw.length 0

def parseDs (raw : Octets) : Except Error Ds :=
  if raw.length < 5 then .error .invalidRdata
  else do
    return {
      keyTag := ← beU16 raw 0
      algorithm := ← getOctet raw 2
      digestType := ← getOctet raw 3
      digest := ← getFrom raw 4 }

def parseDnskey (raw : Octets) : Except Error Dnskey :=
  if raw.length < 5 then .error .invalidRdata
  else do
    return {
      flags := ← beU16 raw 0
      protocol := ← getOctet raw 2
      algorithm := ← getOctet raw 3
      publicKey := ← getFrom raw 4 }

def parseTlsa (raw : Octets) : Except Error Tlsa :=
  if raw.length < 4 then .error .invalidRdata
  else do
    return {
      usage := ← getOctet raw 0
      selector := ← getOctet raw 1
      matchingType := ← getOctet raw 2
      associationData := ← getFrom raw 3 }

def parseNsec3 (raw : Octets) : Except Error Nsec3 :=
  if raw.length < 6 then .error .invalidRdata
  else do
    let saltLen := (← getOctet raw 4).toNat
    let saltEnd := 5 + saltLen
    let hashLen := (← getOctet raw saltEnd).toNat
    if hashLen = 0 then .error .invalidRdata
    else
      let hashStart := saltEnd + 1
      let hashEnd := hashStart + hashLen
      let bitmap ← getFrom raw hashEnd
      validateTypeBitmaps bitmap
      return {
        hashAlgorithm := ← getOctet raw 0
        flags := ← getOctet raw 1
        iterations := ← beU16 raw 2
        salt := ← getRange raw 5 saltEnd .invalidRdata
        nextHashedOwner := ← getRange raw hashStart hashEnd .invalidRdata
        typeBitmaps := bitmap }

section

variable (message : Octets) (start stop : Nat) (limits : ParseLimits)

/-- A name that takes all data. -/
def parseExactName : Except Error Name := do
  let (name, next) ← decodeName message start stop limits
  if next ≠ stop then .error .invalidRdata else .ok name

def parseSoa : Except Error Soa := do
  let (mname, next) ← decodeName message start stop limits
  let (rname, next) ← decodeName message next stop limits
  let fixedEnd := next + 20
  let fixed ← getRange message next fixedEnd .invalidRdata
  if fixedEnd ≠ stop then .error .invalidRdata
  else
    return {
      mname := mname
      rname := rname
      serial := ← beU32 fixed 0
      refresh := ← beU32 fixed 4
      retry := ← beU32 fixed 8
      expire := ← beU32 fixed 12
      minimum := ← beU32 fixed 16 }

def parseMx : Except Error Mx := do
  let raw ← getRange message start stop .invalidRdata
  let preference ← beU16 raw 0
  let (exchange, next) ← decodeName message (start + 2) stop limits
  if next ≠ stop then .error .invalidRdata else .ok ⟨preference, exchange⟩

def parseSrv : Except Error Srv := do
  let raw ← getRange message start stop .invalidRdata
  let (target, next) ← decodeName message (start + 6) stop limits
  if next ≠ stop then .error .invalidRdata
  else
    return {
      priority := ← beU16 raw 0
      weight := ← beU16 raw 2
      port := ← beU16 raw 4
      target := target }

def parseRrsig : Except Error Rrsig := do
  let fixedEnd := start + 18
  let fixed ← getRange message start fixedEnd .invalidRdata
  let (signer, next) ← decodeName message fixedEnd stop limits
  let signature ← getRange message next stop .invalidRdata
  if signature.isEmpty then .error .invalidRdata
  else
    return {
      typeCovered := .fromCode (← beU16 fixed 0)
      algorithm := ← getOctet fixed 2
      labels := ← getOctet fixed 3
      originalTtl := ← beU32 fixed 4
      expiration := ← beU32 fixed 8
      inception := ← beU32 fixed 12
      keyTag := ← beU16 fixed 16
      signer := signer
      signature := signature }

def parseNsec : Except Error Nsec := do
  let (nextDomain, next) ← decodeName message start stop limits
  let bitmap ← getRange message next stop .invalidRdata
  validateTypeBitmaps bitmap
  return ⟨nextDomain, bitmap⟩

def parseRdata (recordType : RecordType) : Except Error Rdata := do
  let raw ← getRange message start stop .unexpectedEof
  match recordType with
  | .a => return .a (← toArray 4 raw)
  | .aaaa => return .aaaa (← toArray 16 raw)
  | .ns => return .ns (← parseExactName message start stop limits)
  | .cname => return .cname (← parseExactName message start stop limits)
  | .soa => return .soa (← parseSoa message start stop limits)
  | .mx => return .mx (← parseMx message start stop limits)
  | .txt => return .txt (← parseTxt raw)
  | .srv => return .srv (← parseSrv message start stop limits)
  | .ds => return .ds (← parseDs raw)
  | .dnskey => return .dnskey (← parseDnskey raw)
  | .rrsig => return .rrsig (← parseRrsig message start stop limits)
  | .nsec => return .nsec (← parseNsec message start stop limits)
  | .nsec3 => return .nsec3 (← parseNsec3 raw)
  | .tlsa => return .tlsa (← parseTlsa raw)
  | .opt => return .opt (← parseEdns raw)
  | .svcb | .https | .unknown _ => return .opaqueData raw

end

section

variable (message : Octets) (limits : ParseLimits)

def parseRecord (offset : Nat) : Except Error (ResourceRecord × Nat) := do
  let (name, cursor) ← decodeName message offset message.length limits
  let fixed ← getRange message cursor (cursor + 10) .unexpectedEof
  let recordType := RecordType.fromCode (← beU16 fixed 0)
  let class_ ← beU16 fixed 2
  let ttl ← beU32 fixed 4
  let rdataLen := (← beU16 fixed 8).toNat
  if limits.maxRdataLen < rdataLen then .error .rdataLimit
  else
    let rdataStart := cursor + 10
    let rdataEnd := rdataStart + rdataLen
    let _ ← getRange message rdataStart rdataEnd .unexpectedEof
    let rdata ← parseRdata message rdataStart rdataEnd limits recordType
    return (⟨name, recordType, class_, ttl, rdata⟩, rdataEnd)

def parseQuestion (offset : Nat) : Except Error (Question × Nat) := do
  let (name, cursor) ← decodeName message offset message.length limits
  let fixed ← getRange message cursor (cursor + 4) .unexpectedEof
  return (⟨name, .fromCode (← beU16 fixed 0), ← beU16 fixed 2⟩, cursor + 4)

/-- A number of items that follow each other in a message. -/
def parseMany {Item : Type} (parseItem : Nat → Except Error (Item × Nat)) :
    Nat → Nat → Except Error (List Item × Nat)
  | 0, cursor => .ok ([], cursor)
  | count + 1, cursor => do
    let (item, next) ← parseItem cursor
    let (items, stop) ← parseMany parseItem count next
    return (item :: items, stop)

def parseRecords (cursor : Nat) (count : UInt16) : Except Error (List ResourceRecord × Nat) :=
  parseMany (parseRecord message limits) count.toNat cursor

def Header.parse : Except Error Header := do
  let bytes ← getRange message 0 12 .unexpectedEof
  return {
    id := ← beU16 bytes 0
    flags := ⟨← beU16 bytes 2⟩
    questionCount := ← beU16 bytes 4
    answerCount := ← beU16 bytes 6
    authorityCount := ← beU16 bytes 8
    additionalCount := ← beU16 bytes 10 }

/-- The loop of `validate_pseudo_records` over the additional records, with the
number of OPT records so far. -/
def validateAdditionals : Nat → List ResourceRecord → Except Error Unit
  | _, [] => .ok ()
  | optCount, record :: rest =>
    if record.recordType = .opt then
      if 1 < optCount + 1 ∨ record.name ≠ .root then .error .invalidEdns
      else validateAdditionals (optCount + 1) rest
    else validateAdditionals optCount rest

def validatePseudoRecords (message : Message) : Except Error Unit :=
  if (message.answers ++ message.authorities).any (·.recordType = .opt) then .error .invalidEdns
  else validateAdditionals 0 message.additionals

/-- The sections after a header. -/
def parseSections (header : Header) : Except Error Message := do
  let (questions, cursor) ← parseMany (parseQuestion message limits) header.questionCount.toNat 12
  let (answers, next) ← parseRecords message limits cursor header.answerCount
  let (authorities, next) ← parseRecords message limits next header.authorityCount
  let (additionals, next) ← parseRecords message limits next header.additionalCount
  if next ≠ message.length then .error .trailingBytes
  else
    let parsed : Message := ⟨header, questions, answers, authorities, additionals⟩
    validatePseudoRecords parsed
    return parsed

/-- Parse with explicit limits. -/
def Message.parseWithLimits : Except Error Message :=
  if limits.maxMessageLen < message.length ∨ 65535 < message.length then .error .messageTooLong
  else do
    let header ← Header.parse message
    if header.flags.bits &&& 0x0040 ≠ 0 then .error .reservedHeaderBits
    else if limits.maxQuestions < header.questionCount.toNat then .error .countLimit
    else if limits.maxRecords < header.answerCount.toNat + header.authorityCount.toNat +
        header.additionalCount.toNat then .error .countLimit
    else parseSections message limits header

/-- Parse with browser production limits. -/
def Message.parse : Except Error Message :=
  parseWithLimits message .browser

end

end HnsDaneEngine.Wire
