import HnsDaneEngine.Browser.Dns.Name

/-!
# Records and messages of the browser DNS module

Record data stays raw, except that names which may be compressed are expanded
when a record is parsed, so that stored data does not refer to a message.
-/

namespace HnsDaneEngine.Browser

def maxRdataLen : Nat := 65535

def maxDnsQuestions : Nat := 16

def maxDnsRecords : Nat := 2048

/-- DNS resource-record type. -/
inductive RecordType
  | a
  | ns
  | cname
  | soa
  | txt
  | aaaa
  | srv
  | ds
  | rrsig
  | nsec
  | dnskey
  | nsec3
  | tlsa
  | svcb
  | https
  | unknown (code : UInt16)
  deriving DecidableEq

namespace RecordType

def fromCode (code : UInt16) : RecordType :=
  match code.toNat with
  | 1 => .a
  | 2 => .ns
  | 5 => .cname
  | 6 => .soa
  | 16 => .txt
  | 28 => .aaaa
  | 33 => .srv
  | 43 => .ds
  | 46 => .rrsig
  | 47 => .nsec
  | 48 => .dnskey
  | 50 => .nsec3
  | 52 => .tlsa
  | 64 => .svcb
  | 65 => .https
  | _ => .unknown code

def code : RecordType → UInt16
  | .a => 1
  | .ns => 2
  | .cname => 5
  | .soa => 6
  | .txt => 16
  | .aaaa => 28
  | .srv => 33
  | .ds => 43
  | .rrsig => 46
  | .nsec => 47
  | .dnskey => 48
  | .nsec3 => 50
  | .tlsa => 52
  | .svcb => 64
  | .https => 65
  | .unknown value => value

end RecordType

/-- A record with uninterpreted data. -/
structure ResourceRecord where
  name : DnsName
  recordType : RecordType
  class_ : UInt16
  ttl : UInt32
  rdata : Octets
  deriving DecidableEq

/-- The flags of a message. -/
structure DnsFlags where
  bits : UInt16

variable (flags : DnsFlags)

namespace DnsFlags

def isResponse : Bool :=
  flags.bits &&& 0x8000 != 0

def opcode : UInt8 :=
  (flags.bits >>> 11 &&& 0x0f).toUInt8

def truncated : Bool :=
  flags.bits &&& 0x0200 != 0

def rcode : UInt8 :=
  (flags.bits &&& 0x000f).toUInt8

end DnsFlags

/-- The header of a message. -/
structure DnsHeader where
  id : UInt16
  flags : DnsFlags
  questionCount : UInt16
  answerCount : UInt16
  authorityCount : UInt16
  additionalCount : UInt16

/-- A question of a message. -/
structure DnsQuestion where
  name : DnsName
  recordType : RecordType
  class_ : UInt16
  deriving DecidableEq

/-- A parsed message. -/
structure DnsMessage where
  header : DnsHeader
  questions : List DnsQuestion
  answers : List ResourceRecord
  authorities : List ResourceRecord
  additionals : List ResourceRecord

/-- `u16::from_be_bytes`. -/
def u16FromBe (high low : UInt8) : UInt16 :=
  high.toUInt16 <<< 8 ||| low.toUInt16

/-- `u32::from_be_bytes`. -/
def u32FromBe (first second third fourth : UInt8) : UInt32 :=
  first.toUInt32 <<< 24 ||| second.toUInt32 <<< 16 ||| third.toUInt32 <<< 8 ||| fourth.toUInt32

/-- `slice.get(start..stop)`. -/
def slice (bytes : Octets) (start stop : Nat) : Option Octets :=
  if start ≤ stop ∧ stop ≤ bytes.length then some ((bytes.drop start).take (stop - start))
  else none

def normalizeExactNameRdata (message : Octets) (start stop : Nat) :
    Except ParseError Octets := do
  let (name, next) ← DnsName.parseWire message start
  if stop < next then throw .unexpectedEof
  else if next ≠ stop then throw .trailingBytes
  else name.encodeWire

def normalizeSoaRdata (message : Octets) (start stop : Nat) :
    Except ParseError Octets := do
  let (mname, rnameStart) ← DnsName.parseWire message start
  if stop < rnameStart then throw .unexpectedEof
  else
    let (rname, fixedStart) ← DnsName.parseWire message rnameStart
    if stop < fixedStart then throw .unexpectedEof
    else if stop - fixedStart < 20 then throw .unexpectedEof
    else if 20 < stop - fixedStart then throw .trailingBytes
    else
      let mnameWire ← mname.encodeWire
      let rnameWire ← rname.encodeWire
      match slice message fixedStart stop with
      | some timers => return mnameWire ++ rnameWire ++ timers
      | none => throw .unexpectedEof

def normalizePrefixedNameRdata (message : Octets) (start stop fixedLen : Nat) :
    Except ParseError Octets :=
  let nameStart := start + fixedLen
  if stop ≤ nameStart then .error .unexpectedEof
  else do
    let (name, next) ← DnsName.parseWire message nameStart
    if stop < next then throw .unexpectedEof
    else
      let nameWire ← name.encodeWire
      match slice message start nameStart, slice message next stop with
      | some fixed, some rest => return fixed ++ nameWire ++ rest
      | _, _ => throw .unexpectedEof

/-- Compressed names are expanded in NS, CNAME and SOA data, and in RRSIG data
when the signer name starts with a pointer. -/
def normalizeRecordRdata (message : Octets) (start stop : Nat) (recordType : RecordType)
    (rdata : Octets) : Except ParseError Octets :=
  match recordType with
  | .ns | .cname => normalizeExactNameRdata message start stop
  | .soa => normalizeSoaRdata message start stop
  | .rrsig =>
    match rdata[18]? with
    | some byte =>
      if byte &&& 0xc0 = 0xc0 then normalizePrefixedNameRdata message start stop 18
      else .ok rdata
    | none => .ok rdata
  | _ => .ok rdata

/-- `ResourceRecord::parse`: the record at an offset of a message and the offset
after it. -/
def ResourceRecord.parse (message : Octets) (offset : Nat) :
    Except ParseError (ResourceRecord × Nat) := do
  let (name, cursor) ← DnsName.parseWire message offset
  match slice message cursor (cursor + 10) with
  | some [type0, type1, class0, class1, ttl0, ttl1, ttl2, ttl3, length0, length1] =>
    let recordType := RecordType.fromCode (u16FromBe type0 type1)
    let rdlength := (u16FromBe length0 length1).toNat
    let start := cursor + 10
    let stop := start + rdlength
    if maxRdataLen < rdlength then throw .lengthLimit
    else
      match slice message start stop with
      | none => throw .unexpectedEof
      | some raw =>
        let rdata ← normalizeRecordRdata message start stop recordType raw
        return (⟨name, recordType, u16FromBe class0 class1, u32FromBe ttl0 ttl1 ttl2 ttl3,
          rdata⟩, stop)
  | _ => throw .unexpectedEof

def DnsQuestion.parse (message : Octets) (offset : Nat) :
    Except ParseError (DnsQuestion × Nat) := do
  let (name, cursor) ← DnsName.parseWire message offset
  match slice message cursor (cursor + 4) with
  | some [type0, type1, class0, class1] =>
    return (⟨name, .fromCode (u16FromBe type0 type1), u16FromBe class0 class1⟩, cursor + 4)
  | _ => throw .unexpectedEof

def DnsHeader.parse (data : Octets) : Except ParseError DnsHeader :=
  match data with
  | id0 :: id1 :: flags0 :: flags1 :: question0 :: question1 :: answer0 :: answer1 ::
      authority0 :: authority1 :: additional0 :: additional1 :: _ =>
      .ok {
        id := u16FromBe id0 id1
        flags := ⟨u16FromBe flags0 flags1⟩
        questionCount := u16FromBe question0 question1
        answerCount := u16FromBe answer0 answer1
        authorityCount := u16FromBe authority0 authority1
        additionalCount := u16FromBe additional0 additional1 }
  | _ => .error .unexpectedEof

/-- A number of items that follow each other in a message. -/
def parseMany {Item : Type} (parseItem : Nat → Except ParseError (Item × Nat)) :
    Nat → Nat → Except ParseError (List Item × Nat)
  | 0, cursor => .ok ([], cursor)
  | count + 1, cursor => do
    let (item, next) ← parseItem cursor
    let (items, stop) ← parseMany parseItem count next
    return (item :: items, stop)

def parseRecords (message : Octets) (cursor : Nat) (count : UInt16) :
    Except ParseError (List ResourceRecord × Nat) :=
  parseMany (ResourceRecord.parse message) count.toNat cursor

/-- The sections after a header. -/
def parseSections (message : Octets) (header : DnsHeader) :
    Except ParseError DnsMessage := do
  let (questions, cursor) ←
    parseMany (DnsQuestion.parse message) header.questionCount.toNat 12
  let (answers, next) ← parseRecords message cursor header.answerCount
  let (authorities, next) ← parseRecords message next header.authorityCount
  let (additionals, next) ← parseRecords message next header.additionalCount
  if next ≠ message.length then throw .trailingBytes
  else return ⟨header, questions, answers, authorities, additionals⟩

def DnsMessage.parse (message : Octets) : Except ParseError DnsMessage :=
  if message.length < 12 then .error .unexpectedEof
  else
    match DnsHeader.parse (message.take 12) with
    | .error error => .error error
    | .ok header =>
      if maxDnsQuestions < header.questionCount.toNat then .error .lengthLimit
      else if maxDnsRecords < header.answerCount.toNat + header.authorityCount.toNat +
          header.additionalCount.toNat then .error .lengthLimit
      else parseSections message header

def writeU16Be (value : UInt16) : Octets :=
  Frame.u16 value.toNat

/-- A number is read back from its octets. -/
theorem u16FromBe_writeU16Be (value : UInt16) :
    u16FromBe (UInt8.ofNat (value.toNat / 256)) (UInt8.ofNat (value.toNat % 256)) = value :=
  Buffer.u16Of_u16Octets value

def writeU32Be (value : UInt32) : Octets :=
  [(value >>> 24).toUInt8, (value >>> 16).toUInt8, (value >>> 8).toUInt8, value.toUInt8]

def ResourceRecord.encode (record : ResourceRecord) : Except ParseError Octets :=
  if 65535 < record.rdata.length then .error .lengthLimit
  else do
    let owner ← record.name.encodeWire
    return owner ++ writeU16Be record.recordType.code ++ writeU16Be record.class_ ++
      writeU32Be record.ttl ++ Frame.u16 record.rdata.length ++ record.rdata

def DnsQuestion.encode (question : DnsQuestion) : Except ParseError Octets := do
  let owner ← question.name.encodeWire
  return owner ++ writeU16Be question.recordType.code ++ writeU16Be question.class_

def DnsMessage.totalRecords (message : DnsMessage) : Nat :=
  message.answers.length + message.authorities.length + message.additionals.length

def DnsMessage.encode (message : DnsMessage) (maxMessageLen : Nat) : Except ParseError Octets :=
  if maxDnsQuestions < message.questions.length ∨ maxDnsRecords < message.totalRecords then
    .error .lengthLimit
  else do
    let questions ← message.questions.mapM DnsQuestion.encode
    let answers ← message.answers.mapM ResourceRecord.encode
    let authorities ← message.authorities.mapM ResourceRecord.encode
    let additionals ← message.additionals.mapM ResourceRecord.encode
    let out := writeU16Be message.header.id ++ writeU16Be message.header.flags.bits ++
      Frame.u16 message.questions.length ++ Frame.u16 message.answers.length ++
      Frame.u16 message.authorities.length ++ Frame.u16 message.additionals.length ++
      questions.flatten ++ answers.flatten ++ authorities.flatten ++ additionals.flatten
    if maxMessageLen < out.length then throw .lengthLimit else return out

end HnsDaneEngine.Browser
