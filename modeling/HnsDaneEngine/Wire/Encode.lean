import HnsDaneEngine.Wire.Parse

/-!
# Encoding messages of the strict wire crate

An encoder returns the octets that the source appends to its output.  All names
are written without compression.
-/

namespace HnsDaneEngine.Wire

open Buffer

def writeU16 (value : UInt16) : Octets :=
  u16Octets value

/-- `u32::to_be_bytes`. -/
def writeU32 (value : UInt32) : Octets :=
  u32Octets value

/-- The `u16` of a length or count. -/
def u16TryFrom (value : Nat) (error : Error) : Except Error UInt16 :=
  if value < 65536 then .ok (UInt16.ofNat value) else .error error

/-- The `u8` of the length of some data. -/
def u8TryFrom (value : Nat) : Except Error UInt8 :=
  if value < 256 then .ok (UInt8.ofNat value) else .error .invalidRdata

def writeCount (count : Nat) : Except Error Octets := do
  return writeU16 (← u16TryFrom count .countLimit)

def encodeStrings : List Octets → Except Error Octets
  | [] => .ok []
  | string :: rest => do
    let length ← u8TryFrom string.length
    let encoded ← encodeStrings rest
    return length :: string ++ encoded

def encodeOptions : List EdnsOption → Except Error Octets
  | [] => .ok []
  | option :: rest => do
    let length ← u16TryFrom option.data.length .invalidEdns
    let encoded ← encodeOptions rest
    return writeU16 option.code ++ writeU16 length ++ option.data ++ encoded

/-- The RRSIG fields before the signer name. -/
def rrsigFields (signature : Rrsig) : Octets :=
  writeU16 signature.typeCovered.code ++ [signature.algorithm, signature.labels] ++
    writeU32 signature.originalTtl ++ writeU32 signature.expiration ++
    writeU32 signature.inception ++ writeU16 signature.keyTag

def soaFields (soa : Soa) : Octets :=
  writeU32 soa.serial ++ writeU32 soa.refresh ++ writeU32 soa.retry ++ writeU32 soa.expire ++
    writeU32 soa.minimum

def encodeRdata (recordType : RecordType) (rdata : Rdata) : Except Error Octets :=
  match recordType, rdata with
  | .a, .a address => .ok address.toList
  | .aaaa, .aaaa address => .ok address.toList
  | .ns, .ns name => name.encode
  | .cname, .cname name => name.encode
  | .soa, .soa soa => do
    let mname ← soa.mname.encode
    let rname ← soa.rname.encode
    return mname ++ rname ++ soaFields soa
  | .mx, .mx mx => do
    let exchange ← mx.exchange.encode
    return writeU16 mx.preference ++ exchange
  | .txt, .txt strings =>
    if strings.isEmpty then .error .invalidRdata else encodeStrings strings
  | .srv, .srv srv => do
    let target ← srv.target.encode
    return writeU16 srv.priority ++ writeU16 srv.weight ++ writeU16 srv.port ++ target
  | .ds, .ds ds => .ok (writeU16 ds.keyTag ++ [ds.algorithm, ds.digestType] ++ ds.digest)
  | .dnskey, .dnskey key =>
    .ok (writeU16 key.flags ++ [key.protocol, key.algorithm] ++ key.publicKey)
  | .rrsig, .rrsig signature => do
    let signer ← signature.signer.encode
    return rrsigFields signature ++ signer ++ signature.signature
  | .nsec, .nsec nsec => do
    let nextDomain ← nsec.nextDomain.encode
    validateTypeBitmaps nsec.typeBitmaps
    return nextDomain ++ nsec.typeBitmaps
  | .nsec3, .nsec3 nsec3 => do
    let saltLen ← u8TryFrom nsec3.salt.length
    let hashLen ← u8TryFrom nsec3.nextHashedOwner.length
    if hashLen = 0 then .error .invalidRdata
    else
      validateTypeBitmaps nsec3.typeBitmaps
      return [nsec3.hashAlgorithm, nsec3.flags] ++ writeU16 nsec3.iterations ++
        (saltLen :: nsec3.salt) ++ (hashLen :: nsec3.nextHashedOwner) ++ nsec3.typeBitmaps
  | .tlsa, .tlsa tlsa =>
    if tlsa.associationData.isEmpty then .error .invalidRdata
    else .ok ([tlsa.usage, tlsa.selector, tlsa.matchingType] ++ tlsa.associationData)
  | .opt, .opt options => encodeOptions options
  | .svcb, .opaqueData raw => .ok raw
  | .https, .opaqueData raw => .ok raw
  | .unknown _, .opaqueData raw => .ok raw
  | _, _ => .error .typeMismatch

def encodeRecord (record : ResourceRecord) : Except Error Octets := do
  let owner ← record.name.encode
  let rdata ← encodeRdata record.recordType record.rdata
  let length ← u16TryFrom rdata.length .encodeLimit
  return owner ++ (writeU16 record.recordType.code ++ writeU16 record.class_ ++
    writeU32 record.ttl ++ writeU16 length) ++ rdata

def encodeQuestion (question : Question) : Except Error Octets := do
  let owner ← question.name.encode
  return owner ++ (writeU16 question.recordType.code ++ writeU16 question.class_)

/-- The octets of items in order. -/
def encodeMany {Item : Type} (encodeItem : Item → Except Error Octets) :
    List Item → Except Error Octets
  | [] => .ok []
  | item :: rest => do
    let first ← encodeItem item
    let later ← encodeMany encodeItem rest
    return first ++ later

/-- Encode all names without compression, enforcing a complete-message bound. -/
def Message.encode (message : Message) (maxMessageLen : Nat) : Except Error Octets := do
  let questionCount ← writeCount message.questions.length
  let answerCount ← writeCount message.answers.length
  let authorityCount ← writeCount message.authorities.length
  let additionalCount ← writeCount message.additionals.length
  let questions ← encodeMany encodeQuestion message.questions
  let answers ← encodeMany encodeRecord message.answers
  let authorities ← encodeMany encodeRecord message.authorities
  let additionals ← encodeMany encodeRecord message.additionals
  let output := writeU16 message.header.id ++ writeU16 message.header.flags.bits ++
    questionCount ++ answerCount ++ authorityCount ++ additionalCount ++ questions ++ answers ++
    authorities ++ additionals
  if maxMessageLen < output.length then .error .encodeLimit else .ok output

/-- Traditional safe DNS-over-UDP payload. -/
def defaultUdpPayload : UInt16 := 1232

/-- DNSSEC OK bit in the EDNS OPT TTL field. -/
def ednsDo : UInt16 := 0x8000

/-- An authoritative-oriented query with DNSSEC OK and no RD bit. -/
def Query.encode (query : Query) (maxMessageLen : Nat) : Except Error Octets :=
  Message.encode
    { header := ⟨query.id, ⟨0⟩, 1, 0, 0, 1⟩
      questions := [query.question]
      answers := []
      authorities := []
      additionals := [⟨Name.root, .opt, defaultUdpPayload, ednsDo.toUInt32, .opt []⟩] }
    maxMessageLen

end HnsDaneEngine.Wire
