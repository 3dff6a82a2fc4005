import HnsDaneEngine.Wire.Name

/-!
# Records, messages and queries of the strict wire crate
-/

namespace HnsDaneEngine.Wire

/-- DNS class IN. -/
def classIn : UInt16 := 1

/-- DNS resource-record type. -/
inductive RecordType
  | a
  | ns
  | cname
  | soa
  | mx
  | txt
  | aaaa
  | srv
  | ds
  | opt
  | rrsig
  | nsec
  | dnskey
  | nsec3
  | tlsa
  | svcb
  | https
  | unknown (code : UInt16)
  deriving DecidableEq

namespace RecordType

/-- Convert a wire code. -/
def fromCode (code : UInt16) : RecordType :=
  match code.toNat with
  | 1 => .a
  | 2 => .ns
  | 5 => .cname
  | 6 => .soa
  | 15 => .mx
  | 16 => .txt
  | 28 => .aaaa
  | 33 => .srv
  | 41 => .opt
  | 43 => .ds
  | 46 => .rrsig
  | 47 => .nsec
  | 48 => .dnskey
  | 50 => .nsec3
  | 52 => .tlsa
  | 64 => .svcb
  | 65 => .https
  | _ => .unknown code

/-- Convert to a wire code. -/
def code : RecordType → UInt16
  | .a => 1
  | .ns => 2
  | .cname => 5
  | .soa => 6
  | .mx => 15
  | .txt => 16
  | .aaaa => 28
  | .srv => 33
  | .opt => 41
  | .ds => 43
  | .rrsig => 46
  | .nsec => 47
  | .dnskey => 48
  | .nsec3 => 50
  | .tlsa => 52
  | .svcb => 64
  | .https => 65
  | .unknown value => value

end RecordType

abbrev Ipv4Addr := Vector UInt8 4

abbrev Ipv6Addr := Vector UInt8 16

/-- The data of an SOA record. -/
structure Soa where
  mname : Name
  rname : Name
  serial : UInt32
  refresh : UInt32
  retry : UInt32
  expire : UInt32
  minimum : UInt32
  deriving DecidableEq

/-- The data of an MX record. -/
structure Mx where
  preference : UInt16
  exchange : Name
  deriving DecidableEq

/-- The data of an SRV record. -/
structure Srv where
  priority : UInt16
  weight : UInt16
  port : UInt16
  target : Name
  deriving DecidableEq

/-- The data of a DS record. -/
structure Ds where
  keyTag : UInt16
  algorithm : UInt8
  digestType : UInt8
  digest : Octets
  deriving DecidableEq

/-- The data of a DNSKEY record. -/
structure Dnskey where
  flags : UInt16
  protocol : UInt8
  algorithm : UInt8
  publicKey : Octets
  deriving DecidableEq

/-- The data of an RRSIG record. -/
structure Rrsig where
  typeCovered : RecordType
  algorithm : UInt8
  labels : UInt8
  originalTtl : UInt32
  expiration : UInt32
  inception : UInt32
  keyTag : UInt16
  signer : Name
  signature : Octets
  deriving DecidableEq

/-- The data of an NSEC record. -/
structure Nsec where
  nextDomain : Name
  typeBitmaps : Octets
  deriving DecidableEq

/-- The data of an NSEC3 record. -/
structure Nsec3 where
  hashAlgorithm : UInt8
  flags : UInt8
  iterations : UInt16
  salt : Octets
  nextHashedOwner : Octets
  typeBitmaps : Octets
  deriving DecidableEq

/-- The data of a TLSA record. -/
structure Tlsa where
  usage : UInt8
  selector : UInt8
  matchingType : UInt8
  associationData : Octets
  deriving DecidableEq

/-- One option of EDNS. -/
structure EdnsOption where
  code : UInt16
  data : Octets
  deriving DecidableEq

/-- Parsed or preserved resource-record data. -/
inductive Rdata
  | a (address : Ipv4Addr)
  | aaaa (address : Ipv6Addr)
  | ns (name : Name)
  | cname (name : Name)
  | soa (soa : Soa)
  | mx (mx : Mx)
  | txt (strings : List Octets)
  | srv (srv : Srv)
  | ds (ds : Ds)
  | dnskey (key : Dnskey)
  | rrsig (signature : Rrsig)
  | nsec (nsec : Nsec)
  | nsec3 (nsec3 : Nsec3)
  | tlsa (tlsa : Tlsa)
  | opt (options : List EdnsOption)
  | opaqueData (raw : Octets)
  deriving DecidableEq

/-- One DNS resource record. -/
structure ResourceRecord where
  name : Name
  recordType : RecordType
  class_ : UInt16
  ttl : UInt32
  rdata : Rdata
  deriving DecidableEq

/-- The names in record data, in the order of the data. -/
def Rdata.names : Rdata → List Name
  | .ns name | .cname name => [name]
  | .soa data => [data.mname, data.rname]
  | .mx data => [data.exchange]
  | .srv data => [data.target]
  | .rrsig data => [data.signer]
  | .nsec data => [data.nextDomain]
  | _ => []

/-- DNS header flags. -/
structure Flags where
  bits : UInt16
  deriving DecidableEq

namespace Flags

def isResponse (flags : Flags) : Bool :=
  flags.bits &&& 0x8000 != 0

def opcode (flags : Flags) : UInt16 :=
  (flags.bits >>> 11) &&& 0x0f

def truncated (flags : Flags) : Bool :=
  flags.bits &&& 0x0200 != 0

def rcode (flags : Flags) : UInt16 :=
  flags.bits &&& 0x000f

end Flags

/-- The header of a message. -/
structure Header where
  id : UInt16
  flags : Flags
  questionCount : UInt16
  answerCount : UInt16
  authorityCount : UInt16
  additionalCount : UInt16
  deriving DecidableEq

/-- A question of a message. -/
structure Question where
  name : Name
  recordType : RecordType
  class_ : UInt16
  deriving DecidableEq

/-- Complete parsed DNS message. -/
structure Message where
  header : Header
  questions : List Question
  answers : List ResourceRecord
  authorities : List ResourceRecord
  additionals : List ResourceRecord
  deriving DecidableEq

/-- A validated single-question standard query. -/
structure Query where
  id : UInt16
  question : Question

namespace Query

/-- Correlate a parsed response to this exact query. -/
def correlate (query : Query) (response : Message) : Except Error Unit :=
  if !response.header.flags.isResponse then .error .notResponse
  else if response.header.id ≠ query.id then .error .idMismatch
  else if response.header.flags.opcode ≠ 0 then .error .opcodeMismatch
  else if response.header.flags.truncated then .error .truncated
  else if response.questions ≠ [query.question] then .error .questionMismatch
  else .ok ()

end Query

end HnsDaneEngine.Wire
