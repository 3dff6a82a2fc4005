import HnsDaneEngine.Browser.Dns.Svcb
import HnsDaneEngine.Control.Except
import HnsDaneEngine.Dnssec.Core
import HnsDaneEngine.Encoding.Base32Hex

/-!
# DNSSEC record data of the browser validator

The `hns-browser-dnssec` crate parses DNSKEY, DS, RRSIG, NSEC and NSEC3 data
from raw record data when a check needs it.  Type bitmaps are validated again
whenever a bit is looked up, and owner hashes are decoded with a register whose
upper bits are never cleared.
-/

namespace HnsDaneEngine.Browser.Dnssec

open Control TypeBitmap Wire

/-- Result of a check that could be carried out. -/
inductive DnssecStatus
  | secure
  | insecureDelegation
  | bogus
  deriving DecidableEq

/-- Failures of the browser validator. -/
inductive DnssecError
  | unsupportedValidator
  | invalidDnskey
  | invalidDs
  | unsupportedDigest
  | nameEncoding
  | invalidRrsig
  | invalidNsec
  | invalidNsec3
  | invalidRrset
  | unsupportedCanonicalRdata
  | signatureOutsideValidity
  | unsupportedAlgorithm
  | invalidSignature
  deriving DecidableEq

def dnssecProtocol : UInt8 := 3

def dnskeyZoneFlag : UInt16 := 0x0100

def nsec3HashSha1 : UInt8 := 1

def nsec3OptOutFlag : UInt8 := 0x01

def nsec3MaxIterations : UInt16 := 2500

/-- The loop of `validate_nsec_type_bit_maps`.  The first argument bounds the
number of blocks. -/
def validateBitMapsFrom : Nat → Option UInt8 → Octets → Except DnssecError Unit
  | _, _, [] => .ok ()
  | blocks + 1, previousWindow, window :: length :: rest =>
    if length = 0 ∨ 32 < length ∨ rest.length < length.toNat then .error .invalidNsec
    else if previousWindow.any (window ≤ ·) then .error .invalidNsec
    else validateBitMapsFrom blocks (some window) (rest.drop length.toNat)
  | _, _, _ :: _ => .error .invalidNsec

def validateNsecTypeBitMaps (typeBitMaps : Octets) : Except DnssecError Unit :=
  validateBitMapsFrom typeBitMaps.length none typeBitMaps

/-- The window search of `nsec_type_bit_maps_contain`. -/
def bitMapsContainFrom (targetWindow : UInt8) (targetBit : Nat) : Nat → Octets → Bool
  | blocks + 1, window :: length :: rest =>
    if window = targetWindow then
      if length.toNat ≤ targetBit / 8 then false
      else
        match rest[targetBit / 8]? with
        | some byte => byte &&& (1 <<< UInt8.ofNat (7 - targetBit % 8)) != 0
        | none => false
    else bitMapsContainFrom targetWindow targetBit blocks (rest.drop length.toNat)
  | _, _ => false

def nsecTypeBitMapsContain (typeBitMaps : Octets) (recordType : RecordType) :
    Except DnssecError Bool :=
  match validateNsecTypeBitMaps typeBitMaps with
  | .error error => .error error
  | .ok () =>
    .ok (bitMapsContainFrom (windowOf recordType.code) (lowOf recordType.code)
      typeBitMaps.length typeBitMaps)

private theorem validateBitMapsFrom_encodeBlocks (blocks : List Block)
    (increasing : blocks.Pairwise fun first second => first.window.toNat < second.window.toNat)
    (previous : Option UInt8)
    (after : ∀ block ∈ blocks, ∀ window ∈ previous, window.toNat < block.window.toNat)
    (bound : Nat) (enough : (encodeBlocks blocks).length ≤ bound) :
    validateBitMapsFrom bound previous (encodeBlocks blocks) = .ok () := by
  induction blocks generalizing previous bound with
  | nil => cases bound <;> rfl
  | cons block rest ih =>
    rw [List.pairwise_cons] at increasing
    rw [encodeBlocks_cons] at enough ⊢
    cases bound with
    | zero => simp at enough
    | succ bound =>
      have inside : ¬ (block.bits ++ encodeBlocks rest).length <
          (UInt8.ofNat block.bits.length).toNat := by
        rw [block.toNat_ofNat_length, List.length_append]
        omega
      have windowIncreases : previous.any (block.window ≤ ·) = false := by
        cases previous with
        | none => rfl
        | some window =>
          have less := after block List.mem_cons_self window rfl
          simp only [Option.any_some, decide_eq_false_iff_not, UInt8.le_iff_toNat_le]
          omega
      rw [validateBitMapsFrom,
        if_neg (or_assoc.not.mp (not_or.mpr ⟨block.length_inRange, inside⟩)), windowIncreases,
        block.toNat_ofNat_length, List.drop_left]
      apply ih increasing.2
      · rintro other mem _ ⟨⟩
        exact increasing.1 other mem
      · simp only [List.length_cons, List.length_append] at enough
        omega

/-- Well-formed bitmaps pass the check. -/
theorem validateNsecTypeBitMaps_encode (blocks : Blocks) :
    validateNsecTypeBitMaps blocks.encode = .ok () :=
  validateBitMapsFrom_encodeBlocks blocks.list blocks.increasing none (by simp) _ le_rfl

private theorem mask_eq : ∀ position < 8,
    (1 <<< UInt8.ofNat (7 - position) : UInt8) = 0x80 >>> UInt8.ofNat position := by
  decide

/-- On an accepted bitmap the lookup is that of the strict crate. -/
theorem bitmapContainsFrom_of_validated {bound : Nat} {previous : Option UInt8}
    {bitmap : Octets} (accepted : validateBitMapsFrom bound previous bitmap = .ok ())
    (window : UInt8) (low : Nat) :
    HnsDaneEngine.Dnssec.bitmapContainsFrom window low bound bitmap =
      .ok (bitMapsContainFrom window low bound bitmap) := by
  induction bound generalizing previous bitmap with
  | zero =>
    cases bitmap with
    | nil => rfl
    | cons _ _ => simp [validateBitMapsFrom] at accepted
  | succ bound ih =>
    rcases bitmap with _ | ⟨blockWindow, _ | ⟨length, rest⟩⟩
    · rfl
    · cases accepted
    rcases of_guard_ok accepted with ⟨inRange, accepted⟩
    rcases of_guard_ok accepted with ⟨-, accepted⟩
    rw [not_or, not_or] at inRange
    rw [HnsDaneEngine.Dnssec.bitmapContainsFrom, bitMapsContainFrom,
      if_neg (not_or.mpr ⟨inRange.1, inRange.2.1⟩), if_neg inRange.2.2]
    by_cases same : blockWindow = window
    · rw [if_pos same, if_pos same, bitIsSet, mask_eq (low % 8) (Nat.mod_lt _ (by simp)),
        List.getElem?_take]
      by_cases outside : length.toNat ≤ low / 8
      · rw [if_pos outside, if_neg (Nat.not_lt.mpr outside)]
      · cases rest[low / 8]? <;> simp [outside, Nat.not_le.mp outside]
    · rw [if_neg same, if_neg same]
      exact ih accepted

/-- On well-formed bitmaps a lookup decides membership. -/
@[simp]
theorem nsecTypeBitMapsContain_encode (blocks : Blocks) (recordType : RecordType) :
    nsecTypeBitMapsContain blocks.encode recordType = .ok (blocks.has recordType.code) := by
  have accepted := validateNsecTypeBitMaps_encode blocks
  have found := (bitmapContainsFrom_of_validated accepted _ _).symm.trans
    (HnsDaneEngine.Dnssec.bitmapContains_encode blocks recordType.code)
  rw [nsecTypeBitMapsContain, accepted, Except.ok.inj found]

/-- The data of a DNSKEY record. -/
structure DnskeyRecord where
  flags : UInt16
  protocol : UInt8
  algorithm : UInt8
  publicKey : Octets
  rdata : Octets

/-- The RFC 4034 key tag.  Record data is shorter than 2^16 octets, so the
32-bit accumulator of the source does not overflow. -/
def keyTag (dnskeyRdata : Octets) : UInt16 :=
  let accumulator := (dnskeyRdata.zipIdx.map fun (byte, index) =>
    if index % 2 = 0 then byte.toNat <<< 8 else byte.toNat).sum
  UInt16.ofNat (accumulator + (accumulator >>> 16) % 2 ^ 16)

namespace DnskeyRecord

def parseRdata (rdata : Octets) : Except DnssecError DnskeyRecord :=
  match rdata with
  | flags0 :: flags1 :: protocol :: algorithm :: publicKey =>
    if protocol ≠ dnssecProtocol then .error .invalidDnskey
    else .ok ⟨u16FromBe flags0 flags1, protocol, algorithm, publicKey, rdata⟩
  | _ => .error .invalidDnskey

def fromRecord (record : ResourceRecord) : Except DnssecError DnskeyRecord :=
  if record.recordType ≠ .dnskey then .error .invalidDnskey else parseRdata record.rdata

def keyTag (record : DnskeyRecord) : UInt16 :=
  Dnssec.keyTag record.rdata

end DnskeyRecord

/-- The data of a DS record. -/
structure DsRecord where
  keyTag : UInt16
  algorithm : UInt8
  digestType : UInt8
  digest : Octets

namespace DsRecord

def parseRdata (rdata : Octets) : Except DnssecError DsRecord :=
  match rdata with
  | tag0 :: tag1 :: algorithm :: digestType :: first :: rest =>
    .ok ⟨u16FromBe tag0 tag1, algorithm, digestType, first :: rest⟩
  | _ => .error .invalidDs

def fromRecord (record : ResourceRecord) : Except DnssecError DsRecord :=
  if record.recordType ≠ .ds then .error .invalidDs else parseRdata record.rdata

end DsRecord

/-- The data of an RRSIG record. -/
structure RrsigRecord where
  typeCovered : RecordType
  algorithm : UInt8
  labels : UInt8
  originalTtl : UInt32
  signatureExpiration : Nat
  signatureInception : Nat
  keyTag : UInt16
  signerName : DnsName
  signature : Octets
  signedRdata : Octets

namespace RrsigRecord

def parseRdata (rdata : Octets) : Except DnssecError RrsigRecord :=
  match rdata with
  | type0 :: type1 :: algorithm :: labels :: ttl0 :: ttl1 :: ttl2 :: ttl3 ::
      expiration0 :: expiration1 :: expiration2 :: expiration3 ::
      inception0 :: inception1 :: inception2 :: inception3 :: tag0 :: tag1 :: _ :: _ =>
      match DnsName.parseWire rdata 18 with
      | .error _ => .error .invalidRrsig
      | .ok (signerName, signerEnd) =>
        if rdata.length ≤ signerEnd then .error .invalidRrsig
        else
          match signerName.encodeWire with
          | .error _ => .error .nameEncoding
          | .ok signerWire =>
            .ok {
              typeCovered := .fromCode (u16FromBe type0 type1)
              algorithm := algorithm
              labels := labels
              originalTtl := u32FromBe ttl0 ttl1 ttl2 ttl3
              signatureExpiration :=
                (u32FromBe expiration0 expiration1 expiration2 expiration3).toNat
              signatureInception :=
                (u32FromBe inception0 inception1 inception2 inception3).toNat
              keyTag := u16FromBe tag0 tag1
              signerName := signerName
              signature := rdata.drop signerEnd
              signedRdata := rdata.take 18 ++ signerWire }
  | _ => .error .invalidRrsig

def fromRecord (record : ResourceRecord) : Except DnssecError RrsigRecord :=
  if record.recordType ≠ .rrsig then .error .invalidRrsig else parseRdata record.rdata

def isValidAt (record : RrsigRecord) (now : Nat) : Bool :=
  record.signatureInception ≤ now && now ≤ record.signatureExpiration

end RrsigRecord

/-- The data of an NSEC record. -/
structure NsecRecord where
  nextDomainName : DnsName
  typeBitMaps : Octets

namespace NsecRecord

def parseRdata (rdata : Octets) : Except DnssecError NsecRecord :=
  match DnsName.parseWire rdata 0 with
  | .error _ => .error .invalidNsec
  | .ok (nextDomainName, cursor) =>
    if rdata.length ≤ cursor then .error .invalidNsec
    else
      match validateNsecTypeBitMaps (rdata.drop cursor) with
      | .error error => .error error
      | .ok () => .ok ⟨nextDomainName, rdata.drop cursor⟩

def fromRecord (record : ResourceRecord) : Except DnssecError NsecRecord :=
  if record.recordType ≠ .nsec then .error .invalidNsec else parseRdata record.rdata

def hasType (record : NsecRecord) (recordType : RecordType) : Except DnssecError Bool :=
  nsecTypeBitMapsContain record.typeBitMaps recordType

end NsecRecord

/-- The data of an NSEC3 record. -/
structure Nsec3Record where
  hashAlgorithm : UInt8
  flags : UInt8
  iterations : UInt16
  salt : Octets
  nextHashedOwnerName : Octets
  typeBitMaps : Octets

namespace Nsec3Record

def parseRdata (rdata : Octets) : Except DnssecError Nsec3Record :=
  match rdata with
  | hashAlgorithm :: flags :: iterations0 :: iterations1 :: saltLen :: rest =>
    match rest.drop saltLen.toNat with
    | [] => .error .invalidNsec3
    | hashLen :: tail =>
      if hashLen = 0 then .error .invalidNsec3
      else if tail.length < hashLen.toNat then .error .invalidNsec3
      else
        match validateNsecTypeBitMaps (tail.drop hashLen.toNat) with
        | .error _ => .error .invalidNsec3
        | .ok () =>
          .ok {
            hashAlgorithm := hashAlgorithm
            flags := flags
            iterations := u16FromBe iterations0 iterations1
            salt := rest.take saltLen.toNat
            nextHashedOwnerName := tail.take hashLen.toNat
            typeBitMaps := tail.drop hashLen.toNat }
  | _ => .error .invalidNsec3

def fromRecord (record : ResourceRecord) : Except DnssecError Nsec3Record :=
  if record.recordType ≠ .nsec3 then .error .invalidNsec3 else parseRdata record.rdata

def hasType (record : Nsec3Record) (recordType : RecordType) : Except DnssecError Bool :=
  match nsecTypeBitMapsContain record.typeBitMaps recordType with
  | .ok present => .ok present
  | .error _ => .error .invalidNsec3

def isOptOut (record : Nsec3Record) : Bool :=
  record.flags &&& nsec3OptOutFlag != 0

def isUsable (record : Nsec3Record) : Bool :=
  record.hashAlgorithm == nsec3HashSha1 && record.flags &&& ~~~nsec3OptOutFlag == 0

end Nsec3Record

end HnsDaneEngine.Browser.Dnssec
