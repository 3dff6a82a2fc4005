import HnsDaneEngine.Browser.Dnssec.Nsec3

/-!
# The DNSSEC verifier of the browser resolver

The resolver reaches the validator through a verifier with one method for each
kind of answer.  The system verifier first authenticates the DNSKEY set by the
delegation signers and then tries the NSEC records and the NSEC3 records of the
response.  Validator errors become `DnssecFailed`.
-/

namespace HnsDaneEngine.Browser.Resolver

open Browser.Dnssec Control Wire

/-- Failures of the resolver.  Sources of wrapped errors are left out. -/
inductive ResolverError
  | proofUnavailable
  | invalidName
  | proofNameMismatch
  | nameNotFound
  | localChainNotCurrent
  | dnssecFailed
  | relayDnssecFailed
  | port53InterceptionDetected
  | invalidResource
  | unsupportedBackend
  | noNameserverAddress
  | nonPublicDnsEndpoint
  | unsafeAuthoritativeDohPort (port : UInt16)
  | dnsTransport (message : String)
  | dnsResponseCode (rcode : UInt8)
  | invalidDnsResponse
  | invalidAuthoritativeDoh
  | cachePoisoned
  | storage (message : String)
  | namespaceValidation
  | namespaceClassification
  | namespaceUnavailable
  deriving DecidableEq

/-- A delegation from the HNS root. -/
structure HnsDelegation where
  rootName : List Char
  owner : DnsName
  records : List ResourceRecord

/-- Records and whether they are secure. -/
structure ResolutionAnswer where
  name : DnsName
  records : List ResourceRecord
  secure : Bool
  deriving DecidableEq

/-- A DNSKEY set with what authenticates it. -/
structure DnskeyMaterial where
  dnskeyOwner : DnsName
  dsRrset : List ResourceRecord
  dnskeyRrset : List ResourceRecord
  dnskeyRrsigRrset : List ResourceRecord

/-- The DNSKEY set of a child zone, where the DS set is signed by the parent. -/
structure ChildDnskeyMaterial where
  parent : DnskeyMaterial
  child : DnskeyMaterial
  childDsRrsigRrset : List ResourceRecord

/-- An answer with its signatures. -/
structure PositiveRrset where
  targetRrset : List ResourceRecord
  targetRrsigRrset : List ResourceRecord

/-- The denial records of a response. -/
structure DenialRecords where
  nsecRrset : List ResourceRecord
  nsecRrsigRrset : List ResourceRecord
  nsec3Rrset : List ResourceRecord
  nsec3RrsigRrset : List ResourceRecord

/-- A name without the type. -/
structure NoDataQuery extends DenialRecords where
  queryName : DnsName
  queryType : RecordType

/-- A name that does not exist. -/
structure NameErrorQuery extends DenialRecords where
  queryName : DnsName
  closestEncloser : DnsName

/-- `DelegatedDnssecVerifier`. -/
structure DelegatedDnssecVerifier where
  validatePositiveRrset : DnskeyMaterial → PositiveRrset → Except ResolverError Bool
  validateNoData : DnskeyMaterial → NoDataQuery → Except ResolverError Bool
  validateNameError : DnskeyMaterial → NameErrorQuery → Except ResolverError Bool
  validateChildPositiveRrset : ChildDnskeyMaterial → PositiveRrset → Except ResolverError Bool
  validateChildNoData : ChildDnskeyMaterial → NoDataQuery → Except ResolverError Bool
  validateChildNameError : ChildDnskeyMaterial → NameErrorQuery → Except ResolverError Bool

/-- `map_err(|_| ResolverError::DnssecFailed)`. -/
def orDnssecFailed {α : Type} : Except DnssecError α → Except ResolverError α
  | .ok value => .ok value
  | .error _ => .error .dnssecFailed

/-- `SystemDnssecVerifier`, with the primitives and the system time in seconds,
which is unavailable before the epoch. -/
structure SystemDnssecVerifier where
  crypto : Crypto
  now : Option Nat

namespace SystemDnssecVerifier

variable (verifier : SystemDnssecVerifier)

def currentTime : Except ResolverError Nat :=
  match verifier.now with
  | some now => .ok now
  | none => .error .dnssecFailed

/-- Is the DNSKEY set signed by a key that the delegation signers authenticate,
and by one of its own keys? -/
def dnskeyStatus (material : DnskeyMaterial) (now : Nat) : Except DnssecError DnssecStatus :=
  validateSignedRrset verifier.crypto ⟨material.dnskeyOwner, material.dsRrset,
    material.dnskeyRrset, material.dnskeyRrsigRrset, material.dnskeyRrset,
    material.dnskeyRrsigRrset, now⟩

/-- One attempt of a denial check, which is left out without records. -/
def attemptDenial (records : List ResourceRecord) (status : Except DnssecError DnssecStatus) :
    Except ResolverError Bool :=
  if records.isEmpty then .ok false
  else (orDnssecFailed status).map (· == .secure)

/-- The two attempts of a denial check: the NSEC records first, and the NSEC3
records when the former do not give a secure status. -/
def tryDenials (records : DenialRecords)
    (nsecStatus nsec3Status : Except DnssecError DnssecStatus) :
    Except ResolverError Bool := do
  if ← attemptDenial records.nsecRrset nsecStatus then return true
  else attemptDenial records.nsec3Rrset nsec3Status

/-- The no-data attempts under an authenticated DNSKEY set. -/
def noDataUnder (material : DnskeyMaterial) (query : NoDataQuery) (now : Nat) :
    Except ResolverError Bool :=
  tryDenials query.toDenialRecords
    (validateNsecNoData verifier.crypto ⟨material.dnskeyOwner, material.dnskeyRrset,
      query.queryName, query.queryType, query.nsecRrset, query.nsecRrsigRrset, now⟩)
    (validateNsec3NoData verifier.crypto ⟨material.dnskeyOwner, material.dnskeyRrset,
      query.queryName, query.queryType, query.nsec3Rrset, query.nsec3RrsigRrset, now⟩)

/-- The same NSEC3 records serve every part of a name-error proof. -/
def nsec3NameErrorInput (material : DnskeyMaterial) (query : NameErrorQuery) (now : Nat) :
    Nsec3NameErrorValidationInput where
  signerName := material.dnskeyOwner
  dnskeyRrset := material.dnskeyRrset
  queryName := query.queryName
  closestEncloser := query.closestEncloser
  closestEncloserNsec3Rrset := query.nsec3Rrset
  closestEncloserNsec3RrsigRrset := query.nsec3RrsigRrset
  nextCloserNsec3Rrset := query.nsec3Rrset
  nextCloserNsec3RrsigRrset := query.nsec3RrsigRrset
  now := now
  wildcardNsec3Rrset := query.nsec3Rrset
  wildcardNsec3RrsigRrset := query.nsec3RrsigRrset

/-- The name-error attempts under an authenticated DNSKEY set. -/
def nameErrorUnder (material : DnskeyMaterial) (query : NameErrorQuery) (now : Nat) :
    Except ResolverError Bool :=
  tryDenials query.toDenialRecords
    (validateNsecNameError verifier.crypto ⟨material.dnskeyOwner, material.dnskeyRrset,
      query.queryName, query.closestEncloser, query.nsecRrset, query.nsecRrsigRrset,
      query.nsecRrset, query.nsecRrsigRrset, now⟩)
    (validateNsec3NameError verifier.crypto (nsec3NameErrorInput material query now))

/-- A denial check once the DNSKEY set is authenticated. -/
def withDnskeys (material : DnskeyMaterial) (check : Nat → Except ResolverError Bool) :
    Except ResolverError Bool := do
  let now ← verifier.currentTime
  let status ← orDnssecFailed (verifier.dnskeyStatus material now)
  if status ≠ .secure then return false else check now

/-- A denial check once the DNSKEY sets of parent and child are authenticated,
the latter through the signed DS set. -/
def withChildDnskeys (material : ChildDnskeyMaterial) (check : Nat → Except ResolverError Bool) :
    Except ResolverError Bool := do
  let now ← verifier.currentTime
  let parentStatus ← orDnssecFailed (verifier.dnskeyStatus material.parent now)
  if parentStatus ≠ .secure then return false
  else
    let dsStatus ← orDnssecFailed (validateRrsetSignature verifier.crypto
      material.parent.dnskeyOwner material.parent.dnskeyRrset material.child.dsRrset
      material.childDsRrsigRrset now)
    if dsStatus ≠ .secure then return false
    else
      let childStatus ← orDnssecFailed (verifier.dnskeyStatus material.child now)
      if childStatus ≠ .secure then return false else check now

def validatePositiveRrset (material : DnskeyMaterial) (answer : PositiveRrset) :
    Except ResolverError Bool := do
  let now ← verifier.currentTime
  let status ← orDnssecFailed (validateSignedRrset verifier.crypto ⟨material.dnskeyOwner,
    material.dsRrset, material.dnskeyRrset, material.dnskeyRrsigRrset, answer.targetRrset,
    answer.targetRrsigRrset, now⟩)
  return status == .secure

def validateNoData (material : DnskeyMaterial) (query : NoDataQuery) : Except ResolverError Bool :=
  verifier.withDnskeys material (verifier.noDataUnder material query)

def validateNameError (material : DnskeyMaterial) (query : NameErrorQuery) :
    Except ResolverError Bool :=
  verifier.withDnskeys material (verifier.nameErrorUnder material query)

def validateChildPositiveRrset (material : ChildDnskeyMaterial) (answer : PositiveRrset) :
    Except ResolverError Bool := do
  let now ← verifier.currentTime
  let link : DnssecChainLink := ⟨material.child.dnskeyOwner, material.child.dsRrset,
    material.childDsRrsigRrset, material.child.dnskeyRrset, material.child.dnskeyRrsigRrset⟩
  let status ← orDnssecFailed (validateDnssecChain verifier.crypto ⟨material.parent.dnskeyOwner,
    material.parent.dsRrset, material.parent.dnskeyRrset, material.parent.dnskeyRrsigRrset,
    [link], answer.targetRrset, answer.targetRrsigRrset, now⟩)
  return status == .secure

def validateChildNoData (material : ChildDnskeyMaterial) (query : NoDataQuery) :
    Except ResolverError Bool :=
  verifier.withChildDnskeys material (verifier.noDataUnder material.child query)

def validateChildNameError (material : ChildDnskeyMaterial) (query : NameErrorQuery) :
    Except ResolverError Bool :=
  verifier.withChildDnskeys material (verifier.nameErrorUnder material.child query)

def toVerifier : DelegatedDnssecVerifier where
  validatePositiveRrset := verifier.validatePositiveRrset
  validateNoData := verifier.validateNoData
  validateNameError := verifier.validateNameError
  validateChildPositiveRrset := verifier.validateChildPositiveRrset
  validateChildNoData := verifier.validateChildNoData
  validateChildNameError := verifier.validateChildNameError

/-- The records are absent, or their check ends without a secure status. -/
def Inconclusive (records : List ResourceRecord) (status : Except DnssecError DnssecStatus) :
    Prop :=
  records = [] ∨ ∃ other, status = .ok other ∧ other ≠ .secure

variable {records : List ResourceRecord} {status : Except DnssecError DnssecStatus}
  {material : DnskeyMaterial}

theorem inconclusive_iff :
    Inconclusive records status ↔
      (records ≠ [] → status ≠ .ok .secure ∧ ¬ ∃ error, status = .error error) := by
  cases records with
  | nil => simp [Inconclusive]
  | cons record rest => cases status <;> simp [Inconclusive]

theorem attemptDenial_eq_true_iff :
    attemptDenial records status = .ok true ↔ records ≠ [] ∧ status = .ok .secure := by
  cases records with
  | nil => simp [attemptDenial]
  | cons record rest => cases status <;> simp [attemptDenial, orDnssecFailed, Except.map]

theorem attemptDenial_eq_false_iff :
    attemptDenial records status = .ok false ↔ Inconclusive records status := by
  cases records with
  | nil => simp [attemptDenial, Inconclusive]
  | cons record rest =>
    cases status <;> simp [attemptDenial, Inconclusive, orDnssecFailed, Except.map]

section

variable {records : DenialRecords} {nsecStatus nsec3Status : Except DnssecError DnssecStatus}

theorem tryDenials_eq_true_iff :
    tryDenials records nsecStatus nsec3Status = .ok true ↔
      (records.nsecRrset ≠ [] ∧ nsecStatus = .ok .secure) ∨
        (Inconclusive records.nsecRrset nsecStatus ∧ records.nsec3Rrset ≠ [] ∧
          nsec3Status = .ok .secure) := by
  rw [tryDenials, bind_eq_ok_iff, Bool.exists_bool]
  simp only [attemptDenial_eq_true_iff, attemptDenial_eq_false_iff, Bool.false_eq_true, if_false,
    if_true, pure, Except.pure, and_true]
  exact or_comm

theorem tryDenials_eq_false_iff :
    tryDenials records nsecStatus nsec3Status = .ok false ↔
      Inconclusive records.nsecRrset nsecStatus ∧ Inconclusive records.nsec3Rrset nsec3Status := by
  rw [tryDenials, bind_eq_ok_iff, Bool.exists_bool]
  simp [attemptDenial_eq_false_iff, pure, Except.pure]

end

/-- At the current time the DNSKEY set is authenticated. -/
def Trusts (material : DnskeyMaterial) (now : Nat) : Prop :=
  verifier.now = some now ∧ verifier.dnskeyStatus material now = .ok .secure

instance (material : DnskeyMaterial) (now : Nat) : Decidable (verifier.Trusts material now) :=
  inferInstanceAs (Decidable (_ ∧ _))

variable {verifier}

theorem withDnskeys_of_trusts {now : Nat} (trusts : verifier.Trusts material now)
    (check : Nat → Except ResolverError Bool) :
    verifier.withDnskeys material check = check now := by
  simp [withDnskeys, currentTime, trusts.1, trusts.2, orDnssecFailed, bind, Except.bind]

theorem withDnskeys_eq_true_iff {check : Nat → Except ResolverError Bool} :
    verifier.withDnskeys material check = .ok true ↔
      ∃ now, verifier.Trusts material now ∧ check now = .ok true := by
  constructor
  · intro accepted
    obtain ⟨now, now_ok, remaining⟩ := of_bind_ok accepted
    obtain ⟨status, status_ok, checked⟩ := of_bind_ok remaining
    have now_eq : verifier.now = some now := by
      unfold currentTime at now_ok
      split at now_ok <;> simp_all
    by_cases secure : status = .secure
    · have status_eq : verifier.dnskeyStatus material now = .ok .secure := by
        cases checkedStatus : verifier.dnskeyStatus material now <;>
          simp_all [orDnssecFailed]
      rw [if_neg (not_not.mpr secure)] at checked
      exact ⟨now, ⟨now_eq, status_eq⟩, checked⟩
    · rw [if_pos secure] at checked
      cases checked
  · rintro ⟨now, trusts, checked⟩
    rw [withDnskeys_of_trusts trusts, checked]

end SystemDnssecVerifier

namespace ExampleKey

theorem apex_valid : ValidDnsLabels [[101, 120, 97, 109, 112, 108, 101]] := by
  decide

/-- `example.` -/
def apex : DnsName :=
  ⟨[[101, 120, 97, 109, 112, 108, 101]], apex_valid⟩

def publicKey : Octets :=
  [3, 161, 7, 191, 243, 206, 16, 190, 29, 112, 221, 24, 231, 75, 192, 153, 103, 228, 214, 48, 155,
    165, 13, 95, 29, 220, 134, 100, 18, 85, 49, 184]

/-- The SHA-256 digest of the key in the DS record. -/
def digest : Octets :=
  [50, 220, 30, 28, 253, 80, 33, 50, 142, 170, 106, 222, 31, 236, 64, 80, 116, 34, 169, 162, 196,
    202, 144, 67, 181, 13, 210, 250, 106, 131, 34, 14]

def dnskey : ResourceRecord :=
  ⟨apex, .dnskey, 1, 300, [1, 1, 3, 15] ++ publicKey⟩

def ds : ResourceRecord :=
  ⟨apex, .ds, 1, 300, [133, 211, 15, 2] ++ digest⟩

/-- A record that is signed alone, with the signature by the key. -/
structure Signed where
  record : ResourceRecord
  signature : Octets

namespace Signed

/-- The signature data before the signature, valid from 1700000000 to
2000000000. -/
def fields (signed : Signed) : Octets :=
  writeU16Be signed.record.recordType.code ++ [15, UInt8.ofNat signed.record.name.labels.length] ++
    writeU32Be 300 ++ writeU32Be 2000000000 ++ writeU32Be 1700000000 ++ [133, 211] ++
    wireOf apex.labels

def rrsig (signed : Signed) : ResourceRecord :=
  ⟨signed.record.name, .rrsig, 1, 300, signed.fields ++ signed.signature⟩

/-- The octets under the signature. -/
def octets (signed : Signed) : Octets :=
  signed.fields ++ wireOf signed.record.name.labels ++
    writeU16Be signed.record.recordType.code ++ writeU16Be 1 ++ writeU32Be 300 ++
    Frame.u16 signed.record.rdata.length ++ signed.record.rdata

end Signed

def signedDnskey : Signed :=
  ⟨dnskey, [73, 253, 73, 179, 149, 5, 36, 170, 41, 6, 72, 20, 118, 153, 86, 81, 163, 128, 168, 199,
    135, 208, 60, 174, 169, 43, 202, 135, 10, 239, 92, 117, 171, 21, 225, 19, 91, 181, 250, 208, 250,
    245, 132, 54, 167, 71, 47, 104, 137, 241, 133, 199, 214, 8, 3, 176, 208, 254, 250, 86, 214, 62,
    234, 8]⟩

def delegation : HnsDelegation :=
  ⟨"example".toList, apex, [ds]⟩

/-- Primitives with the digest of the key and the signatures of the given
records; SHA-1 is a parameter, and the other algorithms do not occur. -/
def crypto (sha1 : Octets → Octets) (signed : List Signed) : Crypto where
  sha1 := sha1
  sha256 data :=
    if data = wireOf apex.labels ++ dnskey.rdata then digest else List.replicate 32 0
  sha384 _ := List.replicate 48 0
  verifyRsa _ _ _ _ _ := false
  isP256Key _ := false
  isP256Signature _ := false
  verifyP256 _ _ _ := false
  verifyP384 _ _ _ := false
  verifyEd25519 key data signature :=
    key == publicKey && (signedDnskey :: signed).any fun entry =>
      entry.octets == data && entry.signature == signature

def verifier (sha1 : Octets → Octets) (signed : List Signed) : SystemDnssecVerifier :=
  ⟨crypto sha1 signed, some 1800000000⟩

/-- A response with the given response code and authority records. -/
def response (question : DnsQuestion) (rcode : UInt16) (authorities : List ResourceRecord) :
    DnsMessage where
  header := ⟨1, ⟨0x8400 ||| rcode⟩, 1, 0, UInt16.ofNat authorities.length, 0⟩
  questions := [question]
  answers := []
  authorities := authorities
  additionals := []

end ExampleKey

end HnsDaneEngine.Browser.Resolver
