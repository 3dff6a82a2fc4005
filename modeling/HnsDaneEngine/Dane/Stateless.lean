import HnsDaneEngine.Browser.Resolver.Doh
import HnsDaneEngine.Browser.Resource
import HnsDaneEngine.Dane.Extensions
import HnsDaneEngine.Dane.Policy
import HnsDaneEngine.Urkel.Proof

/-!
# Stateless DANE evidence

A certificate may carry the Urkel proof of its name and the DNSSEC chain of its TLSA records in
two extensions.  Without both extensions there is no evidence; with one alone, or several of a
kind, the evidence is malformed.
-/

namespace HnsDaneEngine.Dane.Browser

open Control Der HnsDaneEngine.Browser Browser.Dnssec
open Browser.Resolver (asciiLowercase)
open Primitives Urkel

def experimentalHip17UrkelProofOid : String := "1.3.6.1.4.1.55555.17.1"

def experimentalHip17DnssecChainOid : String := "1.3.6.1.4.1.55555.17.2"

def maxStatelessDaneRoots : Nat := 40

def maxStatelessDaneProofs : Nat := 2

def maxStatelessDaneDnssecChainBytes : Nat := 64 * 1024

def maxHsdNameStateNameBytes : Nat := 63

def maxHsdNameStateDataBytes : Nat := 512

def hsdNameStateFixedTailBytes : Nat := 10

/-- A certificate and the roots. -/
structure StatelessDaneValidationInput where
  certDer : Octets
  host : List Char
  port : UInt16
  acceptedTreeRoots : List Hash
  nowUnix : Nat

/-- The transport of a service. -/
inductive StatelessDaneTransport
  | tcp
  | udp
  | sctp

def StatelessDaneTransport.label : StatelessDaneTransport → List Char
  | .tcp => ['t', 'c', 'p']
  | .udp => ['u', 'd', 'p']
  | .sctp => ['s', 'c', 't', 'p']

/-- The evidence in two extensions. -/
inductive StatelessDaneEvidence
  | missing
  | tlsa (records : List TlsaRecord) (proofRoot : Hash) (proofHeight : Option Nat)

/-- A proof with its root. -/
structure StatelessUrkelProof where
  root : Hash
  proof : Octets

namespace RawCursor

/-- `read_bytes`: the octets and what is left. -/
def readBytes (length : Nat) (input : Octets) : Except DaneError (Octets × Octets) :=
  if input.length < length then .error .malformedCertificateEvidence
  else .ok (input.take length, input.drop length)

def readU8 : Octets → Except DaneError (UInt8 × Octets)
  | [] => .error .malformedCertificateEvidence
  | octet :: rest => .ok (octet, rest)

def readU16Be : Octets → Except DaneError (UInt16 × Octets)
  | high :: low :: rest => .ok (u16FromBe high low, rest)
  | _ => .error .malformedCertificateEvidence

end RawCursor

def hashFromSlice (bytes : Octets) : Except DaneError Hash :=
  if sized : bytes.length = 32 then .ok ⟨bytes, sized⟩ else .error .malformedCertificateEvidence

/-- So many proofs, and what is left. -/
def readUrkelProofs : Nat → Octets → Except DaneError (List StatelessUrkelProof × Octets)
  | 0, input => .ok ([], input)
  | count + 1, input => do
    let (bytes, input) ← RawCursor.readBytes 32 input
    let root ← hashFromSlice bytes
    let (proofLength, input) ← RawCursor.readU16Be input
    let (proof, input) ← RawCursor.readBytes proofLength.toNat input
    let (proofs, input) ← readUrkelProofs count input
    return (⟨root, proof⟩ :: proofs, input)

def parseStatelessUrkelProofs (input : Octets) :
    Except DaneError (List StatelessUrkelProof) := do
  let (count, input) ← RawCursor.readU8 input
  if count.toNat = 0 ∨ maxStatelessDaneProofs < count.toNat then
    .error .malformedCertificateEvidence
  else
    let (proofs, rest) ← readUrkelProofs count.toNat input
    if ¬ rest.isEmpty then .error .malformedCertificateEvidence else .ok proofs

/-- The records from a position on.  Every record moves the position forward, so that the length
of the input bounds the rounds. -/
def readChainRecords (input : Octets) : Nat → Nat → Except DaneError (List ResourceRecord)
  | 0, _ => .ok []
  | rounds + 1, cursor =>
    if input.length ≤ cursor then .ok []
    else do
      let (record, next) ←
        (ResourceRecord.parse input cursor).mapError fun _ => .malformedCertificateEvidence
      if next ≤ cursor then .error .malformedCertificateEvidence
      else
        let records ← readChainRecords input rounds next
        return record :: records

def parseRfc9102AuthenticationChain (input : Octets) : Except DaneError (List ResourceRecord) :=
  if maxStatelessDaneDnssecChainBytes < input.length then .error .malformedCertificateEvidence
  else
    match input with
    | high :: low :: rest =>
      if (u16FromBe high low).toNat ≠ rest.length then .error .malformedCertificateEvidence
      else readChainRecords input input.length 2
    | _ => .error .malformedCertificateEvidence

def extractNameStateResourceValue (rootName : List Char) (value : Octets) :
    Except DaneError Octets :=
  match value with
  | [] => .error .malformedCertificateEvidence
  | nameLength :: afterLength =>
    let nameLength := nameLength.toNat
    if maxHsdNameStateNameBytes < nameLength then .error .malformedCertificateEvidence
    else if value.length < 1 + nameLength + 2 ∨ afterLength.take nameLength ≠ asBytes rootName then
      .error .invalidCertificateEvidence
    else
      match afterLength.drop nameLength with
      | low :: high :: afterName =>
        let dataLength := low.toNat + 256 * high.toNat
        if maxHsdNameStateDataBytes < dataLength then .error .malformedCertificateEvidence
        else if afterName.length < dataLength + hsdNameStateFixedTailBytes then
          .error .malformedCertificateEvidence
        else .ok (afterName.take dataLength)
      | _ => .error .invalidCertificateEvidence

def recordsFor (records : List ResourceRecord) (owner : DnsName) (recordType : RecordType) :
    List ResourceRecord :=
  records.filter fun record => record.name = owner ∧ record.recordType = recordType

def rrsigRecordsFor (records : List ResourceRecord) (owner : DnsName) (covered : RecordType) :
    List ResourceRecord :=
  (recordsFor records owner .rrsig).filter fun record =>
    match RrsigRecord.fromRecord record with
    | .ok rrsig => rrsig.typeCovered = covered
    | .error _ => false

def parseUsableTlsaRrset (records : List ResourceRecord) : List TlsaRecord :=
  records.filterMap fun record => TlsaRecord.parseUsableRdata record.rdata

def normalizeHost (host : List Char) : List Char :=
  asciiLowercase (trimEndMatches (· == '.') (trim host))

/-- The last label that is not empty. -/
def hnsRootLabel (host : List Char) : Option (List Char) :=
  (host.splitOn '.').reverse.find? fun label => !label.isEmpty

def serviceName (port : UInt16) (transport host : List Char) : List Char :=
  '_' :: (toString port.toNat).toList ++ '.' :: '_' :: asciiLowercase transport ++
    '.' :: trimEndMatches (· == '.') host

section

/- `blake2b256` and `sha3` stand for the digests of the hash packages. -/
variable (crypto : HnsDaneEngine.Browser.Dnssec.Crypto) (blake2b256 sha3 : Octets → Hash)

def validateDirectDnssecTlsaChain (rootOwner serviceOwner : DnsName)
    (dsRrset dnssecRecords tlsaRrset : List ResourceRecord) (nowUnix : Nat) :
    Except DaneError Unit := do
  let dnskeyRrset := recordsFor dnssecRecords rootOwner .dnskey
  let dnskeyRrsigRrset := rrsigRecordsFor dnssecRecords rootOwner .dnskey
  let tlsaRrsigRrset := rrsigRecordsFor dnssecRecords serviceOwner .tlsa
  if dnskeyRrset.isEmpty ∨ dnskeyRrsigRrset.isEmpty ∨ tlsaRrsigRrset.isEmpty then
    .error .invalidCertificateDnssec
  else
    let status ← (validateSignedRrset crypto {
      dnskeyOwner := rootOwner
      dsRrset := dsRrset
      dnskeyRrset := dnskeyRrset
      dnskeyRrsigRrset := dnskeyRrsigRrset
      rrset := tlsaRrset
      rrsigRrset := tlsaRrsigRrset
      now := nowUnix }).mapError fun _ => .invalidCertificateDnssec
    if status = .secure then .ok () else .error .invalidCertificateDnssec

/-- The loop over the proofs. -/
def evaluateProofs (input : StatelessDaneValidationInput) (rootName : List Char)
    (nameHash : Hash) (owner serviceOwner : DnsName) (records tlsaRrset : List ResourceRecord) :
    List StatelessUrkelProof → Except DaneError StatelessDaneEvidence
  | [] => .error .invalidCertificateEvidence
  | proof :: rest =>
    if proof.root ∉ input.acceptedTreeRoots then
      evaluateProofs input rootName nameHash owner serviceOwner records tlsaRrset rest
    else do
      let parsed ← (ParsedProof.parseForKey proof.proof proof.root nameHash).mapError
        fun _ => .malformedCertificateEvidence
      if parsed.kind ≠ .inclusion ∨ parsed.nameHash ≠ nameHash ∨
          ¬ parsed.proof.verify blake2b256 proof.root nameHash then
        evaluateProofs input rootName nameHash owner serviceOwner records tlsaRrset rest
      else
        match parsed.value with
        | none => .error .invalidCertificateEvidence
        | some value =>
          let resourceValue ← extractNameStateResourceValue rootName value
          let hnsRecords ← (decodeHandshakeResourceRecords owner resourceValue).mapError
            fun _ => .invalidCertificateEvidence
          let dsRrset := recordsFor hnsRecords owner .ds
          if dsRrset.isEmpty then .error .unsupportedCertificateEvidence
          else
            validateDirectDnssecTlsaChain crypto owner serviceOwner dsRrset records tlsaRrset
              input.nowUnix
            let tlsaRecords := parseUsableTlsaRrset tlsaRrset
            if tlsaRecords.isEmpty then .error .missingCertificateTlsa
            else .ok (.tlsa tlsaRecords proof.root none)

/-- What follows once both extensions are there. -/
def evaluateEvidence (input : StatelessDaneValidationInput) (transport : StatelessDaneTransport)
    (proofValue chainValue : Octets) : Except DaneError StatelessDaneEvidence :=
  if input.acceptedTreeRoots.isEmpty ∨ maxStatelessDaneRoots < input.acceptedTreeRoots.length then
    .error .invalidCertificateEvidence
  else
    let host := normalizeHost input.host
    match hnsRootLabel host with
    | none => .error .invalidCertificateEvidence
    | some rootName => do
      let nameHash ← (nameHashFromName sha3 (asBytes rootName)).mapError
        fun _ => .invalidCertificateEvidence
      let owner ← (DnsName.fromAscii rootName).mapError fun _ => .invalidCertificateEvidence
      let serviceOwner ← (DnsName.fromAscii
        (serviceName input.port transport.label host)).mapError
          fun _ => .invalidCertificateEvidence
      let proofs ← parseStatelessUrkelProofs proofValue
      let records ← parseRfc9102AuthenticationChain chainValue
      let tlsaRrset := recordsFor records serviceOwner .tlsa
      if tlsaRrset.isEmpty then .error .missingCertificateTlsa
      else
        evaluateProofs crypto blake2b256 input rootName nameHash owner serviceOwner records
          tlsaRrset proofs

def certDerChecked (certDer : Octets) : Except DaneError Octets := do
  let (certificate, cursor) ← readDerElement certDer 0
  if certificate.tag = tagSequence ∧ cursor = certDer.length then .ok certDer
  else .error .malformedCertificate

def evaluateStatelessDaneCertificateForTransport (input : StatelessDaneValidationInput)
    (transport : StatelessDaneTransport) : Except DaneError StatelessDaneEvidence := do
  let certDer ← certDerChecked input.certDer
  let proofValues ← certificateExtensionValues certDer experimentalHip17UrkelProofOid
  let chainValues ← certificateExtensionValues input.certDer experimentalHip17DnssecChainOid
  match proofValues, chainValues with
  | [], [] => .ok .missing
  | [proofValue], [chainValue] =>
    evaluateEvidence crypto blake2b256 sha3 input transport proofValue chainValue
  | _, _ => .error .malformedCertificateEvidence

end

def urkelProofIdentifier : ObjectIdentifier :=
  ⟨1, 3, [6, 1, 4, 1, 55555, 17, 1], by decide, by decide⟩

def dnssecChainIdentifier : ObjectIdentifier :=
  ⟨1, 3, [6, 1, 4, 1, 55555, 17, 2], by decide, by decide⟩

theorem dotted_urkelProofIdentifier :
    dotted urkelProofIdentifier.numbers = experimentalHip17UrkelProofOid := by
  rfl

theorem dotted_dnssecChainIdentifier :
    dotted dnssecChainIdentifier.numbers = experimentalHip17DnssecChainOid := by
  rfl

/-- No extension is one of the two. -/
def NoEvidence (extensions : List Extension) : Prop :=
  ∀ extension ∈ extensions, extension.oid.numbers ≠ urkelProofIdentifier.numbers ∧
    extension.oid.numbers ≠ dnssecChainIdentifier.numbers

/-- The values of an identifier are found exactly, and without evidence it is reported missing. -/
structure ExactExtraction (certDer : Octets) (extensions : List Extension)
    (target : ObjectIdentifier) : Prop where
  values : certificateExtensionValues certDer (dotted target.numbers) =
    .ok (valuesOf target extensions)
  missing : NoEvidence extensions → ∀ (crypto : HnsDaneEngine.Browser.Dnssec.Crypto)
    (blake2b256 sha3 : Octets → Hash) (input : StatelessDaneValidationInput)
    (transport : StatelessDaneTransport),
    input.certDer = certDer →
      evaluateStatelessDaneCertificateForTransport crypto blake2b256 sha3 input transport =
        .ok .missing

section

variable {certDer : Octets} {extensions : List Extension} {target : ObjectIdentifier}

theorem certDerChecked_eq (certificate : CertificateWithExtensions certDer extensions) :
    certDerChecked certDer = .ok certDer := by
  rcases certificate with ⟨tbsValue, tbs, afterTbs, isCertificate, -⟩
  rcases readElement_of_occurs certDer.length isCertificate (Buffer.occurs_self certDer)
    (Nat.le_of_eq (Nat.zero_add _)) with ⟨start, certificate_eq, -, -⟩
  rw [certDerChecked, readDerElement, certificate_eq]
  exact if_pos ⟨rfl, Nat.zero_add _⟩

/-- Where no extension carries a low identifier, no value is found. -/
theorem certificateExtensionValues_nil (certificate : CertificateWithExtensions certDer extensions)
    (fits : ∀ extension ∈ extensions, Renders extension.oid) (low : target.leading < 120)
    (absent : ∀ extension ∈ extensions, extension.oid.numbers ≠ target.numbers) :
    certificateExtensionValues certDer (dotted target.numbers) = .ok [] := by
  have visible : ¬ HiddenTarget target extensions := fun hidden => by
    have high := hidden.1
    omega
  rw [(certificateExtensionValues_exact_iff certificate).mpr ⟨fits, visible⟩, valuesOf,
    List.filter_eq_nil_iff.mpr fun extension mem equal => absent extension mem (beq_iff_eq.mp equal)]
  rfl

/-- The extraction is exact when every identifier fits into 32-bit numbers and the target is not
hidden. -/
theorem exactExtraction_iff (certificate : CertificateWithExtensions certDer extensions) :
    ExactExtraction certDer extensions target ↔
      (∀ extension ∈ extensions, Renders extension.oid) ∧ ¬ HiddenTarget target extensions := by
  constructor
  · intro exact_
    exact (certificateExtensionValues_exact_iff certificate).mp exact_.values
  · rintro ⟨fits, visible⟩
    refine ⟨(certificateExtensionValues_exact_iff certificate).mpr ⟨fits, visible⟩, ?_⟩
    rintro absent crypto blake2b256 sha3 input transport rfl
    have proofs : certificateExtensionValues input.certDer (dotted urkelProofIdentifier.numbers) =
        .ok [] :=
      certificateExtensionValues_nil certificate fits (by decide) fun extension mem =>
        (absent extension mem).1
    have chains : certificateExtensionValues input.certDer (dotted dnssecChainIdentifier.numbers) =
        .ok [] :=
      certificateExtensionValues_nil certificate fits (by decide) fun extension mem =>
        (absent extension mem).2
    rw [dotted_urkelProofIdentifier] at proofs
    rw [dotted_dnssecChainIdentifier] at chains
    rw [evaluateStatelessDaneCertificateForTransport, certDerChecked_eq certificate]
    change (certificateExtensionValues input.certDer experimentalHip17UrkelProofOid >>= _) = _
    rw [proofs]
    change (certificateExtensionValues input.certDer experimentalHip17DnssecChainOid >>= _) = _
    rw [chains]
    rfl

end

def exampleExtension (content : Octets) : Octets :=
  shortElement tagSequence
    (shortElement tagObjectIdentifier content ++ shortElement tagOctetString [7])

def exampleFields : List Octets :=
  shortElement tagInteger [1] :: List.replicate 5 (shortElement tagSequence [])

/-- A certificate with empty names and one extension of the value 7. -/
def certificateOf (content : Octets) : Octets :=
  shortElement tagSequence (shortElement tagSequence (exampleFields.flatten ++
    shortElement tagExtensions (shortElement tagSequence (exampleExtension content))))

theorem certificateOf_isCertificate {oid : ObjectIdentifier} {content : Octets}
    (isEncoded : oid.IsEncoded content) (short : content.length < 64) :
    CertificateWithExtensions (certificateOf content) [⟨oid, [7]⟩] := by
  have length_eq : (exampleExtension content).length = content.length + 7 := by
    simp [exampleExtension, shortElement]
  have isExtension : Extension.IsEncoded ⟨oid, [7]⟩ (exampleExtension content) :=
    ⟨content, _, [], _, isElement_shortElement (by simp [shortElement]; omega),
      isElement_shortElement (by omega), isEncoded, .inl rfl, isElement_shortElement (by simp)⟩
  have isField : ExtensionsField [⟨oid, [7]⟩]
      (shortElement tagExtensions (shortElement tagSequence (exampleExtension content))) := by
    refine .inr ⟨[exampleExtension content], _, .cons isExtension .nil, ?_,
      isElement_shortElement (by simp [shortElement]; omega)⟩
    rw [List.flatten_singleton]
    exact isElement_shortElement (by omega)
  have isFields : List.Forall₂ (fun tag full => ∃ value, IsElement usizeBytes tag value full)
      (tagInteger :: List.replicate 5 tagSequence) exampleFields := by
    have isName : ∃ value, IsElement usizeBytes tagSequence value (shortElement tagSequence []) :=
      ⟨[], isElement_shortElement (by simp)⟩
    exact .cons ⟨_, isElement_shortElement (by simp)⟩
      (.cons isName (.cons isName (.cons isName (.cons isName (.cons isName .nil)))))
  refine ⟨_, _, [], ?_, isElement_shortElement ?_, [], _, exampleFields, [], _, .inl rfl, rfl,
    by decide, isFields, by simp, isField, rfl⟩
  · rw [List.append_nil]
    exact isElement_shortElement (by simp [exampleFields, shortElement]; omega)
  · simp [exampleFields, shortElement]
    omega

/-- The identifier 1.2 in one octet. -/
theorem root_isEncoded : ObjectIdentifier.IsEncoded ⟨1, 2, [], by decide, by decide⟩ [0x2a] :=
  ⟨[], 0x2a, [], ⟨by simp, by decide, by simp, by decide⟩, .nil, rfl⟩

/-- An extension of an identifier that fits. -/
theorem exactExtraction_root :
    ExactExtraction (certificateOf [0x2a]) [⟨⟨1, 2, [], by decide, by decide⟩, [7]⟩]
      ⟨1, 2, [], by decide, by decide⟩ :=
  (exactExtraction_iff (certificateOf_isCertificate root_isEncoded (by decide))).mpr
    ⟨by decide, fun hidden => absurd hidden.1 (by decide)⟩

/-- The identifier 2.40 in one octet. -/
theorem joint_isEncoded : ObjectIdentifier.IsEncoded ⟨2, 40, [], by decide, by decide⟩ [0x78] :=
  ⟨[], 0x78, [], ⟨by simp, by decide, by simp, by decide⟩, .nil, rfl⟩

/-- The extension with the identifier 2.40 is not found. -/
theorem extensions_not_found :
    ¬ ∀ (certDer : Octets) (extensions : List Extension) (target : ObjectIdentifier),
      CertificateWithExtensions certDer extensions → (∀ number ∈ target.numbers, number ≤ u32Max) →
        ExactExtraction certDer extensions target := by
  intro exact_
  have joint := exact_ _ _ ⟨2, 40, [], by decide, by decide⟩
    (certificateOf_isCertificate joint_isEncoded (by decide)) (by decide)
  have found : certificateExtensionValues (certificateOf [0x78]) (dotted [2, 40]) = .ok [] := by
    rfl
  have values := joint.values
  change certificateExtensionValues (certificateOf [0x78]) (dotted [2, 40]) = .ok [[7]] at values
  rw [found] at values
  cases values

end HnsDaneEngine.Dane.Browser
