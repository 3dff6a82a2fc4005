import HnsDaneEngine.Dane.Certificate
import HnsDaneEngine.Wire.Message

/-!
# Matching a certificate chain against TLSA records

`verify_dane_chain` checks its inputs and parses all records, looks for a DANE-EE
record that matches the leaf, and then tries the DANE-TA records in their order.  The
digests, the certificate parser of OpenSSL and its path validation are parameters.
-/

namespace HnsDaneEngine.Dane

open Control
open Wire (Tlsa)

/-- The bounds of a validation. -/
structure DaneLimits where
  maxCertificateLen : Nat
  maxSpkiLen : Nat
  maxTlsaRecords : Nat
  maxAssociationLen : Nat
  maxChainCertificates : Nat

def DaneLimits.default : DaneLimits where
  maxCertificateLen := 256 * 1024
  maxSpkiLen := 64 * 1024
  maxTlsaRecords := 64
  maxAssociationLen := 65532
  maxChainCertificates := 16

/-- The usages without a public CA. -/
inductive CertificateUsage
  | daneTa
  | daneEe
  deriving DecidableEq

/-- What a record selects. -/
inductive Selector
  | fullCertificate
  | subjectPublicKeyInfo
  deriving DecidableEq

/-- How a record matches. -/
inductive MatchingType
  | exact
  | sha256
  | sha512
  deriving DecidableEq

/-- The record that matched. -/
structure DaneMatch where
  recordIndex : Nat
  usage : CertificateUsage
  selector : Selector
  matchingType : MatchingType

/-- A record with known numbers. -/
structure ParsedRecord where
  usage : CertificateUsage
  selector : Selector
  matchingType : MatchingType
  associationData : Octets
  deriving DecidableEq

/-- The digests and what OpenSSL does: parse a certificate, and validate the path from
the leaf over the presented certificates to an anchor, given with its octets, for a
server name at a time. -/
structure Crypto (X509 : Type) where
  sha256 : Octets → Octets
  sha512 : Octets → Octets
  fromDer : Octets → Option X509
  validatePrivateChain : X509 → List X509 → X509 → Octets → Octets → Int → DaneLimits → Bool

def parseUsage : UInt8 → Except DaneError CertificateUsage
  | 2 => .ok .daneTa
  | 3 => .ok .daneEe
  | value => .error (.unsupportedUsage value)

def parseSelector : UInt8 → Except DaneError Selector
  | 0 => .ok .fullCertificate
  | 1 => .ok .subjectPublicKeyInfo
  | value => .error (.unsupportedSelector value)

def parseMatchingType : UInt8 → Except DaneError MatchingType
  | 0 => .ok .exact
  | 1 => .ok .sha256
  | 2 => .ok .sha512
  | value => .error (.unsupportedMatchingType value)

def parseRecord (limits : DaneLimits) (record : Tlsa) : Except DaneError ParsedRecord := do
  let usage ← parseUsage record.usage
  let selector ← parseSelector record.selector
  let matchingType ← parseMatchingType record.matchingType
  let length := record.associationData.length
  if length = 0 ∨ limits.maxAssociationLen < length ∨
      (matchingType = .sha256 ∧ length ≠ 32) ∨ (matchingType = .sha512 ∧ length ≠ 64) then
    .error .invalidAssociationLength
  else .ok ⟨usage, selector, matchingType, record.associationData⟩

section

variable {X509 : Type} (crypto : Crypto X509) (limits : DaneLimits)

/-- The digests of `MatchMaterial` are taken when a record asks for them. -/
def materialMatches (certificate spki : Octets) (record : ParsedRecord) : Bool :=
  let candidate :=
    match record.selector, record.matchingType with
    | .fullCertificate, .exact => certificate
    | .fullCertificate, .sha256 => crypto.sha256 certificate
    | .fullCertificate, .sha512 => crypto.sha512 certificate
    | .subjectPublicKeyInfo, .exact => spki
    | .subjectPublicKeyInfo, .sha256 => crypto.sha256 spki
    | .subjectPublicKeyInfo, .sha512 => crypto.sha512 spki
  constantTimeEq candidate record.associationData

def DaneMatch.of (recordIndex : Nat) (record : ParsedRecord) : DaneMatch :=
  ⟨recordIndex, record.usage, record.selector, record.matchingType⟩

def validateChainInputs (chain : List Octets) (tlsaBaseDomain : Octets)
    (records : List Tlsa) : Except DaneError Unit :=
  if chain.isEmpty ∨ limits.maxChainCertificates < chain.length then .error .chainLength
  else if tlsaBaseDomain.isEmpty ∨ 253 < tlsaBaseDomain.length ∨ 0 ∈ tlsaBaseDomain then
    .error .invalidServerName
  else if chain.any (fun certificate =>
      certificate.isEmpty || limits.maxCertificateLen < certificate.length) then
    .error .certificateLength
  else if records.isEmpty then .error .missingTlsa
  else if limits.maxTlsaRecords < records.length then .error .tooManyTlsaRecords
  else .ok ()

/-- The loop over the DANE-EE records. -/
def matchLeaf (leaf spki : Octets) : Nat → List ParsedRecord → Option DaneMatch
  | _, [] => none
  | recordIndex, record :: records =>
    if record.usage = .daneEe ∧ materialMatches crypto leaf spki record then
      some (.of recordIndex record)
    else matchLeaf leaf spki (recordIndex + 1) records

/-- The first certificate of the chain that a record matches. -/
def findMatched (record : ParsedRecord) :
    List Octets → Except DaneError (Option Octets)
  | [] => .ok none
  | certificate :: chain => do
    let spki ← extractSubjectPublicKeyInfo certificate
    if limits.maxSpkiLen < spki.length then .error .spkiLength
    else if materialMatches crypto certificate spki record then .ok (some certificate)
    else findMatched record chain

/-- The trust anchor that a DANE-TA record selects, if it selects one.  A full
certificate may be carried by the record alone. -/
def anchorDer (chain : List Octets) (leaf : Octets) (record : ParsedRecord) :
    Except DaneError (Option Octets) :=
  if record.selector = .fullCertificate ∧ record.matchingType = .exact then
    if ¬ constantTimeEq record.associationData leaf ∧
        chain.all (fun certificate => !constantTimeEq record.associationData certificate) then
      .ok (some record.associationData)
    else
      match chain.find? (constantTimeEq record.associationData) with
      | some certificate => .ok (some certificate)
      | none => .error .mismatch
  else findMatched crypto limits record chain

/-- The loop over the DANE-TA records. -/
def matchAnchors (chain : List Octets) (leaf : Octets) (parsedChain : List X509)
    (leafCertificate : X509) (tlsaBaseDomain : Octets) (time : Int) :
    Nat → Bool → List ParsedRecord → Except DaneError DaneMatch
  | _, sawTaMatch, [] => if sawTaMatch then .error .chainValidation else .error .mismatch
  | recordIndex, sawTaMatch, record :: records =>
    if record.usage ≠ .daneTa then
      matchAnchors chain leaf parsedChain leafCertificate tlsaBaseDomain time
        (recordIndex + 1) sawTaMatch records
    else
      match anchorDer crypto limits chain leaf record with
      | .error error => .error error
      | .ok none =>
        matchAnchors chain leaf parsedChain leafCertificate tlsaBaseDomain time
          (recordIndex + 1) sawTaMatch records
      | .ok (some der) =>
        match crypto.fromDer der with
        | none => .error .malformedCertificate
        | some anchor =>
          if crypto.validatePrivateChain leafCertificate parsedChain anchor der
              tlsaBaseDomain time limits then
            .ok (.of recordIndex record)
          else
            matchAnchors chain leaf parsedChain leafCertificate tlsaBaseDomain time
              (recordIndex + 1) true records

/-- `X509::from_der` with the error of the crate. -/
def parseCertificate (der : Octets) : Except DaneError X509 :=
  match crypto.fromDer der with
  | some certificate => .ok certificate
  | none => .error .malformedCertificate

/-- The first item of a chain. -/
def firstOf {α : Type} : List α → Except DaneError α
  | [] => .error .chainLength
  | first :: _ => .ok first

def verifyDaneChain (chain : List Octets) (tlsaBaseDomain : Octets)
    (records : List Tlsa) (time : Int) : Except DaneError DaneMatch := do
  validateChainInputs limits chain tlsaBaseDomain records
  let parsedRecords ← records.mapM (parseRecord limits)
  let leaf ← firstOf chain
  let leafSpki ← extractSubjectPublicKeyInfo leaf
  if limits.maxSpkiLen < leafSpki.length then .error .spkiLength
  else
    match matchLeaf crypto leaf leafSpki 0 parsedRecords with
    | some found => .ok found
    | none => do
      let parsedChain ← chain.mapM (parseCertificate crypto)
      let leafCertificate ← firstOf parsedChain
      matchAnchors crypto limits chain leaf parsedChain leafCertificate tlsaBaseDomain time 0
        false parsedRecords

end

end HnsDaneEngine.Dane
