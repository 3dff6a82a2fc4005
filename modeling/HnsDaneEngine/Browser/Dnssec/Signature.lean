import HnsDaneEngine.Browser.Dnssec.Records
import Mathlib.Data.List.Sort

/-!
# Signatures of record sets in the browser validator

A signature is checked over the canonical form of the records as one set.  All
records must have the owner, class and type of the first one, and no two of them
the same data; otherwise no signed data exists, whatever the signature says.
The cryptographic primitives come from other crates and are parameters here.
-/

namespace HnsDaneEngine.Browser.Dnssec

open Control HnsDaneEngine.Order Wire

/-- The digests under RSA. -/
inductive RsaHash
  | sha1
  | sha256
  | sha512

/-- The primitives of the digest, RSA, ECDSA and Ed25519 crates. -/
structure Crypto where
  sha1 : Octets → Octets
  sha256 : Octets → Octets
  sha384 : Octets → Octets
  /-- Verification with a modulus and an exponent. -/
  verifyRsa : RsaHash → Octets → Octets → Octets → Octets → Bool
  /-- Whether the octets are a point of the curve, and a signature. -/
  isP256Key : Octets → Bool
  isP256Signature : Octets → Bool
  verifyP256 : Octets → Octets → Octets → Bool
  verifyP384 : Octets → Octets → Octets → Bool
  verifyEd25519 : Octets → Octets → Octets → Bool

/-- `encode_label`, as the octets appended to the output. -/
def encodeLabel (label : Label) : Except DnssecError Octets :=
  if 63 < label.length then .error .nameEncoding
  else .ok (UInt8.ofNat label.length :: label.map toAsciiLowercase)

/-- The owner name that was signed: with fewer signed labels than the owner has,
it is the wildcard above them. -/
def canonicalOwner (owner : DnsName) (labels : UInt8) : Except DnssecError Octets :=
  let ownerLabels := owner.labels
  if ownerLabels.length < labels.toNat then .error .invalidRrset
  else do
    let encoded ←
      if labels.toNat < ownerLabels.length then
        (star :: ownerLabels.drop (ownerLabels.length - labels.toNat)).mapM encodeLabel
      else ownerLabels.mapM encodeLabel
    return encoded.flatten ++ [0]

def encodeCanonicalName (name : DnsName) : Except DnssecError Octets :=
  match name.encodeWire with
  | .ok wire => .ok wire
  | .error _ => .error .nameEncoding

def canonicalSingleNameRdata (record : ResourceRecord) : Except DnssecError Octets :=
  match DnsName.parseWire record.rdata 0 with
  | .error _ => .error .invalidRrset
  | .ok (name, stop) =>
    if stop ≠ record.rdata.length then .error .invalidRrset else encodeCanonicalName name

def canonicalSoaRdata (record : ResourceRecord) : Except DnssecError Octets :=
  match DnsName.parseWire record.rdata 0 with
  | .error _ => .error .invalidRrset
  | .ok (mname, cursor) =>
    match DnsName.parseWire record.rdata cursor with
    | .error _ => .error .invalidRrset
    | .ok (rname, cursor) =>
      match slice record.rdata cursor (cursor + 20) with
      | none => .error .invalidRrset
      | some timers =>
        if cursor + 20 ≠ record.rdata.length then .error .invalidRrset
        else do
          let mnameWire ← encodeCanonicalName mname
          let rnameWire ← encodeCanonicalName rname
          return mnameWire ++ rnameWire ++ timers

def canonicalSrvRdata (record : ResourceRecord) : Except DnssecError Octets :=
  match slice record.rdata 0 6 with
  | none => .error .invalidRrset
  | some fixed =>
    match DnsName.parseWire record.rdata 6 with
    | .error _ => .error .invalidRrset
    | .ok (target, stop) =>
      if stop ≠ record.rdata.length then .error .invalidRrset
      else do
        let targetWire ← encodeCanonicalName target
        return fixed ++ targetWire

def canonicalSvcbRdata (record : ResourceRecord) : Except DnssecError Octets :=
  match SvcbRecord.fromRecord record with
  | .error _ => .error .invalidRrset
  | .ok svcb => do
    let targetWire ← encodeCanonicalName svcb.targetName
    return writeU16Be svcb.svcPriority ++ targetWire ++ svcb.params.flatMap fun param =>
        writeU16Be param.key ++ Frame.u16 param.value.length ++ param.value

def canonicalNsecRdata (record : ResourceRecord) : Except DnssecError Octets := do
  let nsec ← NsecRecord.fromRecord record
  let nextWire ← encodeCanonicalName nsec.nextDomainName
  return nextWire ++ nsec.typeBitMaps

def canonicalNsec3Rdata (record : ResourceRecord) : Except DnssecError Octets := do
  let _ ← Nsec3Record.fromRecord record
  return record.rdata

def canonicalRdata (record : ResourceRecord) : Except DnssecError Octets :=
  match record.recordType with
  | .a | .aaaa | .ds | .dnskey | .tlsa | .txt | .unknown _ => .ok record.rdata
  | .ns | .cname => canonicalSingleNameRdata record
  | .soa => canonicalSoaRdata record
  | .srv => canonicalSrvRdata record
  | .nsec => canonicalNsecRdata record
  | .nsec3 => canonicalNsec3Rdata record
  | .svcb | .https => canonicalSvcbRdata record
  | .rrsig => .error .unsupportedCanonicalRdata

/-- A record to be signed. -/
structure CanonicalRecord where
  rdata : Octets
  wire : Octets

/-- The canonical form of one record of a set whose first record and canonical
owner are given. -/
def canonicalRecord (first : ResourceRecord) (owner : Octets) (rrsig : RrsigRecord)
    (record : ResourceRecord) : Except DnssecError CanonicalRecord :=
  if record.recordType ≠ first.recordType ∨ record.class_ ≠ first.class_ then
    .error .invalidRrset
  else
    match canonicalOwner record.name rrsig.labels with
    | .error error => .error error
    | .ok recordOwner =>
      if recordOwner ≠ owner then .error .invalidRrset
      else
        match canonicalRdata record with
        | .error error => .error error
        | .ok rdata =>
          if 65535 < rdata.length then .error .invalidRrset
          else
            .ok ⟨rdata, owner ++ writeU16Be record.recordType.code ++
              writeU16Be record.class_ ++ writeU32Be rrsig.originalTtl ++
              Frame.u16 rdata.length ++ rdata⟩

def canonicalRrset (rrset : List ResourceRecord) (rrsig : RrsigRecord) :
    Except DnssecError (List CanonicalRecord) :=
  match rrset with
  | [] => .error .invalidRrset
  | first :: _ =>
    if first.recordType ≠ rrsig.typeCovered then .error .invalidRrset
    else
      match canonicalOwner first.name rrsig.labels with
      | .error error => .error error
      | .ok owner => rrset.mapM (canonicalRecord first owner rrsig)

/-- Do two neighbours have the same data? -/
def hasDuplicateRdata : List CanonicalRecord → Bool
  | first :: second :: rest => first.rdata == second.rdata || hasDuplicateRdata (second :: rest)
  | _ => false

/-- The octets that a signature is over. -/
def signedData (rrset : List ResourceRecord) (rrsig : RrsigRecord) (now : Nat) :
    Except DnssecError Octets :=
  if !rrsig.isValidAt now then .error .signatureOutsideValidity
  else
    match canonicalRrset rrset rrsig with
    | .error error => .error error
    | .ok canonicalRecords =>
      let sorted := canonicalRecords.insertionSort fun left right => left.rdata ≤ right.rdata
      if hasDuplicateRdata sorted then .error .invalidRrset
      else .ok (rrsig.signedRdata ++ sorted.flatMap CanonicalRecord.wire)

/-- `BigUint::from_bytes_be`. -/
def natFromBytesBe (bytes : Octets) : Nat :=
  bytes.foldl (fun value byte => value * 256 + byte.toNat) 0

/-- The last octets of a number in network order. -/
def bytesBe : Nat → Nat → Octets
  | 0, _ => []
  | count + 1, value => bytesBe count (value / 256) ++ [UInt8.ofNat (value % 256)]

theorem length_bytesBe (count value : Nat) : (bytesBe count value).length = count := by
  induction count generalizing value with
  | zero => rfl
  | succ count ih => simp [bytesBe, ih]

/-- Exponent and modulus, where the exponent has a length field of one octet or
of a zero octet followed by two. -/
def parseRsaPublicKey (publicKey : Octets) : Except DnssecError (Octets × Octets) :=
  let split (exponentLen : Nat) (rest : Octets) :
      Except DnssecError (Octets × Octets) :=
    if exponentLen = 0 then .error .invalidDnskey
    else if rest.length ≤ exponentLen then .error .invalidDnskey
    else .ok (rest.take exponentLen, rest.drop exponentLen)
  match publicKey with
  | [] => .error .invalidDnskey
  | length :: rest =>
    if length = 0 then
      match rest with
      | high :: low :: rest => split (u16FromBe high low).toNat rest
      | _ => .error .invalidDnskey
    else split length.toNat rest

def sha1DigestInfoPrefix : Octets :=
  [0x30, 0x21, 0x30, 0x09, 0x06, 0x05, 0x2b, 0x0e, 0x03, 0x02, 0x1a, 0x05, 0x00, 0x04, 0x14]

def rsaPkcs1MinPaddingLen : Nat := 8

section

variable (crypto : Crypto)

def rsaSha1DigestInfo (data : Octets) : Octets :=
  sha1DigestInfoPrefix ++ crypto.sha1 data

/-- The block that the signature recovers is `00 01`, padding octets `ff`, `00`
and the digest info. -/
def verifyRsaSha1Pkcs1V15 (exponent modulus data signature : Octets) : Bool :=
  if exponent.isEmpty || modulus.isEmpty || signature.length != modulus.length then false
  else
    let n := natFromBytesBe modulus
    let e := natFromBytesBe exponent
    let s := natFromBytesBe signature
    if n = 0 ∨ e = 0 ∨ n ≤ s then false
    else
      let encoded := bytesBe modulus.length (s ^ e % n)
      let expectedSuffix := rsaSha1DigestInfo crypto data
      if encoded.length < 3 + rsaPkcs1MinPaddingLen + expectedSuffix.length ∨
          encoded[0]? ≠ some 0 ∨ encoded[1]? ≠ some 1 then false
      else
        let separator := encoded.length - expectedSuffix.length - 1
        2 + rsaPkcs1MinPaddingLen ≤ separator &&
          ((encoded.drop 2).take (separator - 2)).all (· == 0xff) &&
          encoded[separator]? == some 0 && encoded.drop (separator + 1) == expectedSuffix

def verifyRsa (rrset : List ResourceRecord) (rrsig : RrsigRecord) (dnskey : DnskeyRecord)
    (now : Nat) (hash : RsaHash) : Except DnssecError Bool := do
  let (exponent, modulus) ← parseRsaPublicKey dnskey.publicKey
  let data ← signedData rrset rrsig now
  match hash with
  | .sha1 => return verifyRsaSha1Pkcs1V15 crypto exponent modulus data rrsig.signature
  | hash => return crypto.verifyRsa hash modulus exponent data rrsig.signature

def verifyEcdsaP256Sha256 (rrset : List ResourceRecord) (rrsig : RrsigRecord)
    (dnskey : DnskeyRecord) (now : Nat) : Except DnssecError Bool :=
  if dnskey.publicKey.length ≠ 64 then .error .invalidDnskey
  else if rrsig.signature.length ≠ 64 then .error .invalidSignature
  else if !crypto.isP256Key (0x04 :: dnskey.publicKey) then .error .invalidDnskey
  else if !crypto.isP256Signature rrsig.signature then .error .invalidSignature
  else do
    let data ← signedData rrset rrsig now
    return crypto.verifyP256 (0x04 :: dnskey.publicKey) data rrsig.signature

def verifyEcdsaP384Sha384 (rrset : List ResourceRecord) (rrsig : RrsigRecord)
    (dnskey : DnskeyRecord) (now : Nat) : Except DnssecError Bool :=
  if dnskey.publicKey.length ≠ 96 then .error .invalidDnskey
  else if rrsig.signature.length ≠ 96 then .error .invalidSignature
  else do
    let data ← signedData rrset rrsig now
    return crypto.verifyP384 (0x04 :: dnskey.publicKey) data rrsig.signature

def verifyEd25519 (rrset : List ResourceRecord) (rrsig : RrsigRecord)
    (dnskey : DnskeyRecord) (now : Nat) : Except DnssecError Bool :=
  if dnskey.publicKey.length ≠ 32 then .error .invalidDnskey
  else if rrsig.signature.length ≠ 64 then .error .invalidSignature
  else do
    let data ← signedData rrset rrsig now
    return crypto.verifyEd25519 dnskey.publicKey data rrsig.signature

/-- Verification by the algorithm of the signature. -/
def verifyWithAlgorithm (rrset : List ResourceRecord) (rrsig : RrsigRecord)
    (dnskey : DnskeyRecord) (now : Nat) : Except DnssecError Bool :=
  match rrsig.algorithm.toNat with
  | 5 | 7 => verifyRsa crypto rrset rrsig dnskey now .sha1
  | 8 => verifyRsa crypto rrset rrsig dnskey now .sha256
  | 10 => verifyRsa crypto rrset rrsig dnskey now .sha512
  | 13 => verifyEcdsaP256Sha256 crypto rrset rrsig dnskey now
  | 14 => verifyEcdsaP384Sha384 crypto rrset rrsig dnskey now
  | 15 => verifyEd25519 crypto rrset rrsig dnskey now
  | _ => .error .unsupportedAlgorithm

def verifyRrsig (rrset : List ResourceRecord) (rrsig : RrsigRecord) (dnskey : DnskeyRecord)
    (now : Nat) : Except DnssecError Bool :=
  match rrset with
  | [] => .error .invalidRrset
  | first :: _ =>
    if rrsig.labels.toNat ≠ first.name.labels.length then .ok false
    else if dnskey.flags &&& dnskeyZoneFlag = 0 then .ok false
    else if rrsig.algorithm ≠ dnskey.algorithm ∨ rrsig.keyTag ≠ dnskey.keyTag then .ok false
    else verifyWithAlgorithm crypto rrset rrsig dnskey now

/-- The loop over signatures and keys: the first success, or else the first
error. -/
def trySignatures (rrset : List ResourceRecord) (now : Nat) :
    Option DnssecError → List (RrsigRecord × DnskeyRecord) → Except DnssecError DnssecStatus
  | some error, [] => .error error
  | none, [] => .ok .bogus
  | deferred, (rrsig, dnskey) :: rest =>
    match verifyRrsig crypto rrset rrsig dnskey now with
    | .ok true => .ok .secure
    | .ok false => trySignatures rrset now deferred rest
    | .error error => trySignatures rrset now (deferred.or (some error)) rest

def validateRrsetSignature (dnskeyOwner : DnsName)
    (dnskeyRrset rrset rrsigRrset : List ResourceRecord) (now : Nat) :
    Except DnssecError DnssecStatus :=
  match rrset with
  | [] => .error .invalidRrset
  | first :: _ => do
    let dnskeys ← (dnskeyRrset.filter fun record => record.recordType = .dnskey).mapM
      DnskeyRecord.fromRecord
    let rrsigs ← (rrsigRrset.filter fun record =>
      record.recordType = .rrsig ∧ record.name = first.name ∧ record.class_ = first.class_).mapM
      RrsigRecord.fromRecord
    let covering := rrsigs.filter fun rrsig =>
      rrsig.typeCovered = first.recordType ∧ rrsig.signerName = dnskeyOwner
    trySignatures crypto rrset now none <| covering.flatMap fun rrsig =>
      (dnskeys.filter fun dnskey =>
        dnskey.algorithm = rrsig.algorithm ∧ dnskey.keyTag = rrsig.keyTag).map (rrsig, ·)

def dsDigest (owner : DnsName) (dnskey : DnskeyRecord) (digestType : UInt8) :
    Except DnssecError Octets :=
  match owner.encodeWire with
  | .error _ => .error .nameEncoding
  | .ok wire =>
    let canonical := wire ++ dnskey.rdata
    match digestType.toNat with
    | 1 => .ok (crypto.sha1 canonical)
    | 2 => .ok (crypto.sha256 canonical)
    | 4 => .ok (crypto.sha384 canonical)
    | _ => .error .unsupportedDigest

def verifyDsDigest (owner : DnsName) (dnskey : DnskeyRecord) (ds : DsRecord) :
    Except DnssecError Bool :=
  if dnskey.flags &&& dnskeyZoneFlag = 0 then .ok false
  else if dnskey.algorithm ≠ ds.algorithm ∨ dnskey.keyTag ≠ ds.keyTag then .ok false
  else (dsDigest crypto owner dnskey ds.digestType).map (· == ds.digest)

/-- Whether a key matches one of the delegation signers; every one of them is
tried. -/
def matchesDs (owner : DnsName) (dnskey : DnskeyRecord) :
    List DsRecord → Except DnssecError Bool
  | [] => .ok false
  | ds :: rest => do
    let matched ← verifyDsDigest crypto owner dnskey ds
    let matchedLater ← matchesDs owner dnskey rest
    return matched || matchedLater

/-- The keys that match a delegation signer. -/
def authenticatedKeys (owner : DnsName) (dsRecords : List DsRecord) :
    List (ResourceRecord × DnskeyRecord) → Except DnssecError (List ResourceRecord)
  | [] => .ok []
  | (record, dnskey) :: rest => do
    let matched ← matchesDs crypto owner dnskey dsRecords
    let authenticated ← authenticatedKeys owner dsRecords rest
    return if matched then record :: authenticated else authenticated

def dsAuthenticatedDnskeys (owner : DnsName) (dsRrset dnskeyRrset : List ResourceRecord) :
    Except DnssecError (DnssecStatus × List ResourceRecord) := do
  let dsRecords ← (dsRrset.filter fun record => record.recordType = .ds).mapM DsRecord.fromRecord
  if dsRecords.isEmpty then return (.insecureDelegation, [])
  else
    let dnskeys ← (dnskeyRrset.filter fun record => record.recordType = .dnskey).mapM
      fun record => (DnskeyRecord.fromRecord record).map (record, ·)
    let authenticated ← authenticatedKeys crypto owner dsRecords dnskeys
    if authenticated.isEmpty then return (.bogus, []) else return (.secure, authenticated)

/-- A signed set under one delegation. -/
structure SignedRrsetValidationInput where
  dnskeyOwner : DnsName
  dsRrset : List ResourceRecord
  dnskeyRrset : List ResourceRecord
  dnskeyRrsigRrset : List ResourceRecord
  rrset : List ResourceRecord
  rrsigRrset : List ResourceRecord
  now : Nat

def validateSignedRrset (input : SignedRrsetValidationInput) :
    Except DnssecError DnssecStatus := do
  let (delegation, delegationKeys) ←
    dsAuthenticatedDnskeys crypto input.dnskeyOwner input.dsRrset input.dnskeyRrset
  if delegation ≠ .secure then return delegation
  else
    let dnskeyStatus ← validateRrsetSignature crypto input.dnskeyOwner delegationKeys
      input.dnskeyRrset input.dnskeyRrsigRrset input.now
    if dnskeyStatus ≠ .secure then return dnskeyStatus
    else
      validateRrsetSignature crypto input.dnskeyOwner input.dnskeyRrset input.rrset
        input.rrsigRrset input.now

/-- A signed delegation to a child zone. -/
structure DnssecChainLink where
  childDnskeyOwner : DnsName
  dsRrset : List ResourceRecord
  dsRrsigRrset : List ResourceRecord
  childDnskeyRrset : List ResourceRecord
  childDnskeyRrsigRrset : List ResourceRecord

/-- A signed set under a chain. -/
structure DnssecChainValidationInput where
  initialDnskeyOwner : DnsName
  initialDsRrset : List ResourceRecord
  initialDnskeyRrset : List ResourceRecord
  initialDnskeyRrsigRrset : List ResourceRecord
  delegationLinks : List DnssecChainLink
  targetRrset : List ResourceRecord
  targetRrsigRrset : List ResourceRecord
  now : Nat

/-- The link loop of `validate_dnssec_chain`, which ends with the target set
under the keys reached. -/
def validateLinks (input : DnssecChainValidationInput) (currentOwner : DnsName)
    (currentDnskeyRrset : List ResourceRecord) :
    List DnssecChainLink → Except DnssecError DnssecStatus
  | [] =>
    validateRrsetSignature crypto currentOwner currentDnskeyRrset input.targetRrset
      input.targetRrsigRrset input.now
  | link :: rest => do
    let (delegation, delegationKeys) ←
      dsAuthenticatedDnskeys crypto link.childDnskeyOwner link.dsRrset link.childDnskeyRrset
    if delegation ≠ .secure then return delegation
    else
      let dsStatus ← validateRrsetSignature crypto currentOwner currentDnskeyRrset link.dsRrset
        link.dsRrsigRrset input.now
      if dsStatus ≠ .secure then return dsStatus
      else
        let childStatus ← validateRrsetSignature crypto link.childDnskeyOwner delegationKeys
          link.childDnskeyRrset link.childDnskeyRrsigRrset input.now
        if childStatus ≠ .secure then return childStatus
        else validateLinks input link.childDnskeyOwner link.childDnskeyRrset rest

def validateDnssecChain (input : DnssecChainValidationInput) :
    Except DnssecError DnssecStatus := do
  let (delegation, delegationKeys) ← dsAuthenticatedDnskeys crypto input.initialDnskeyOwner
    input.initialDsRrset input.initialDnskeyRrset
  if delegation ≠ .secure then return delegation
  else
    let dnskeyStatus ← validateRrsetSignature crypto input.initialDnskeyOwner delegationKeys
      input.initialDnskeyRrset input.initialDnskeyRrsigRrset input.now
    if dnskeyStatus ≠ .secure then return dnskeyStatus
    else
      validateLinks crypto input input.initialDnskeyOwner input.initialDnskeyRrset
        input.delegationLinks

end

variable {crypto : Crypto} {rrset : List ResourceRecord} {now : Nat}

theorem trySignatures_eq_secure_iff (deferred : Option DnssecError)
    (pairs : List (RrsigRecord × DnskeyRecord)) :
    trySignatures crypto rrset now deferred pairs = .ok .secure ↔
      ∃ pair ∈ pairs, verifyRrsig crypto rrset pair.1 pair.2 now = .ok true := by
  induction pairs generalizing deferred with
  | nil => cases deferred <;> simp [trySignatures]
  | cons pair rest ih =>
    obtain ⟨rrsig, dnskey⟩ := pair
    rw [trySignatures, List.exists_mem_cons_iff]
    cases verified : verifyRrsig crypto rrset rrsig dnskey now with
    | error error => simp [ih]
    | ok valid => cases valid <;> simp [ih]

section

variable {rrsig : RrsigRecord} {dnskey : DnskeyRecord}

/-- Every algorithm verifies over the signed data of the set. -/
theorem signedData_of_verifyWithAlgorithm
    (verified : verifyWithAlgorithm crypto rrset rrsig dnskey now = .ok true) :
    ∃ data, signedData rrset rrsig now = .ok data := by
  have rsa : ∀ hash, verifyRsa crypto rrset rrsig dnskey now hash = .ok true →
      ∃ data, signedData rrset rrsig now = .ok data := by
    intro hash verified
    obtain ⟨_, _, verified⟩ := of_bind_ok verified
    obtain ⟨data, data_ok, _⟩ := of_bind_ok verified
    exact ⟨data, data_ok⟩
  have last : ∀ {verify : Octets → Bool},
      (do let data ← signedData rrset rrsig now; return verify data) = Except.ok true →
      ∃ data, signedData rrset rrsig now = .ok data := by
    intro verify verified
    obtain ⟨data, data_ok, _⟩ := of_bind_ok verified
    exact ⟨data, data_ok⟩
  unfold verifyWithAlgorithm at verified
  split at verified
  · exact rsa _ verified
  · exact rsa _ verified
  · exact rsa _ verified
  · exact rsa _ verified
  · simp only [verifyEcdsaP256Sha256, guard_eq_ok_iff] at verified
    exact last verified.2.2.2.2
  · simp only [verifyEcdsaP384Sha384, guard_eq_ok_iff] at verified
    exact last verified.2.2
  · simp only [verifyEd25519, guard_eq_ok_iff] at verified
    exact last verified.2.2
  · contradiction

/-- A signature that verifies covers signed data of the set, under as many
labels as the first owner has. -/
theorem signedData_of_verifyRrsig
    (verified : verifyRrsig crypto rrset rrsig dnskey now = .ok true) :
    ∃ first rest data, rrset = first :: rest ∧
      rrsig.labels.toNat = first.name.labels.length ∧ signedData rrset rrsig now = .ok data := by
  unfold verifyRrsig at verified
  cases rrset with
  | nil => contradiction
  | cons first rest =>
    dsimp only at verified
    split at verified
    · simp at verified
    rename_i labels_eq
    split at verified
    · simp at verified
    · split at verified
      · simp at verified
      · obtain ⟨data, data_ok⟩ := signedData_of_verifyWithAlgorithm verified
        exact ⟨first, rest, data, rfl, not_not.mp labels_eq, data_ok⟩

end

variable {dnskeyOwner : DnsName} {dnskeyRrset rrsigRrset : List ResourceRecord}

theorem validateRrsetSignature_eq_secure
    (secure : validateRrsetSignature crypto dnskeyOwner dnskeyRrset rrset rrsigRrset now =
      .ok .secure) :
    ∃ rrsig dnskey, verifyRrsig crypto rrset rrsig dnskey now = .ok true := by
  unfold validateRrsetSignature at secure
  cases rrset with
  | nil => contradiction
  | cons first rest =>
    obtain ⟨_, _, secure⟩ := of_bind_ok secure
    obtain ⟨_, _, secure⟩ := of_bind_ok secure
    obtain ⟨⟨rrsig, dnskey⟩, _, verified⟩ := (trySignatures_eq_secure_iff _ _).mp secure
    exact ⟨rrsig, dnskey, verified⟩

private theorem mapM_encodeLabel {labels : List Label}
    (bounded : ∀ label ∈ labels, label.length ≤ maxDnsLabelLen)
    (lowercase : ∀ label ∈ labels, canonicalLabel label = label) :
    ∃ encoded, labels.mapM encodeLabel = .ok encoded ∧ encoded.flatten ++ [0] = wireOf labels := by
  induction labels with
  | nil => exact ⟨[], rfl, rfl⟩
  | cons label rest ih =>
    rw [List.forall_mem_cons] at bounded lowercase
    obtain ⟨encoded, encoded_ok, wire_eq⟩ := ih bounded.2 lowercase.2
    have label_ok : encodeLabel label = .ok (UInt8.ofNat label.length :: label) := by
      have small : ¬ 63 < label.length := Nat.not_lt.mpr bounded.1
      have lower : label.map toAsciiLowercase = label := lowercase.1
      rw [encodeLabel, if_neg small, lower]
    refine ⟨(UInt8.ofNat label.length :: label) :: encoded, ?_, ?_⟩
    · rw [List.mapM_cons, label_ok, encoded_ok]
      rfl
    · rw [List.flatten_cons, List.append_assoc, wire_eq]
      rfl

/-- An owner that is signed with all of its labels is signed in wire form. -/
theorem canonicalOwner_of_length {owner : DnsName} {labels : UInt8}
    (length_eq : labels.toNat = owner.labels.length) :
    canonicalOwner owner labels = .ok (wireOf owner.labels) := by
  obtain ⟨encoded, encoded_ok, wire_eq⟩ :=
    mapM_encodeLabel owner.valid.bounded owner.valid.lowercase
  unfold canonicalOwner
  dsimp only
  rw [length_eq, if_neg (by simp), if_neg (by simp), encoded_ok, ← wire_eq]
  rfl

theorem nodup_of_noDuplicateRdata {records : List CanonicalRecord}
    (sorted : (records.map CanonicalRecord.rdata).Pairwise (· ≤ ·))
    (noDuplicate : hasDuplicateRdata records = false) :
    (records.map CanonicalRecord.rdata).Nodup := by
  have increasing : (records.map CanonicalRecord.rdata).Pairwise (· < ·) := by
    apply List.isChain_iff_pairwise.mp
    induction records with
    | nil => exact .nil
    | cons first rest ih =>
      cases rest with
      | nil => exact .singleton _
      | cons second rest =>
        simp only [hasDuplicateRdata, Bool.or_eq_false_iff, beq_eq_false_iff_ne] at noDuplicate
        rw [List.map_cons, List.pairwise_cons] at sorted
        have less := lt_of_le_of_ne (sorted.1 second.rdata (by simp)) noDuplicate.1
        exact .cons_cons less (ih sorted.2 noDuplicate.2)
  exact increasing.imp fun less => less.ne

/-- Signed data exists only for records with the canonical owner of the first
one, each in canonical form, with no data twice. -/
theorem signedData_eq_ok {first : ResourceRecord} {rest : List ResourceRecord}
    {rrsig : RrsigRecord} {data : Octets}
    (data_ok : signedData (first :: rest) rrsig now = .ok data) :
    ∃ canonical : List CanonicalRecord, (canonical.map CanonicalRecord.rdata).Nodup ∧
      List.Forall₂ (fun record form => canonicalRdata record = .ok form.rdata ∧
        canonicalOwner record.name rrsig.labels = canonicalOwner first.name rrsig.labels)
        (first :: rest) canonical := by
  unfold signedData at data_ok
  rw [guard_eq_ok_iff] at data_ok
  cases canonical_ok : canonicalRrset (first :: rest) rrsig with
  | error error => simp [canonical_ok] at data_ok
  | ok canonical =>
    simp only [canonical_ok, guard_eq_ok_iff] at data_ok
    refine ⟨canonical, ?_, ?_⟩
    · have perm := List.perm_insertionSort
        (fun left right : CanonicalRecord => left.rdata ≤ right.rdata) canonical
      have sorted := List.pairwise_insertionSort (· ≤ ·) (canonical.map CanonicalRecord.rdata)
      rw [← List.map_insertionSort (fun left right => left.rdata ≤ right.rdata) _
        CanonicalRecord.rdata canonical (by simp)] at sorted
      apply (perm.map CanonicalRecord.rdata).nodup_iff.mp
      exact nodup_of_noDuplicateRdata sorted (by simpa using data_ok.2.1)
    · unfold canonicalRrset at canonical_ok
      simp only [guard_eq_ok_iff] at canonical_ok
      cases owner_ok : canonicalOwner first.name rrsig.labels with
      | error error => simp [owner_ok] at canonical_ok
      | ok owner =>
        simp only [owner_ok, mapM_eq_ok_iff] at canonical_ok
        apply canonical_ok.2.imp
        intro record form form_ok
        unfold canonicalRecord at form_ok
        rw [guard_eq_ok_iff] at form_ok
        cases recordOwner_ok : canonicalOwner record.name rrsig.labels with
        | error error => simp [recordOwner_ok] at form_ok
        | ok recordOwner =>
          simp only [recordOwner_ok, guard_eq_ok_iff, not_not] at form_ok
          cases rdata_ok : canonicalRdata record with
          | error error => simp [rdata_ok] at form_ok
          | ok rdata =>
            simp only [rdata_ok, guard_eq_ok_iff] at form_ok
            obtain ⟨_, owner_eq, _, form_eq⟩ := form_ok
            rw [← Except.ok.inj form_eq, owner_eq]
            exact ⟨rfl, rfl⟩

/-- Records with owners of one length that have a secure status as one set all
have the same owner, and no two of them the same canonical data. -/
theorem isRrset_of_secure {length : Nat}
    (sameLength : ∀ record ∈ rrset, record.name.labels.length = length)
    (secure : validateRrsetSignature crypto dnskeyOwner dnskeyRrset rrset rrsigRrset now =
      .ok .secure) :
    (∀ record ∈ rrset, ∀ other ∈ rrset, record.name = other.name) ∧
      ∃ canonical : List Octets, canonical.Nodup ∧
        List.Forall₂ (fun record rdata => canonicalRdata record = .ok rdata) rrset canonical := by
  obtain ⟨rrsig, dnskey, verified⟩ := validateRrsetSignature_eq_secure secure
  obtain ⟨first, rest, data, rfl, labels_eq, data_ok⟩ := signedData_of_verifyRrsig verified
  obtain ⟨canonical, nodup, forms⟩ := signedData_eq_ok data_ok
  have nameOf : ∀ record ∈ first :: rest, record.name = first.name := by
    intro record mem
    have owner_eq := forall_mem_of_forall₂ (fun _ _ form_ok => form_ok.2) forms record mem
    have firstLength := sameLength first List.mem_cons_self
    have recordLength := sameLength record mem
    rw [canonicalOwner_of_length labels_eq,
      canonicalOwner_of_length (by omega), Except.ok.injEq] at owner_eq
    apply DnsName.ext_labels
    exact wireOf_inj
      (fun label labelMem => ⟨record.name.valid.nonempty label labelMem,
        record.name.valid.bounded label labelMem⟩)
      (fun label labelMem => ⟨first.name.valid.nonempty label labelMem,
        first.name.valid.bounded label labelMem⟩) owner_eq
  constructor
  · intro record mem other otherMem
    rw [nameOf record mem, nameOf other otherMem]
  · refine ⟨canonical.map CanonicalRecord.rdata, nodup, ?_⟩
    rw [List.forall₂_map_right_iff]
    exact forms.imp fun _ _ form_ok => form_ok.1

end HnsDaneEngine.Browser.Dnssec
