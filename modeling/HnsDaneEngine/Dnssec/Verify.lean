import HnsDaneEngine.Dnssec.Canonical

/-!
# Verification of one signed RRset

`verify_rrset` accepts the first signature that covers the RRset, is current, has
a supported algorithm and verifies under one of the supplied keys.  The functions
of the cryptographic library are parameters; how keys and signatures are taken
apart for them is the source's own.
-/

namespace HnsDaneEngine.Dnssec

open Wire

/-- The digests of OpenSSL. -/
inductive MessageDigest
  | sha1
  | sha256
  | sha384
  | sha512
  deriving DecidableEq

/-- The functions of the cryptographic library.  A hash may fail, and a key or a
signature that the library rejects verifies nothing. -/
structure OpenSsl where
  hash : MessageDigest → Octets → Option Octets
  /-- PKCS #1 verification with a modulus and an exponent. -/
  verifyRsa : MessageDigest → Octets → Octets → Octets → Octets → Bool
  /-- Verification of the two integers of a signature with an uncompressed point. -/
  verifyEcdsa : MessageDigest → Octets → Octets → Octets → Octets → Bool
  verifyEd25519 : Octets → Octets → Octets → Bool
  verifyEd448 : Octets → Octets → Octets → Bool

/-- Current DNSSEC evidence for one RRset. -/
structure VerifiedRrset where
  owner : Name
  recordType : RecordType
  keyTag : UInt16
  algorithm : UInt8
  inception : UInt32
  expiration : UInt32
  observedAtUnix : Nat
  expiresAtUnix : Nat
  deriving DecidableEq

def VerifiedRrset.isFreshAt (verified : VerifiedRrset) (now : Nat) : Bool :=
  verified.observedAtUnix ≤ now && now < verified.expiresAtUnix

def rrsigFor (record : ResourceRecord) (owner : Name) (recordType : RecordType) : Option Rrsig :=
  if record.name ≠ owner ∨ record.class_ ≠ classIn ∨ record.recordType ≠ .rrsig then none
  else
    match record.rdata with
    | .rrsig signature => if signature.typeCovered = recordType then some signature else none
    | _ => none

def dnskeyFor (record : ResourceRecord) (owner : Name) : Option Dnskey :=
  if record.name ≠ owner ∨ record.class_ ≠ classIn ∨ record.recordType ≠ .dnskey then none
  else
    match record.rdata with
    | .dnskey key => some key
    | _ => none

variable {signature : Rrsig}

theorem rrsigFor_eq_some {record : ResourceRecord} {owner : Name} {recordType : RecordType}
    (found : rrsigFor record owner recordType = some signature) :
    record.name = owner ∧ record.class_ = classIn ∧ record.recordType = .rrsig ∧
      record.rdata = .rrsig signature ∧ signature.typeCovered = recordType := by
  unfold rrsigFor at found
  split_ifs at found with mismatch
  push Not at mismatch
  split at found
  next other rdata_eq =>
    split_ifs at found with covers
    obtain rfl := Option.some.inj found
    exact ⟨mismatch.1, mismatch.2.1, mismatch.2.2, rdata_eq, covers⟩
  · cases found

theorem dnskeyFor_eq_some {record : ResourceRecord} {owner : Name} {key : Dnskey}
    (found : dnskeyFor record owner = some key) :
    record.name = owner ∧ record.class_ = classIn ∧ record.recordType = .dnskey ∧
      record.rdata = .dnskey key := by
  unfold dnskeyFor at found
  split_ifs at found with mismatch
  push Not at mismatch
  split at found
  next other rdata_eq =>
    obtain rfl := Option.some.inj found
    exact ⟨mismatch.1, mismatch.2.1, mismatch.2.2, rdata_eq⟩
  · cases found

/-- One step of the key tag sum. -/
def addOctet (accumulator : UInt32) (octet : UInt8 × Nat) : UInt32 :=
  accumulator + if octet.2 &&& 1 = 0 then octet.1.toUInt32 <<< 8 else octet.1.toUInt32

/-- The RFC 4034 key tag. -/
def dnskeyTag (key : Dnskey) : UInt16 :=
  let accumulator := (encodeDnskey key).zipIdx.foldl addOctet 0
  ((accumulator + ((accumulator >>> 16) &&& 0xffff)) &&& 0xffff).toUInt16

/-- Serial number order of RFC 1982. -/
def serialLe (left right : UInt32) : Bool :=
  left = right || right - left < 0x80000000

def serialInWindow (now inception expiration : UInt32) : Bool :=
  serialLe inception now && serialLe now expiration

/-- The smallest TTL, or zero when there is none. -/
def minimumTtl (ttls : List UInt32) : Nat :=
  ((ttls.map UInt32.toNat).min?).getD 0

def recordsExpireAt (records : List ResourceRecord) (observedAt : UInt32) : Nat :=
  observedAt.toNat + minimumTtl (records.map ResourceRecord.ttl)

def rrsetExpiresAt (records : List ResourceRecord) (signatureRecord : ResourceRecord)
    (signature : Rrsig) (validationTime : UInt32) : Nat :=
  let ttlDeadline := validationTime.toNat + minimumTtl
    (records.map ResourceRecord.ttl ++ [signatureRecord.ttl, signature.originalTtl])
  let signatureDeadline :=
    validationTime.toNat + (signature.expiration - validationTime).toNat + 1
  min ttlDeadline signatureDeadline

theorem minimumTtl_le {ttls : List UInt32} {ttl : UInt32} (ttlMem : ttl ∈ ttls) :
    minimumTtl ttls ≤ ttl.toNat := by
  unfold minimumTtl
  have mem : ttl.toNat ∈ ttls.map UInt32.toNat := List.mem_map_of_mem ttlMem
  cases minimum_eq : (ttls.map UInt32.toNat).min? with
  | none => exact Nat.zero_le _
  | some minimum => exact (List.min?_eq_some_iff.mp minimum_eq).2 _ mem

/-- Times at which neither the records nor the signature have run out. -/
structure Outlasts (validationTime : UInt32) (records : List ResourceRecord)
    (signatureRecord : ResourceRecord) (signature : Rrsig) (now : Nat) : Prop where
  records_current : ∀ record ∈ records, now < validationTime.toNat + record.ttl.toNat
  signature_current : now < validationTime.toNat + signatureRecord.ttl.toNat
  within_expiration : serialLe (UInt32.ofNat now) signature.expiration = true

/-- Half-window arithmetic: from inside the window, the distance to the expiration
shrinks with the clock and does not wrap. -/
theorem serialLe_of_le {start expiration : UInt32} {now : Nat}
    (inWindow : serialLe start expiration = true) (started : start.toNat ≤ now)
    (bounded : now < start.toNat + (expiration - start).toNat + 1) :
    serialLe (UInt32.ofNat now) expiration = true := by
  simp only [serialLe, Bool.or_eq_true, decide_eq_true_eq, UInt32.lt_iff_toNat_lt,
    ← UInt32.toNat_inj, UInt32.toNat_sub, UInt32.toNat_ofNat', UInt32.reduceToNat] at *
  have start_lt := start.toNat_lt
  have expiration_lt := expiration.toNat_lt
  omega

theorem outlasts_of_lt_rrsetExpiresAt {records : List ResourceRecord}
    {signatureRecord : ResourceRecord} {validationTime : UInt32} {now : Nat}
    (inWindow : serialInWindow validationTime signature.inception signature.expiration = true)
    (started : validationTime.toNat ≤ now)
    (current : now < rrsetExpiresAt records signatureRecord signature validationTime) :
    Outlasts validationTime records signatureRecord signature now := by
  obtain ⟨ttl_current, signature_current⟩ := lt_min_iff.mp current
  have current_of_mem : ∀ ttl ∈
      records.map ResourceRecord.ttl ++ [signatureRecord.ttl, signature.originalTtl],
      now < validationTime.toNat + ttl.toNat := by
    intro ttl ttlMem
    exact ttl_current.trans_le (Nat.add_le_add_left (minimumTtl_le ttlMem) _)
  constructor
  · intro record recordMem
    exact current_of_mem record.ttl (List.mem_append_left _ (List.mem_map_of_mem recordMem))
  · exact current_of_mem signatureRecord.ttl (by simp)
  · unfold serialInWindow at inWindow
    rw [Bool.and_eq_true] at inWindow
    exact serialLe_of_le inWindow.2 started signature_current

def supportedAlgorithm (algorithm : UInt8) : Bool :=
  match algorithm.toNat with
  | 5 | 7 | 8 | 10 | 13 | 14 | 15 | 16 => true
  | _ => false

/-- Exponent and modulus of an RFC 3110 key. -/
def rsaComponents (raw : Octets) : Option (Octets × Octets) :=
  let split (exponentSize : Nat) (rest : Octets) : Option (Octets × Octets) :=
    if exponentSize = 0 ∨ rest.length < exponentSize then none
    else
      let modulus := rest.drop exponentSize
      if modulus.isEmpty then none else some (rest.take exponentSize, modulus)
  match raw with
  | [] => none
  | first :: rest =>
    if first = 0 then
      match rest with
      | high :: low :: rest => split (high.toNat * 256 + low.toNat) rest
      | _ => none
    else split first.toNat rest

section

variable (openssl : OpenSsl)

def verifyRsa (digest : MessageDigest) (publicKey data signature : Octets) : Bool :=
  match rsaComponents publicKey with
  | none => false
  | some (exponent, modulus) => openssl.verifyRsa digest modulus exponent data signature

def verifyEcdsa (coordinateSize : Nat) (digest : MessageDigest)
    (publicKey data signature : Octets) : Bool :=
  if publicKey.length ≠ coordinateSize * 2 ∨ signature.length ≠ coordinateSize * 2 then false
  else
    openssl.verifyEcdsa digest (4 :: publicKey) data (signature.take coordinateSize)
      (signature.drop coordinateSize)

def verifySignature (algorithm : UInt8) (publicKey data signature : Octets) : Bool :=
  match algorithm.toNat with
  | 5 | 7 => verifyRsa openssl .sha1 publicKey data signature
  | 8 => verifyRsa openssl .sha256 publicKey data signature
  | 10 => verifyRsa openssl .sha512 publicKey data signature
  | 13 => verifyEcdsa openssl 32 .sha256 publicKey data signature
  | 14 => verifyEcdsa openssl 48 .sha384 publicKey data signature
  | 15 => openssl.verifyEd25519 publicKey data signature
  | 16 => openssl.verifyEd448 publicKey data signature
  | _ => false

end

/-- What `verify_signature` answers for an algorithm, a public key, signed data and a
signature. -/
abbrev SignatureCheck : Type :=
  UInt8 → Octets → Octets → Octets → Bool

section

variable (verify : SignatureCheck)

/-- The key of a record when it may have made the signature. -/
def candidateKey (signature : Rrsig) (record : ResourceRecord) : Option Dnskey :=
  match dnskeyFor record signature.signer with
  | none => none
  | some key =>
    if key.protocol ≠ 3 ∨ key.flags &&& 0x0080 ≠ 0 then none
    else if key.algorithm ≠ signature.algorithm ∨ dnskeyTag key ≠ signature.keyTag then none
    else some key

/-- What the loop over the signatures has seen. -/
structure Progress where
  covering : Nat
  sawCurrent : Bool
  sawSupported : Bool
  sawKey : Bool
  unsupported : Option UInt8

def Progress.start : Progress :=
  ⟨0, false, false, false, none⟩

/-- The error when no signature verified. -/
def Progress.failure (progress : Progress) : DnssecError :=
  if progress.covering = 0 then .missingSignature
  else if !progress.sawCurrent then .signatureTime
  else if !progress.sawSupported then .unsupportedAlgorithm (progress.unsupported.getD 0)
  else if !progress.sawKey then .missingKey
  else .signatureMismatch

def verifiedRrset (first : ResourceRecord) (records : List ResourceRecord)
    (signatureRecord : ResourceRecord) (signature : Rrsig) (validationTime : UInt32) :
    VerifiedRrset where
  owner := first.name
  recordType := first.recordType
  keyTag := signature.keyTag
  algorithm := signature.algorithm
  inception := signature.inception
  expiration := signature.expiration
  observedAtUnix := validationTime.toNat
  expiresAtUnix := rrsetExpiresAt records signatureRecord signature validationTime

/-- The loop over the signatures. -/
def trySignatures (first : ResourceRecord) (records keys : List ResourceRecord)
    (validationTime : UInt32) (limits : DnssecLimits) :
    Progress → List ResourceRecord → Except DnssecError VerifiedRrset
  | progress, [] => .error progress.failure
  | progress, record :: rest =>
    match rrsigFor record first.name first.recordType with
    | none => trySignatures first records keys validationTime limits progress rest
    | some signature =>
      if signature.labels.toNat ≠ first.name.labels.length then
        trySignatures first records keys validationTime limits progress rest
      else if !serialInWindow validationTime signature.inception signature.expiration then
        trySignatures first records keys validationTime limits
          { progress with covering := progress.covering + 1 } rest
      else if !supportedAlgorithm signature.algorithm then
        trySignatures first records keys validationTime limits
          { progress with
            covering := progress.covering + 1
            sawCurrent := true
            unsupported := progress.unsupported.or (some signature.algorithm) } rest
      else
        match rrsigSignedData records signature limits.maxSignedDataLen with
        | .error error => .error error
        | .ok signed =>
          let candidates := keys.filterMap (candidateKey signature)
          if candidates.any fun key =>
              verify signature.algorithm key.publicKey signed signature.signature then
            .ok (verifiedRrset first records record signature validationTime)
          else
            trySignatures first records keys validationTime limits
              { progress with
                covering := progress.covering + 1
                sawCurrent := true
                sawSupported := true
                sawKey := progress.sawKey || !candidates.isEmpty } rest

/-- `verify_rrset` with any answers of `verify_signature`. -/
def verifyRrsetBy (records signatures keys : List ResourceRecord) (validationTime : UInt32)
    (limits : DnssecLimits) : Except DnssecError VerifiedRrset :=
  match records with
  | [] => .error .emptyRrset
  | first :: _ =>
    if limits.maxRrsetRecords < records.length ∨ limits.maxSignatures < signatures.length ∨
        limits.maxKeys < keys.length then
      .error .limit
    else if first.class_ ≠ classIn ∨ first.recordType = .rrsig ∨ first.recordType = .opt ∨
        ∃ record ∈ records, record.name ≠ first.name ∨
          record.recordType ≠ first.recordType ∨ record.class_ ≠ classIn then
      .error .rrsetMismatch
    else
      trySignatures verify first records keys validationTime limits Progress.start signatures

/-- Verify one RRset against locally authenticated DNSKEY records. -/
def verifyRrset (openssl : OpenSsl) (records signatures keys : List ResourceRecord)
    (validationTime : UInt32) (limits : DnssecLimits) : Except DnssecError VerifiedRrset :=
  verifyRrsetBy (verifySignature openssl) records signatures keys validationTime limits

/-- All checks that the loop makes of one signature record. -/
def signatureVerifies (first : ResourceRecord) (records keys : List ResourceRecord)
    (validationTime : UInt32) (limits : DnssecLimits) (record : ResourceRecord) : Bool :=
  match rrsigFor record first.name first.recordType with
  | none => false
  | some signature =>
    signature.labels.toNat = first.name.labels.length &&
      serialInWindow validationTime signature.inception signature.expiration &&
      supportedAlgorithm signature.algorithm &&
      match rrsigSignedData records signature limits.maxSignedDataLen with
      | .error _ => false
      | .ok signed =>
        (keys.filterMap (candidateKey signature)).any fun key =>
          verify signature.algorithm key.publicKey signed signature.signature

variable {verify}
variable {first signatureRecord : ResourceRecord} {records signatures keys : List ResourceRecord}
  {validationTime : UInt32} {limits : DnssecLimits} {progress : Progress}
  {verified : VerifiedRrset}

/-- A record that passes all checks ends the loop with its evidence. -/
theorem trySignatures_cons_of_verifies
    (verifies : signatureVerifies verify first records keys validationTime limits
      signatureRecord = true) :
    ∃ signature, rrsigFor signatureRecord first.name first.recordType = some signature ∧
      trySignatures verify first records keys validationTime limits progress
          (signatureRecord :: signatures) =
        .ok (verifiedRrset first records signatureRecord signature validationTime) := by
  unfold signatureVerifies at verifies
  split at verifies
  · cases verifies
  next signature found =>
    refine ⟨signature, found, ?_⟩
    simp only [Bool.and_eq_true, decide_eq_true_eq] at verifies
    obtain ⟨⟨⟨labels, window⟩, algorithm⟩, verifies⟩ := verifies
    split at verifies
    · cases verifies
    next signed signed_eq =>
      simp only [trySignatures, found, labels, window, algorithm, signed_eq, verifies]
      simp

/-- A record that fails a check does not contribute to success. -/
theorem trySignatures_cons_of_not_verifies
    (rejected : signatureVerifies verify first records keys validationTime limits
      signatureRecord = false)
    (accepted : trySignatures verify first records keys validationTime limits progress
      (signatureRecord :: signatures) = .ok verified) :
    ∃ next, trySignatures verify first records keys validationTime limits next signatures =
      .ok verified := by
  rw [trySignatures] at accepted
  split at accepted
  · exact ⟨_, accepted⟩
  next signature found =>
    split_ifs at accepted with labels window algorithm
    · exact ⟨_, accepted⟩
    · exact ⟨_, accepted⟩
    · exact ⟨_, accepted⟩
    split at accepted
    · cases accepted
    next signed signed_eq =>
      simp only [signatureVerifies, found, signed_eq] at rejected
      dsimp only at accepted
      split_ifs at accepted with verifies
      · simp_all
      · exact ⟨_, accepted⟩

/-- The loop returns the evidence of the first signature that passes all checks. -/
theorem trySignatures_eq_ok
    (accepted : trySignatures verify first records keys validationTime limits progress
      signatures = .ok verified) :
    ∃ record signature,
      signatures.find? (signatureVerifies verify first records keys validationTime limits) =
          some record ∧
        rrsigFor record first.name first.recordType = some signature ∧
        verified = verifiedRrset first records record signature validationTime := by
  induction signatures generalizing progress with
  | nil => cases accepted
  | cons record rest ih =>
    cases verifies : signatureVerifies verify first records keys validationTime limits record
    · rw [List.find?_cons_of_neg (by simp [verifies])]
      obtain ⟨next, accepted⟩ := trySignatures_cons_of_not_verifies verifies accepted
      exact ih accepted
    · rw [List.find?_cons_of_pos verifies]
      obtain ⟨signature, found, result_eq⟩ := trySignatures_cons_of_verifies verifies
      rw [result_eq] at accepted
      exact ⟨record, signature, rfl, found, (Except.ok.inj accepted).symm⟩

/-- The checks of one signature record, taken apart. -/
theorem signatureVerifies_eq_true
    (verifies : signatureVerifies verify first records keys validationTime limits
      signatureRecord = true)
    (found : rrsigFor signatureRecord first.name first.recordType = some signature) :
    serialInWindow validationTime signature.inception signature.expiration = true ∧
      ∃ keyRecord ∈ keys, ∃ key, candidateKey signature keyRecord = some key := by
  simp only [signatureVerifies, found, Bool.and_eq_true] at verifies
  obtain ⟨⟨⟨-, window⟩, -⟩, verifies⟩ := verifies
  split at verifies
  · cases verifies
  · obtain ⟨key, keyMem, -⟩ := List.any_eq_true.mp verifies
    obtain ⟨keyRecord, keyRecordMem, candidate⟩ := List.mem_filterMap.mp keyMem
    exact ⟨window, keyRecord, keyRecordMem, key, candidate⟩

/-- What success of `verify_rrset` says: the records form one RRset of class IN and
the evidence is that of the first signature that passes all checks. -/
theorem verifyRrsetBy_eq_ok
    (accepted : verifyRrsetBy verify records signatures keys validationTime limits =
      .ok verified) :
    ∃ first, records.head? = some first ∧
      (∀ record ∈ records, record.name = first.name ∧ record.recordType = first.recordType ∧
        record.class_ = classIn) ∧
      ∃ record signature,
        signatures.find? (signatureVerifies verify first records keys validationTime limits) =
            some record ∧
          rrsigFor record first.name first.recordType = some signature ∧
          verified = verifiedRrset first records record signature validationTime := by
  unfold verifyRrsetBy at accepted
  split at accepted
  · cases accepted
  next first rest =>
    split_ifs at accepted with limited mismatch
    push Not at mismatch
    exact ⟨first, rfl, mismatch.2.2.2, trySignatures_eq_ok accepted⟩

/-- Some signature was accepted for the records, and at the given time neither the
records nor that signature have run out. -/
def Outlasted (openssl : OpenSsl) (keys records signatures : List ResourceRecord)
    (validationTime : UInt32) (limits : DnssecLimits) (expiration : UInt32) (now : Nat) : Prop :=
  ∃ first record signature, records.head? = some first ∧
    signatures.find? (signatureVerifies (verifySignature openssl) first records keys
      validationTime limits) = some record ∧
    rrsigFor record first.name first.recordType = some signature ∧
    signature.expiration = expiration ∧
    Outlasts validationTime records record signature now

/-- Evidence lasts no longer than its records and its signature. -/
theorem outlasted_of_verifyRrset {openssl : OpenSsl} {now : Nat}
    (accepted : verifyRrset openssl records signatures keys validationTime limits =
      .ok verified)
    (started : validationTime.toNat ≤ now) (current : now < verified.expiresAtUnix) :
    Outlasted openssl keys records signatures validationTime limits verified.expiration now := by
  obtain ⟨first, head_eq, -, record, signature, found, covers, rfl⟩ :=
    verifyRrsetBy_eq_ok accepted
  have window := (signatureVerifies_eq_true (List.find?_some found) covers).1
  exact ⟨first, record, signature, head_eq, found, covers, rfl,
    outlasts_of_lt_rrsetExpiresAt window started current⟩

end

end HnsDaneEngine.Dnssec
