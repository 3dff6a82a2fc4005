import HnsDaneEngine.Control.Except
import HnsDaneEngine.Dnssec.Verify

/-!
# Keysets authenticated through delegation signers

A zone's DNSKEY RRset is authenticated by a DS record for a key that signs the
RRset.  A chain starts from trusted DS records and goes on with DS RRsets that the
previous keyset verifies.
-/

namespace HnsDaneEngine.Dnssec

open Control Wire

/-- A DNSKEY RRset authenticated through a local DS chain. -/
structure AuthenticatedDnskeys where
  zone : Name
  records : List ResourceRecord
  delegationKeyTag : UInt16
  delegationAlgorithm : UInt8
  observedAtUnix : Nat
  expiresAtUnix : Nat

def AuthenticatedDnskeys.isFreshAt (keys : AuthenticatedDnskeys) (now : Nat) : Bool :=
  keys.observedAtUnix ≤ now && now < keys.expiresAtUnix

/-- Data records with their covering RRSIG records. -/
structure SignedRrset where
  records : List ResourceRecord
  signatures : List ResourceRecord

section

variable (openssl : OpenSsl)

def digestDs (digestType : UInt8) (data : Octets) : Except DnssecError Octets :=
  let hashed (digest : MessageDigest) : Except DnssecError Octets :=
    match openssl.hash digest data with
    | some octets => .ok octets
    | none => .error (.unsupportedDigest digestType)
  match digestType.toNat with
  | 1 => hashed .sha1
  | 2 => hashed .sha256
  | 4 => hashed .sha384
  | _ => .error (.unsupportedDigest digestType)

/-- The DS data of a record that names the key. -/
def dsCandidate (owner : Name) (key : Dnskey) (record : ResourceRecord) : Option Ds :=
  match record.rdata with
  | .ds ds =>
    if record.name ≠ owner ∨ record.class_ ≠ classIn ∨ record.recordType ≠ .ds ∨
        ds.keyTag ≠ dnskeyTag key ∨ ds.algorithm ≠ key.algorithm then none
    else some ds
  | _ => none

/-- The loop over the DS records, with whether a candidate occurred and the first
unsupported digest type. -/
def tryDigests (owner : Name) (key : Dnskey) (digestInput : Octets) :
    Bool → Option UInt8 → List ResourceRecord → Except DnssecError Unit
  | sawCandidate, unsupported, [] =>
    match unsupported with
    | some digestType =>
      if sawCandidate then .error (.unsupportedDigest digestType) else .error .dsMismatch
    | none => .error .dsMismatch
  | sawCandidate, unsupported, record :: rest =>
    match dsCandidate owner key record with
    | none => tryDigests owner key digestInput sawCandidate unsupported rest
    | some ds =>
      match digestDs openssl ds.digestType digestInput with
      | .error (.unsupportedDigest digestType) =>
        tryDigests owner key digestInput true (unsupported.or (some digestType)) rest
      | .error error => .error error
      | .ok digest =>
        if digest = ds.digest then .ok ()
        else tryDigests owner key digestInput true unsupported rest

/-- Verify that at least one class-IN DS record authenticates a DNSKEY. -/
def verifyDs (owner : Name) (key : Dnskey) (records : List ResourceRecord) :
    Except DnssecError Unit :=
  if key.protocol ≠ 3 ∨ key.flags &&& 0x0080 ≠ 0 then .error .invalidKey
  else
    match encodeName owner with
    | .error error => .error error
    | .ok ownerWire =>
      tryDigests openssl owner key (ownerWire ++ encodeDnskey key) false none records

section

variable {openssl : OpenSsl} {owner : Name} {key : Dnskey} {input : Octets}
  {records : List ResourceRecord}

theorem digestDs_eq_error {digestType : UInt8} {error : DnssecError}
    (failed : digestDs openssl digestType input = .error error) :
    error = .unsupportedDigest digestType := by
  unfold digestDs at failed
  dsimp only at failed
  split at failed <;> try split at failed
  all_goals cases failed
  all_goals rfl

/-- Some record names the key and has its digest, whatever stands before it. -/
theorem tryDigests_eq_ok_iff {sawCandidate : Bool} {unsupported : Option UInt8} :
    tryDigests openssl owner key input sawCandidate unsupported records = .ok () ↔
      ∃ record ∈ records, ∃ ds, dsCandidate owner key record = some ds ∧
        digestDs openssl ds.digestType input = .ok ds.digest := by
  induction records generalizing sawCandidate unsupported with
  | nil =>
    unfold tryDigests
    split <;> try split
    all_goals simp
  | cons record records ih =>
    rw [tryDigests]
    simp only [List.mem_cons, exists_eq_or_imp]
    cases dsCandidate owner key record with
    | none => simp [ih]
    | some ds =>
      cases digest_eq : digestDs openssl ds.digestType input with
      | error error =>
        rcases digestDs_eq_error digest_eq with rfl
        simp [ih, digest_eq]
      | ok digest =>
        by_cases same : digest = ds.digest
        · simp [digest_eq, same]
        · simp [ih, digest_eq, same]

theorem verifyDs_eq_ok_iff :
    verifyDs openssl owner key records = .ok () ↔ (key.protocol = 3 ∧ key.flags &&& 0x0080 = 0) ∧
        ∃ record ∈ records, ∃ ds, dsCandidate owner key record = some ds ∧
          digestDs openssl ds.digestType (wireOf owner.labels ++ encodeDnskey key) =
            .ok ds.digest := by
  rw [verifyDs, guard_eq_ok_iff, not_or, not_not, not_not, encodeName, Name.encode_eq]
  exact and_congr_right fun _ => tryDigests_eq_ok_iff

end

/-- The signatures over the DNSKEY RRset that one of its keys may have made. -/
def keySignatures (zone : Name) (key : Dnskey) (signatures : List ResourceRecord) :
    List ResourceRecord :=
  signatures.filter fun record =>
    (rrsigFor record zone .dnskey).any fun signature =>
      signature.keyTag = dnskeyTag key && signature.algorithm = key.algorithm

/-- The loop over the keys. -/
def tryKeys (zone : Name) (trustedDs dnskeys signatures : List ResourceRecord)
    (validationTime : UInt32) (limits : DnssecLimits) :
    Bool → List ResourceRecord → Except DnssecError AuthenticatedDnskeys
  | sawDsMatch, [] => .error (if sawDsMatch then .signatureMismatch else .dsMismatch)
  | sawDsMatch, keyRecord :: rest =>
    match dnskeyFor keyRecord zone with
    | none => tryKeys zone trustedDs dnskeys signatures validationTime limits sawDsMatch rest
    | some key =>
      if key.flags &&& 0x0100 = 0 ∨ (verifyDs openssl zone key trustedDs).isOk = false then
        tryKeys zone trustedDs dnskeys signatures validationTime limits sawDsMatch rest
      else
        match verifyRrset openssl dnskeys (keySignatures zone key signatures) [keyRecord]
            validationTime limits with
        | .ok verified =>
          .ok {
            zone
            records := dnskeys
            delegationKeyTag := dnskeyTag key
            delegationAlgorithm := key.algorithm
            observedAtUnix := validationTime.toNat
            expiresAtUnix :=
              min verified.expiresAtUnix (recordsExpireAt trustedDs validationTime) }
        | .error _ =>
          tryKeys zone trustedDs dnskeys signatures validationTime limits true rest

/-- Authenticate a zone DNSKEY RRset from already trusted DS records. -/
def authenticateDnskeys (zone : Name) (trustedDs dnskeys signatures : List ResourceRecord)
    (validationTime : UInt32) (limits : DnssecLimits) :
    Except DnssecError AuthenticatedDnskeys :=
  if dnskeys.isEmpty then .error .emptyRrset
  else tryKeys openssl zone trustedDs dnskeys signatures validationTime limits false dnskeys

/-- Verify an RRset with a DS-authenticated zone keyset. -/
def verifyRrsetWithKeys (keys : AuthenticatedDnskeys) (records signatures : List ResourceRecord)
    (validationTime : UInt32) (limits : DnssecLimits) : Except DnssecError VerifiedRrset :=
  if !keys.isFreshAt validationTime.toNat then .error .signatureTime
  else
    match verifyRrset openssl records signatures keys.records validationTime limits with
    | .error error => .error error
    | .ok verified =>
      .ok { verified with expiresAtUnix := min verified.expiresAtUnix keys.expiresAtUnix }

/-- Authenticate a child delegation and its DNSKEY RRset from parent keys. -/
def authenticateChildDnskeys (parent : AuthenticatedDnskeys) (childZone : Name)
    (childDs childDnskeys : SignedRrset) (validationTime : UInt32) (limits : DnssecLimits) :
    Except DnssecError AuthenticatedDnskeys :=
  match verifyRrsetWithKeys openssl parent childDs.records childDs.signatures validationTime
      limits with
  | .error error => .error error
  | .ok verified =>
    if verified.owner ≠ childZone ∨ verified.recordType ≠ .ds then .error .rrsetMismatch
    else
      match authenticateDnskeys openssl childZone childDs.records childDnskeys.records
          childDnskeys.signatures validationTime limits with
      | .error error => .error error
      | .ok child =>
        .ok { child with
          observedAtUnix :=
            max (max child.observedAtUnix parent.observedAtUnix) verified.observedAtUnix
          expiresAtUnix :=
            min (min child.expiresAtUnix parent.expiresAtUnix) verified.expiresAtUnix }

/-- One of the candidates signs the keys and gives its tag and algorithm to the keyset. -/
def AuthenticatedBy (zone : Name) (trustedDs dnskeys signatures : List ResourceRecord)
    (validationTime : UInt32) (limits : DnssecLimits) (candidates : List ResourceRecord)
    (keys : AuthenticatedDnskeys) : Prop :=
  ∃ keyRecord ∈ candidates, ∃ key verified, dnskeyFor keyRecord zone = some key ∧
    verifyRrset openssl dnskeys (keySignatures zone key signatures) [keyRecord]
      validationTime limits = .ok verified ∧
    keys = {
      zone
      records := dnskeys
      delegationKeyTag := dnskeyTag key
      delegationAlgorithm := key.algorithm
      observedAtUnix := validationTime.toNat
      expiresAtUnix := min verified.expiresAtUnix (recordsExpireAt trustedDs validationTime) }

variable {openssl}
variable {zone : Name} {trustedDs dnskeys signatures records : List ResourceRecord}
  {validationTime : UInt32} {limits : DnssecLimits} {keys parent child : AuthenticatedDnskeys}
  {verified : VerifiedRrset} {childDs childDnskeys : SignedRrset}

theorem tryKeys_eq_ok {sawDsMatch : Bool} {candidates : List ResourceRecord}
    (accepted : tryKeys openssl zone trustedDs dnskeys signatures validationTime limits
      sawDsMatch candidates = .ok keys) :
    AuthenticatedBy openssl zone trustedDs dnskeys signatures validationTime limits candidates
      keys := by
  induction candidates generalizing sawDsMatch with
  | nil => cases accepted
  | cons keyRecord rest ih =>
    have later : ∀ saw, tryKeys openssl zone trustedDs dnskeys signatures validationTime limits
        saw rest = .ok keys → _ := fun saw remaining => ih remaining
    simp only [AuthenticatedBy, List.exists_mem_cons_iff]
    rw [tryKeys] at accepted
    split at accepted
    · exact .inr (later _ accepted)
    next key found =>
      split_ifs at accepted with unusable
      · exact .inr (later _ accepted)
      · split at accepted
        next verified verified_eq =>
          exact .inl ⟨key, verified, found, verified_eq, (Except.ok.inj accepted).symm⟩
        · exact .inr (later _ accepted)

theorem authenticateDnskeys_eq_ok
    (accepted : authenticateDnskeys openssl zone trustedDs dnskeys signatures validationTime
      limits = .ok keys) :
    AuthenticatedBy openssl zone trustedDs dnskeys signatures validationTime limits dnskeys
      keys := by
  unfold authenticateDnskeys at accepted
  split_ifs at accepted
  exact tryKeys_eq_ok accepted

theorem verifyRrsetWithKeys_eq_ok
    (accepted : verifyRrsetWithKeys openssl keys records signatures validationTime limits =
      .ok verified) :
    keys.isFreshAt validationTime.toNat = true ∧
      ∃ plain, verifyRrset openssl records signatures keys.records validationTime limits =
          .ok plain ∧
        verified = { plain with expiresAtUnix := min plain.expiresAtUnix keys.expiresAtUnix } := by
  unfold verifyRrsetWithKeys at accepted
  split_ifs at accepted with stale
  split at accepted
  · cases accepted
  next plain plain_eq =>
    exact ⟨by simpa using stale, plain, plain_eq, (Except.ok.inj accepted).symm⟩

theorem authenticateChildDnskeys_eq_ok {childZone : Name}
    (accepted : authenticateChildDnskeys openssl parent childZone childDs childDnskeys
      validationTime limits = .ok child) :
    ∃ verified authenticated,
      verifyRrsetWithKeys openssl parent childDs.records childDs.signatures validationTime
          limits = .ok verified ∧
        verified.owner = childZone ∧ verified.recordType = .ds ∧
        authenticateDnskeys openssl childZone childDs.records childDnskeys.records
          childDnskeys.signatures validationTime limits = .ok authenticated ∧
        child = { authenticated with
          observedAtUnix := max (max authenticated.observedAtUnix parent.observedAtUnix)
            verified.observedAtUnix
          expiresAtUnix := min (min authenticated.expiresAtUnix parent.expiresAtUnix)
            verified.expiresAtUnix } := by
  unfold authenticateChildDnskeys at accepted
  split at accepted
  · cases accepted
  next verified verified_eq =>
    split_ifs at accepted with mismatch
    push Not at mismatch
    split at accepted
    · cases accepted
    next authenticated authenticated_eq =>
      exact ⟨verified, authenticated, verified_eq, mismatch.1, mismatch.2, authenticated_eq,
        (Except.ok.inj accepted).symm⟩

/-- Every record of a keyset is owned by its zone. -/
def AuthenticatedDnskeys.Owned (keys : AuthenticatedDnskeys) : Prop :=
  ∀ record ∈ keys.records, record.name = keys.zone

theorem owned_of_authenticateDnskeys
    (accepted : authenticateDnskeys openssl zone trustedDs dnskeys signatures validationTime
      limits = .ok keys) : keys.Owned ∧ keys.zone = zone := by
  obtain ⟨keyRecord, -, key, verified, -, verified_eq, rfl⟩ := authenticateDnskeys_eq_ok accepted
  obtain ⟨first, -, rrset, record, signature, found, covers, -⟩ := verifyRrsetBy_eq_ok verified_eq
  refine ⟨?_, rfl⟩
  have recordMem : record ∈ keySignatures zone key signatures := List.mem_of_find?_eq_some found
  obtain ⟨-, signed⟩ := List.mem_filter.mp recordMem
  -- The signature record is owned by the zone for the filter and by the RRset's
  -- owner for the verification.
  have zone_eq : record.name = zone := by
    cases covering : rrsigFor record zone .dnskey with
    | none => simp [covering] at signed
    | some other => exact (rrsigFor_eq_some covering).1
  have owner_eq : record.name = first.name := (rrsigFor_eq_some covers).1
  intro other otherMem
  exact (rrset other otherMem).1.trans (owner_eq.symm.trans zone_eq)

theorem owned_of_authenticateChildDnskeys {childZone : Name}
    (accepted : authenticateChildDnskeys openssl parent childZone childDs childDnskeys
      validationTime limits = .ok child) : child.Owned ∧ child.zone = childZone := by
  obtain ⟨verified, authenticated, -, -, -, authenticated_eq, rfl⟩ :=
    authenticateChildDnskeys_eq_ok accepted
  obtain ⟨owned, zone_eq⟩ := owned_of_authenticateDnskeys authenticated_eq
  exact ⟨owned, zone_eq⟩

/-- A signature that a keyset verifies names the keyset's zone as its signer. -/
theorem signer_eq_zone {verify : SignatureCheck} {first signatureRecord : ResourceRecord}
    {signature : Rrsig} (owned : keys.Owned)
    (verifies : signatureVerifies verify first records keys.records validationTime limits
      signatureRecord = true)
    (found : rrsigFor signatureRecord first.name first.recordType = some signature) :
    signature.signer = keys.zone := by
  obtain ⟨-, keyRecord, keyRecordMem, key, candidate⟩ :=
    signatureVerifies_eq_true verifies found
  unfold candidateKey at candidate
  split at candidate
  · cases candidate
  next other key_eq =>
    rw [← (dnskeyFor_eq_some key_eq).1]
    exact owned keyRecord keyRecordMem

end

end HnsDaneEngine.Dnssec
