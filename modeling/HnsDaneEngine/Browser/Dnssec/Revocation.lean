import HnsDaneEngine.Browser.Dnssec.Signature

/-!
# Keys that a chain relies on

A chain that validates relies on the keys that match a delegation signer and on
the key of the first signature that verifies in each of its checks.  Parsing and
verification require the protocol and the zone flag of these keys; no step looks
at the revocation flag.
-/

namespace HnsDaneEngine.Browser.Dnssec

open Control Wire

/-- The flag of a revoked key. -/
def dnskeyRevokeFlag : UInt16 := 0x0080

section

variable {dnskey : DnskeyRecord} {rrsig : RrsigRecord} {crypto : Crypto} {record : ResourceRecord}
  {dsRecords : List DsRecord} {dnskeys : List (ResourceRecord × DnskeyRecord)} {owner : DnsName}
  {links : List DnssecChainLink}

theorem DnskeyRecord.fromRecord_eq_ok (parsed : DnskeyRecord.fromRecord record = .ok dnskey) :
    record.recordType = .dnskey ∧ dnskey.protocol = dnssecProtocol := by
  obtain ⟨recordType_eq, parsed⟩ := of_guard_ok parsed
  refine ⟨not_not.mp recordType_eq, ?_⟩
  unfold DnskeyRecord.parseRdata at parsed
  split at parsed
  next protocol _ _ =>
    obtain ⟨protocol_eq, parsed⟩ := of_guard_ok parsed
    obtain rfl := Except.ok.inj parsed
    exact not_not.mp protocol_eq
  · cases parsed

/-! ## The accepted signature of one check -/

/-- The signatures and keys that `validate_rrset_signature` tries, in order. -/
def signaturePairs (dnskeyOwner : DnsName) (dnskeyRrset rrset rrsigRrset : List ResourceRecord) :
    Except DnssecError (List (RrsigRecord × DnskeyRecord)) :=
  match rrset with
  | [] => .error .invalidRrset
  | first :: _ => do
    let dnskeys ← (dnskeyRrset.filter fun record => record.recordType = .dnskey).mapM
      DnskeyRecord.fromRecord
    let rrsigs ← (rrsigRrset.filter fun record =>
      record.recordType = .rrsig ∧ record.name = first.name ∧ record.class_ = first.class_).mapM
      RrsigRecord.fromRecord
    let covering := rrsigs.filter fun rrsig =>
      rrsig.typeCovered = first.recordType ∧ rrsig.signerName = dnskeyOwner
    return covering.flatMap fun rrsig =>
      (dnskeys.filter fun dnskey =>
        dnskey.algorithm = rrsig.algorithm ∧ dnskey.keyTag = rrsig.keyTag).map (rrsig, ·)

section

variable {dnskeyOwner : DnsName} {dnskeyRrset rrsigRrset rest : List ResourceRecord}
  {first : ResourceRecord}

/-- An RRSIG record of the owner and the class of the set. -/
def IsSignatureOf (first record : ResourceRecord) : Prop :=
  record.recordType = .rrsig ∧ record.name = first.name ∧ record.class_ = first.class_

theorem exists_signaturePairs_iff :
    (∃ pairs, signaturePairs dnskeyOwner dnskeyRrset (first :: rest) rrsigRrset = .ok pairs) ↔
      (∀ record ∈ dnskeyRrset, record.recordType = .dnskey →
        ∃ dnskey, DnskeyRecord.fromRecord record = .ok dnskey) ∧
      ∀ record ∈ rrsigRrset, IsSignatureOf first record →
        ∃ rrsig, RrsigRecord.fromRecord record = .ok rrsig := by
  have dnskeys_iff : (∃ dnskeys, (dnskeyRrset.filter fun record =>
      record.recordType = .dnskey).mapM DnskeyRecord.fromRecord = .ok dnskeys) ↔ _ :=
    exists_mapM_eq_ok_iff
  have rrsigs_iff : (∃ rrsigs, (rrsigRrset.filter fun record =>
      record.recordType = .rrsig ∧ record.name = first.name ∧
        record.class_ = first.class_).mapM RrsigRecord.fromRecord = .ok rrsigs) ↔ _ :=
    exists_mapM_eq_ok_iff
  simp only [List.mem_filter, decide_eq_true_eq, and_imp] at dnskeys_iff rrsigs_iff
  simp only [IsSignatureOf, and_imp]
  rw [← dnskeys_iff, ← rrsigs_iff]
  constructor
  · rintro ⟨pairs, pairs_eq⟩
    obtain ⟨dnskeys, dnskeys_eq, pairs_eq⟩ := of_bind_ok pairs_eq
    obtain ⟨rrsigs, rrsigs_eq, -⟩ := of_bind_ok pairs_eq
    exact ⟨⟨dnskeys, dnskeys_eq⟩, rrsigs, rrsigs_eq⟩
  · rintro ⟨⟨dnskeys, dnskeys_eq⟩, rrsigs, rrsigs_eq⟩
    exact ⟨_, bind_eq_ok_iff.mpr ⟨dnskeys, dnskeys_eq, bind_eq_ok_iff.mpr ⟨rrsigs, rrsigs_eq, rfl⟩⟩⟩

theorem mem_signaturePairs_iff {pairs : List (RrsigRecord × DnskeyRecord)}
    (pairs_eq : signaturePairs dnskeyOwner dnskeyRrset (first :: rest) rrsigRrset = .ok pairs) :
    (rrsig, dnskey) ∈ pairs ↔
      (∃ record ∈ rrsigRrset, IsSignatureOf first record ∧
        RrsigRecord.fromRecord record = .ok rrsig) ∧
      (∃ record ∈ dnskeyRrset, record.recordType = .dnskey ∧
        DnskeyRecord.fromRecord record = .ok dnskey) ∧
      rrsig.typeCovered = first.recordType ∧ rrsig.signerName = dnskeyOwner ∧
      dnskey.algorithm = rrsig.algorithm ∧ dnskey.keyTag = rrsig.keyTag := by
  obtain ⟨dnskeys, dnskeys_eq, pairs_eq⟩ := of_bind_ok pairs_eq
  obtain ⟨rrsigs, rrsigs_eq, pairs_eq⟩ := of_bind_ok pairs_eq
  obtain rfl := Except.ok.inj pairs_eq
  simp only [List.mem_flatMap, List.mem_map, List.mem_filter, mem_of_mapM_eq_ok dnskeys_eq,
    mem_of_mapM_eq_ok rrsigs_eq, IsSignatureOf, decide_eq_true_eq, Prod.mk.injEq]
  constructor
  · rintro ⟨_, ⟨⟨record, ⟨recordMem, isSignature⟩, parsed⟩, covering⟩, _,
      ⟨⟨key, ⟨keyMem, isKey⟩, keyParsed⟩, matching⟩, rfl, rfl⟩
    exact ⟨⟨record, recordMem, isSignature, parsed⟩, ⟨key, keyMem, isKey, keyParsed⟩, covering.1,
      covering.2, matching⟩
  · rintro ⟨⟨record, recordMem, isSignature, parsed⟩, ⟨key, keyMem, isKey, keyParsed⟩, covered,
      signer, matching⟩
    exact ⟨rrsig, ⟨⟨record, ⟨recordMem, isSignature⟩, parsed⟩, covered, signer⟩, dnskey,
      ⟨⟨key, ⟨keyMem, isKey⟩, keyParsed⟩, matching⟩, rfl, rfl⟩

end

/-- One call of `validate_rrset_signature`. -/
structure Check where
  dnskeyOwner : DnsName
  dnskeyRrset : List ResourceRecord
  rrset : List ResourceRecord
  rrsigRrset : List ResourceRecord

variable (check : Check) {dnskeyRrset : List ResourceRecord}

namespace Check

variable {crypto : Crypto} {now : Nat}

def validate (crypto : Crypto) (now : Nat) : Except DnssecError DnssecStatus :=
  validateRrsetSignature crypto check.dnskeyOwner check.dnskeyRrset check.rrset check.rrsigRrset now

def verifies (crypto : Crypto) (rrset : List ResourceRecord) (now : Nat)
    (pair : RrsigRecord × DnskeyRecord) : Bool :=
  match verifyRrsig crypto rrset pair.1 pair.2 now with
  | .ok valid => valid
  | .error _ => false

/-- The first signature that verifies, with its key. -/
def accepted (crypto : Crypto) (now : Nat) : Option (RrsigRecord × DnskeyRecord) :=
  match signaturePairs check.dnskeyOwner check.dnskeyRrset check.rrset check.rrsigRrset with
  | .error _ => none
  | .ok pairs => pairs.find? (verifies crypto check.rrset now)

theorem verifies_iff {rrset : List ResourceRecord} {pair : RrsigRecord × DnskeyRecord} :
    verifies crypto rrset now pair = true ↔
      verifyRrsig crypto rrset pair.1 pair.2 now = .ok true := by
  unfold verifies
  cases verifyRrsig crypto rrset pair.1 pair.2 now <;> simp

theorem validate_eq : check.validate crypto now =
      (signaturePairs check.dnskeyOwner check.dnskeyRrset check.rrset check.rrsigRrset >>=
        trySignatures crypto check.rrset now none) := by
  obtain ⟨dnskeyOwner, dnskeyRrset, rrset, rrsigRrset⟩ := check
  cases rrset with
  | nil => rfl
  | cons first rest => simp [validate, validateRrsetSignature, signaturePairs]

/-- A check is secure exactly when it has an accepted signature. -/
theorem validate_eq_secure_iff :
    check.validate crypto now = .ok .secure ↔ ∃ pair, check.accepted crypto now = some pair := by
  rw [validate_eq, bind_eq_ok_iff]
  unfold accepted
  cases pairs_eq : signaturePairs check.dnskeyOwner check.dnskeyRrset check.rrset
      check.rrsigRrset with
  | error error => simp
  | ok pairs =>
    simp only [Except.ok.injEq, exists_eq_left', trySignatures_eq_secure_iff,
      ← Option.isSome_iff_exists, List.find?_isSome, verifies_iff]

/-- An accepted key comes from a DNSKEY record and has the zone flag. -/
theorem accepted_spec {check : Check} (found : check.accepted crypto now = some (rrsig, dnskey)) :
    (∃ record ∈ check.dnskeyRrset, DnskeyRecord.fromRecord record = .ok dnskey) ∧
      verifyRrsig crypto check.rrset rrsig dnskey now = .ok true := by
  unfold accepted at found
  split at found
  · cases found
  next pairs pairs_eq =>
    have verified := verifies_iff.mp (List.find?_some found)
    refine ⟨?_, verified⟩
    have pairMem := List.mem_of_find?_eq_some found
    cases rrset_eq : check.rrset with
    | nil =>
      rw [rrset_eq] at pairs_eq
      cases pairs_eq
    | cons first rest =>
      rw [rrset_eq] at pairs_eq
      obtain ⟨-, ⟨record, recordMem, -, parsed⟩, -⟩ := (mem_signaturePairs_iff pairs_eq).mp pairMem
      exact ⟨record, recordMem, parsed⟩

end Check

/-! ## The delegations of a chain -/

/-- One call of `ds_authenticated_dnskeys`. -/
structure Delegation where
  owner : DnsName
  dsRrset : List ResourceRecord
  dnskeyRrset : List ResourceRecord

namespace Delegation

variable {crypto : Crypto}

/-- A key of the DNSKEY set that matches a delegation signer. -/
def Matches (delegation : Delegation) (crypto : Crypto) (record : ResourceRecord)
    (dnskey : DnskeyRecord) : Prop :=
  record ∈ delegation.dnskeyRrset ∧ DnskeyRecord.fromRecord record = .ok dnskey ∧
    ∃ dsRecord ∈ delegation.dsRrset, ∃ ds, DsRecord.fromRecord dsRecord = .ok ds ∧
      verifyDsDigest crypto delegation.owner dnskey ds = .ok true

/-- The records of the matching keys. -/
def keys (delegation : Delegation) (crypto : Crypto) : List ResourceRecord :=
  match dsAuthenticatedDnskeys crypto delegation.owner delegation.dsRrset
      delegation.dnskeyRrset with
  | .ok (_, keys) => keys
  | .error _ => []

end Delegation

theorem matchesDs_eq_ok {matched : Bool}
    (matched_eq : matchesDs crypto owner dnskey dsRecords = .ok matched) :
    matched = true ↔ ∃ ds ∈ dsRecords, verifyDsDigest crypto owner dnskey ds = .ok true := by
  induction dsRecords generalizing matched with
  | nil =>
    obtain rfl := Except.ok.inj matched_eq
    simp
  | cons ds rest ih =>
    obtain ⟨matchedFirst, first_eq, matched_eq⟩ := of_bind_ok matched_eq
    obtain ⟨matchedLater, later_eq, matched_eq⟩ := of_bind_ok matched_eq
    obtain rfl := Except.ok.inj matched_eq
    simp [first_eq, ih later_eq]

theorem authenticatedKeys_eq_ok {authenticated : List ResourceRecord}
    (authenticated_eq : authenticatedKeys crypto owner dsRecords dnskeys = .ok authenticated)
    (record : ResourceRecord) :
    record ∈ authenticated ↔ ∃ dnskey, (record, dnskey) ∈ dnskeys ∧
      ∃ ds ∈ dsRecords, verifyDsDigest crypto owner dnskey ds = .ok true := by
  induction dnskeys generalizing authenticated with
  | nil =>
    obtain rfl := Except.ok.inj authenticated_eq
    simp
  | cons entry rest ih =>
    obtain ⟨first, dnskey⟩ := entry
    obtain ⟨matched, matched_eq, authenticated_eq⟩ := of_bind_ok authenticated_eq
    obtain ⟨later, later_eq, authenticated_eq⟩ := of_bind_ok authenticated_eq
    obtain rfl := Except.ok.inj authenticated_eq
    have matched_iff := matchesDs_eq_ok matched_eq
    simp only [List.mem_cons, Prod.mk.injEq]
    cases matched with
    | true =>
      have matchedDs := matched_iff.mp rfl
      simp only [if_true, List.mem_cons, ih later_eq]
      constructor
      · rintro (rfl | ⟨key, keyMem, matchedKey⟩)
        · exact ⟨dnskey, .inl ⟨rfl, rfl⟩, matchedDs⟩
        · exact ⟨key, .inr keyMem, matchedKey⟩
      · rintro ⟨key, ⟨rfl, rfl⟩ | keyMem, matchedKey⟩
        · exact .inl rfl
        · exact .inr ⟨key, keyMem, matchedKey⟩
    | false =>
      simp only [Bool.false_eq_true, if_false, ih later_eq]
      constructor
      · rintro ⟨key, keyMem, matchedKey⟩
        exact ⟨key, .inr keyMem, matchedKey⟩
      · rintro ⟨key, ⟨-, rfl⟩ | keyMem, matchedKey⟩
        · exact absurd (matched_iff.mpr matchedKey) (by simp)
        · exact ⟨key, keyMem, matchedKey⟩

/-- The parsed delegation signers of a set. -/
theorem mem_dsRecords_iff {dsRrset : List ResourceRecord}
    (parsed : (dsRrset.filter fun record => record.recordType = .ds).mapM DsRecord.fromRecord =
      .ok dsRecords) {ds : DsRecord} :
    ds ∈ dsRecords ↔ ∃ record ∈ dsRrset, DsRecord.fromRecord record = .ok ds := by
  rw [mem_of_mapM_eq_ok parsed]
  constructor
  · rintro ⟨record, recordMem, ds_eq⟩
    exact ⟨record, List.mem_of_mem_filter recordMem, ds_eq⟩
  · rintro ⟨record, recordMem, ds_eq⟩
    have dsType := (of_guard_ok ds_eq).1
    exact ⟨record, List.mem_filter.mpr ⟨recordMem, by simpa using dsType⟩, ds_eq⟩

/-- The parsed keys of a set, with their records. -/
theorem mem_dnskeys_iff
    (parsed : ((dnskeyRrset.filter fun record => record.recordType = .dnskey).mapM
      fun record => (DnskeyRecord.fromRecord record).map (record, ·)) = .ok dnskeys) :
    (record, dnskey) ∈ dnskeys ↔
      record ∈ dnskeyRrset ∧ DnskeyRecord.fromRecord record = .ok dnskey := by
  rw [mem_of_mapM_eq_ok parsed]
  constructor
  · rintro ⟨item, itemMem, item_eq⟩
    cases key_eq : DnskeyRecord.fromRecord item with
    | error error => simp [key_eq, Except.map] at item_eq
    | ok key =>
      obtain ⟨rfl, rfl⟩ : item = record ∧ key = dnskey := by
        simpa [key_eq, Except.map] using item_eq
      exact ⟨List.mem_of_mem_filter itemMem, key_eq⟩
  · rintro ⟨recordMem, key_eq⟩
    have dnskeyType := (DnskeyRecord.fromRecord_eq_ok key_eq).1
    exact ⟨record, List.mem_filter.mpr ⟨recordMem, by simpa⟩, by simp [key_eq, Except.map]⟩

namespace Delegation

variable {crypto : Crypto}

/-- The authenticated keys are those that match. -/
theorem mem_keys_iff {delegation : Delegation} {keys : List ResourceRecord}
    (secure : dsAuthenticatedDnskeys crypto delegation.owner delegation.dsRrset
      delegation.dnskeyRrset = .ok (.secure, keys)) (record : ResourceRecord) :
    record ∈ keys ↔ ∃ dnskey, delegation.Matches crypto record dnskey := by
  obtain ⟨dsRecords, dsRecords_eq, secure⟩ := of_bind_ok secure
  split at secure
  · cases secure
  obtain ⟨dnskeys, dnskeys_eq, secure⟩ := of_bind_ok secure
  obtain ⟨authenticated, authenticated_eq, secure⟩ := of_bind_ok secure
  split at secure
  · cases secure
  obtain ⟨-, rfl⟩ := Prod.mk.inj (Except.ok.inj secure)
  rw [authenticatedKeys_eq_ok authenticated_eq]
  apply exists_congr
  intro dnskey
  simp only [mem_dnskeys_iff dnskeys_eq, mem_dsRecords_iff dsRecords_eq]
  constructor
  · rintro ⟨⟨recordMem, parsed⟩, ds, ⟨dsRecord, dsRecordMem, ds_eq⟩, verified⟩
    exact ⟨recordMem, parsed, dsRecord, dsRecordMem, ds, ds_eq, verified⟩
  · rintro ⟨recordMem, parsed, dsRecord, dsRecordMem, ds, ds_eq, verified⟩
    exact ⟨⟨recordMem, parsed⟩, ds, ⟨dsRecord, dsRecordMem, ds_eq⟩, verified⟩

theorem keys_eq {delegation : Delegation} {status : DnssecStatus} {keys : List ResourceRecord}
    (authenticated : dsAuthenticatedDnskeys crypto delegation.owner delegation.dsRrset
      delegation.dnskeyRrset = .ok (status, keys)) :
    delegation.keys crypto = keys := by
  rw [Delegation.keys, authenticated]

def Secure (delegation : Delegation) (crypto : Crypto) : Prop :=
  ∃ keys, dsAuthenticatedDnskeys crypto delegation.owner delegation.dsRrset
    delegation.dnskeyRrset = .ok (.secure, keys)

end Delegation

/-! ## The checks of a chain -/

def DnssecChainLink.delegation (link : DnssecChainLink) : Delegation :=
  ⟨link.childDnskeyOwner, link.dsRrset, link.childDnskeyRrset⟩

namespace DnssecChainValidationInput

variable {crypto : Crypto}

def initialDelegation (input : DnssecChainValidationInput) : Delegation :=
  ⟨input.initialDnskeyOwner, input.initialDsRrset, input.initialDnskeyRrset⟩

def delegations (input : DnssecChainValidationInput) : List Delegation :=
  input.initialDelegation :: input.delegationLinks.map DnssecChainLink.delegation

/-- The checks of `validateLinks`: for every link the DS set under the current
keys and the DNSKEY set of the child under the matching ones, and the target
set at the end. -/
def linkChecks (input : DnssecChainValidationInput) (crypto : Crypto) (currentOwner : DnsName)
    (currentDnskeyRrset : List ResourceRecord) : List DnssecChainLink → List Check
  | [] => [⟨currentOwner, currentDnskeyRrset, input.targetRrset, input.targetRrsigRrset⟩]
  | link :: rest =>
    ⟨currentOwner, currentDnskeyRrset, link.dsRrset, link.dsRrsigRrset⟩ ::
    ⟨link.childDnskeyOwner, link.delegation.keys crypto, link.childDnskeyRrset,
      link.childDnskeyRrsigRrset⟩ ::
    input.linkChecks crypto link.childDnskeyOwner link.childDnskeyRrset rest

def checks (input : DnssecChainValidationInput) (crypto : Crypto) : List Check :=
  ⟨input.initialDnskeyOwner, input.initialDelegation.keys crypto, input.initialDnskeyRrset,
    input.initialDnskeyRrsigRrset⟩ ::
  input.linkChecks crypto input.initialDnskeyOwner input.initialDnskeyRrset input.delegationLinks

variable {input : DnssecChainValidationInput}

/-- A status that is not secure ends the validation with that status. -/
theorem secure_of_status_guard {status : DnssecStatus} {rest : Except DnssecError DnssecStatus}
    (secure : (if status ≠ .secure then return status else rest) = .ok .secure) :
    status = .secure ∧ rest = .ok .secure := by
  split at secure
  next notSecure => exact absurd (Except.ok.inj secure) notSecure
  next isSecure => exact ⟨not_not.mp isSecure, secure⟩

theorem validateLinks_eq_secure {currentOwner : DnsName} {currentDnskeyRrset : List ResourceRecord}
    (secure : validateLinks crypto input currentOwner currentDnskeyRrset links = .ok .secure) :
    (∀ link ∈ links, link.delegation.Secure crypto) ∧
      ∀ check ∈ input.linkChecks crypto currentOwner currentDnskeyRrset links,
        check.validate crypto input.now = .ok .secure := by
  induction links generalizing currentOwner currentDnskeyRrset with
  | nil => simpa [linkChecks, Check.validate, validateLinks] using secure
  | cons link rest ih =>
    obtain ⟨⟨delegation, keys⟩, delegation_eq, secure⟩ := of_bind_ok secure
    obtain ⟨rfl, secure⟩ := secure_of_status_guard secure
    obtain ⟨dsStatus, ds_eq, secure⟩ := of_bind_ok secure
    obtain ⟨rfl, secure⟩ := secure_of_status_guard secure
    obtain ⟨childStatus, child_eq, secure⟩ := of_bind_ok secure
    obtain ⟨rfl, secure⟩ := secure_of_status_guard secure
    obtain ⟨restDelegations, restChecks⟩ := ih secure
    have keys_eq : link.delegation.keys crypto = keys := Delegation.keys_eq delegation_eq
    refine ⟨List.forall_mem_cons.mpr ⟨⟨keys, delegation_eq⟩, restDelegations⟩, ?_⟩
    rw [linkChecks, keys_eq]
    exact List.forall_mem_cons.mpr ⟨ds_eq, List.forall_mem_cons.mpr ⟨child_eq, restChecks⟩⟩

/-- In a secure chain every delegation and every check is secure. -/
theorem validateDnssecChain_eq_secure (secure : validateDnssecChain crypto input = .ok .secure) :
    (∀ delegation ∈ input.delegations, delegation.Secure crypto) ∧
      ∀ check ∈ input.checks crypto, check.validate crypto input.now = .ok .secure := by
  obtain ⟨⟨delegation, keys⟩, delegation_eq, secure⟩ := of_bind_ok secure
  obtain ⟨rfl, secure⟩ := secure_of_status_guard secure
  obtain ⟨dnskeyStatus, dnskey_eq, secure⟩ := of_bind_ok secure
  obtain ⟨rfl, secure⟩ := secure_of_status_guard secure
  obtain ⟨linkDelegations, linkChecks⟩ := validateLinks_eq_secure secure
  have keys_eq : input.initialDelegation.keys crypto = keys := Delegation.keys_eq delegation_eq
  rw [delegations, checks, keys_eq]
  exact ⟨List.forall_mem_cons.mpr ⟨⟨keys, delegation_eq⟩, by simpa using linkDelegations⟩,
    List.forall_mem_cons.mpr ⟨dnskey_eq, linkChecks⟩⟩

end DnssecChainValidationInput

/-- A signed set is a chain without links. -/
def SignedRrsetValidationInput.toChain (input : SignedRrsetValidationInput) :
    DnssecChainValidationInput where
  initialDnskeyOwner := input.dnskeyOwner
  initialDsRrset := input.dsRrset
  initialDnskeyRrset := input.dnskeyRrset
  initialDnskeyRrsigRrset := input.dnskeyRrsigRrset
  delegationLinks := []
  targetRrset := input.rrset
  targetRrsigRrset := input.rrsigRrset
  now := input.now

theorem validateSignedRrset_eq_validateDnssecChain (crypto : Crypto)
    (input : SignedRrsetValidationInput) :
    validateSignedRrset crypto input = validateDnssecChain crypto input.toChain :=
  rfl

/-! ## Keys with the revocation flag -/

namespace DnskeyRecord

def IsZoneKey (dnskey : DnskeyRecord) : Prop :=
  dnskey.flags &&& dnskeyZoneFlag ≠ 0

def IsRevoked (dnskey : DnskeyRecord) : Prop :=
  dnskey.flags &&& dnskeyRevokeFlag ≠ 0

/-- A key that may authenticate: an unrevoked zone key of the DNSSEC protocol. -/
def MayAuthenticate (dnskey : DnskeyRecord) : Prop :=
  dnskey.IsZoneKey ∧ ¬ dnskey.IsRevoked ∧ dnskey.protocol = dnssecProtocol

instance (dnskey : DnskeyRecord) : Decidable dnskey.IsRevoked :=
  inferInstanceAs (Decidable (_ ≠ _))

end DnskeyRecord

theorem Delegation.Matches.isZoneKey {delegation : Delegation}
    (matched : delegation.Matches crypto record dnskey) :
    dnskey.IsZoneKey := by
  obtain ⟨-, -, _, -, ds, -, verified⟩ := matched
  unfold verifyDsDigest at verified
  split at verified
  · cases verified
  next zone => exact zone

/-- The number of labels that a signature over a set has to count. -/
def ownerLabels (rrset : List ResourceRecord) : Option Nat :=
  rrset.head?.map (·.name.labels.length)

theorem isZoneKey_of_verifyRrsig {rrset : List ResourceRecord} {now : Nat}
    (verified : verifyRrsig crypto rrset rrsig dnskey now = .ok true) :
    dnskey.IsZoneKey ∧ ownerLabels rrset = some rrsig.labels.toNat := by
  unfold verifyRrsig at verified
  split at verified
  · cases verified
  split at verified
  · cases verified
  next labels =>
    split at verified
    · cases verified
    next zone => exact ⟨zone, congrArg some (not_not.mp labels).symm⟩

/-- No delegation signer of the zone has the tag and the algorithm of a revoked zone key. -/
def Delegation.RevokedKeysUnnamed (delegation : Delegation) : Prop :=
  ∀ record ∈ delegation.dnskeyRrset, ∀ dnskey, DnskeyRecord.fromRecord record = .ok dnskey →
    dnskey.IsZoneKey → dnskey.IsRevoked →
      ∀ dsRecord ∈ delegation.dsRrset, ∀ ds, DsRecord.fromRecord dsRecord = .ok ds →
        dnskey.algorithm = ds.algorithm → dnskey.keyTag ≠ ds.keyTag

namespace Check

variable {crypto : Crypto} {now : Nat}

/-- A revoked zone key with the tag and the algorithm of a covering signature is tried only
after a signature that verifies. -/
def RevokedKeysUntried (crypto : Crypto) (now : Nat) : Prop :=
  ∀ pairs, signaturePairs check.dnskeyOwner check.dnskeyRrset check.rrset check.rrsigRrset =
      .ok pairs →
    ∀ before rrsig dnskey after, pairs = before ++ (rrsig, dnskey) :: after →
      dnskey.IsZoneKey → dnskey.IsRevoked → ownerLabels check.rrset = some rrsig.labels.toNat →
        ∃ earlier ∈ before, verifyRrsig crypto check.rrset earlier.1 earlier.2 now = .ok true

/-- The first signature that verifies is then by a key that is not revoked. -/
theorem RevokedKeysUntried.accepted {check : Check} (untried : check.RevokedKeysUntried crypto now)
    (found : check.accepted crypto now = some (rrsig, dnskey)) : ¬ dnskey.IsRevoked := by
  intro revoked
  unfold Check.accepted at found
  split at found
  · cases found
  next pairs pairs_eq =>
    rcases List.find?_eq_some_iff_append.mp found with ⟨verified, before, after, split, unverified⟩
    rcases isZoneKey_of_verifyRrsig (verifies_iff.mp verified) with ⟨zoneKey, labels⟩
    rcases untried pairs pairs_eq before rrsig dnskey after split zoneKey revoked labels with
      ⟨earlier, earlierMem, earlierVerified⟩
    have rejected := unverified earlier earlierMem
    rw [verifies_iff.mpr earlierVerified] at rejected
    cases rejected

end Check

/-- A key that matches a delegation signer has its tag and its algorithm. -/
theorem Delegation.RevokedKeysUnnamed.matches {delegation : Delegation}
    (unnamed : delegation.RevokedKeysUnnamed)
    (matched : delegation.Matches crypto record dnskey) : ¬ dnskey.IsRevoked := by
  intro revoked
  have zoneKey := matched.isZoneKey
  rcases matched with ⟨recordMem, parsed, dsRecord, dsRecordMem, ds, ds_eq, verified⟩
  unfold verifyDsDigest at verified
  rw [if_neg zoneKey] at verified
  split at verified
  · cases verified
  next agrees =>
    rw [not_or, not_ne_iff, not_ne_iff] at agrees
    exact unnamed record recordMem dnskey parsed zoneKey revoked dsRecord dsRecordMem ds ds_eq
      agrees.1 agrees.2

namespace DnssecChainValidationInput

variable (input : DnssecChainValidationInput) (crypto : Crypto)

/-- Every key that matches a delegation signer and every key of an accepted
signature may authenticate. -/
def KeysMayAuthenticate : Prop :=
  (∀ delegation ∈ input.delegations, ∀ record dnskey,
      delegation.Matches crypto record dnskey → dnskey.MayAuthenticate) ∧
    ∀ check ∈ input.checks crypto, ∀ rrsig dnskey,
      check.accepted crypto input.now = some (rrsig, dnskey) → dnskey.MayAuthenticate

/-- The checks of DS sets and of the target set, each under the DNSKEY set of its zone. -/
def recordChecks (owner : DnsName) (dnskeyRrset : List ResourceRecord) :
    List DnssecChainLink → List Check
  | [] => [⟨owner, dnskeyRrset, input.targetRrset, input.targetRrsigRrset⟩]
  | link :: rest =>
    ⟨owner, dnskeyRrset, link.dsRrset, link.dsRrsigRrset⟩ ::
      recordChecks link.childDnskeyOwner link.childDnskeyRrset rest

/-- No revoked zone key is a candidate for a delegation signer, or for a signature over a DS set
or the target set ahead of one that verifies. -/
def RevokedKeysUntried : Prop :=
  (∀ delegation ∈ input.delegations, delegation.RevokedKeysUnnamed) ∧
    ∀ check ∈ input.recordChecks input.initialDnskeyOwner input.initialDnskeyRrset
      input.delegationLinks, check.RevokedKeysUntried crypto input.now

variable {input crypto}

/-- The other checks are those of DNSKEY sets under the keys that match a delegation signer. -/
theorem mem_linkChecks {check : Check}
    (mem : check ∈ input.linkChecks crypto owner dnskeyRrset links) :
    check ∈ input.recordChecks owner dnskeyRrset links ∨
      ∃ link ∈ links, check.dnskeyRrset = link.delegation.keys crypto := by
  induction links generalizing owner dnskeyRrset with
  | nil => exact .inl mem
  | cons link rest ih =>
    rw [linkChecks, List.mem_cons, List.mem_cons] at mem
    rw [recordChecks, List.mem_cons]
    rcases mem with rfl | rfl | mem
    · exact .inl (.inl rfl)
    · exact .inr ⟨link, List.mem_cons_self, rfl⟩
    · rcases ih mem with mem | ⟨other, otherMem, keys_eq⟩
      · exact .inl (.inr mem)
      · exact .inr ⟨other, List.mem_cons_of_mem link otherMem, keys_eq⟩

theorem mem_checks {check : Check} (mem : check ∈ input.checks crypto) :
    check ∈ input.recordChecks input.initialDnskeyOwner input.initialDnskeyRrset
        input.delegationLinks ∨
      ∃ delegation ∈ input.delegations, check.dnskeyRrset = delegation.keys crypto := by
  rcases List.mem_cons.mp mem with rfl | mem
  · exact .inr ⟨_, List.mem_cons_self, rfl⟩
  · rcases mem_linkChecks mem with mem | ⟨link, linkMem, keys_eq⟩
    · exact .inl mem
    · exact .inr ⟨_, List.mem_cons_of_mem _ (List.mem_map_of_mem linkMem), keys_eq⟩

/-- An accepted key under matching keys matches a delegation signer itself. -/
theorem not_revoked_of_accepted (untried : input.RevokedKeysUntried crypto)
    (delegations : ∀ delegation ∈ input.delegations, delegation.Secure crypto) {check : Check}
    (checkMem : check ∈ input.checks crypto)
    (found : check.accepted crypto input.now = some (rrsig, dnskey)) : ¬ dnskey.IsRevoked := by
  rcases mem_checks checkMem with mem | ⟨delegation, delegationMem, keys_eq⟩
  · exact (untried.2 check mem).accepted found
  rcases Check.accepted_spec found with ⟨⟨record, recordMem, parsed⟩, -⟩
  rcases delegations delegation delegationMem with ⟨keys, secure⟩
  rw [keys_eq, Delegation.keys_eq secure, Delegation.mem_keys_iff secure] at recordMem
  rcases recordMem with ⟨matching, matched⟩
  have same : matching = dnskey := Except.ok.inj (matched.2.1.symm.trans parsed)
  exact same ▸ (untried.1 delegation delegationMem).matches matched

end DnssecChainValidationInput

/-- A secure chain finds a matching key at every delegation and an accepted signature in every
check.  The keys found are zone keys of the DNSSEC protocol; they may authenticate where no
revoked key is tried. -/
theorem secure_keys_mayAuthenticate (crypto : Crypto) (input : DnssecChainValidationInput)
    (secure : validateDnssecChain crypto input = .ok .secure ∨
      ∃ signed : SignedRrsetValidationInput, signed.toChain = input ∧
        validateSignedRrset crypto signed = .ok .secure) :
    (∀ delegation ∈ input.delegations, ∃ keys,
      dsAuthenticatedDnskeys crypto delegation.owner delegation.dsRrset delegation.dnskeyRrset =
          .ok (.secure, keys) ∧
        ∀ record, record ∈ keys ↔ ∃ dnskey, delegation.Matches crypto record dnskey) ∧
    (∀ check ∈ input.checks crypto, check.validate crypto input.now = .ok .secure ∧
      ∃ pair, check.accepted crypto input.now = some pair) ∧
    (∀ delegation ∈ input.delegations, ∀ record dnskey, delegation.Matches crypto record dnskey →
      dnskey.IsZoneKey ∧ dnskey.protocol = dnssecProtocol) ∧
    (∀ check ∈ input.checks crypto, ∀ rrsig dnskey,
      check.accepted crypto input.now = some (rrsig, dnskey) →
        dnskey.IsZoneKey ∧ dnskey.protocol = dnssecProtocol) ∧
    (input.RevokedKeysUntried crypto → input.KeysMayAuthenticate crypto) := by
  have secure : validateDnssecChain crypto input = .ok .secure := by
    rcases secure with secure | ⟨signed, rfl, secure⟩
    · exact secure
    · rw [← validateSignedRrset_eq_validateDnssecChain, secure]
  rcases DnssecChainValidationInput.validateDnssecChain_eq_secure secure with
    ⟨delegations, checks⟩
  have matched_spec : ∀ delegation ∈ input.delegations, ∀ record dnskey,
      delegation.Matches crypto record dnskey →
        dnskey.IsZoneKey ∧ dnskey.protocol = dnssecProtocol :=
    fun _ _ _ _ matched => ⟨matched.isZoneKey, (DnskeyRecord.fromRecord_eq_ok matched.2.1).2⟩
  have accepted_spec : ∀ check ∈ input.checks crypto, ∀ rrsig dnskey,
      check.accepted crypto input.now = some (rrsig, dnskey) →
        dnskey.IsZoneKey ∧ dnskey.protocol = dnssecProtocol := by
    intro check _ rrsig dnskey found
    rcases Check.accepted_spec found with ⟨⟨record, -, parsed⟩, verified⟩
    exact ⟨(isZoneKey_of_verifyRrsig verified).1, (DnskeyRecord.fromRecord_eq_ok parsed).2⟩
  refine ⟨?_, ?_, matched_spec, accepted_spec, ?_⟩
  · intro delegation delegationMem
    rcases delegations delegation delegationMem with ⟨keys, keys_eq⟩
    exact ⟨keys, keys_eq, Delegation.mem_keys_iff keys_eq⟩
  · intro check checkMem
    have checked := checks check checkMem
    exact ⟨checked, (Check.validate_eq_secure_iff check).mp checked⟩
  · intro untried
    constructor
    · intro delegation delegationMem record dnskey matched
      rcases matched_spec delegation delegationMem record dnskey matched with ⟨zoneKey, protocol⟩
      exact ⟨zoneKey, (untried.1 delegation delegationMem).matches matched, protocol⟩
    · intro check checkMem rrsig dnskey found
      rcases accepted_spec check checkMem rrsig dnskey found with ⟨zoneKey, protocol⟩
      exact ⟨zoneKey, DnssecChainValidationInput.not_revoked_of_accepted untried delegations
        checkMem found, protocol⟩

end

/-! ## A zone with one Ed25519 key -/

namespace ExampleZone

def apexLabels : List Label :=
  [[101, 120, 97, 109, 112, 108, 101]]

/-- `example.` -/
def apex : DnsName :=
  ⟨apexLabels, by decide⟩

def publicKey : Octets :=
  [3, 161, 7, 191, 243, 206, 16, 190, 29, 112, 221, 24, 231, 75, 192, 153, 103, 228, 214, 48,
    155, 165, 13, 95, 29, 220, 134, 100, 18, 85, 49, 184]

/-- The fields of the key record that the flags decide, and the signatures. -/
structure ZoneKey where
  flags : Octets
  tag : Octets
  digest : Octets
  dnskeySignature : Octets
  addressSignature : Octets

/-- The key with flags 257. -/
def active : ZoneKey where
  flags := [1, 1]
  tag := [133, 211]
  digest :=
    [50, 220, 30, 28, 253, 80, 33, 50, 142, 170, 106, 222, 31, 236, 64, 80, 116, 34, 169, 162,
    196, 202, 144, 67, 181, 13, 210, 250, 106, 131, 34, 14]
  dnskeySignature :=
    [73, 253, 73, 179, 149, 5, 36, 170, 41, 6, 72, 20, 118, 153, 86, 81, 163, 128, 168, 199, 135,
    208, 60, 174, 169, 43, 202, 135, 10, 239, 92, 117, 171, 21, 225, 19, 91, 181, 250, 208, 250,
    245, 132, 54, 167, 71, 47, 104, 137, 241, 133, 199, 214, 8, 3, 176, 208, 254, 250, 86, 214,
    62, 234, 8]
  addressSignature :=
    [139, 48, 8, 98, 133, 223, 106, 203, 153, 105, 184, 98, 97, 215, 234, 20, 189, 202, 20, 224,
    141, 133, 145, 179, 159, 194, 51, 52, 248, 10, 46, 22, 48, 19, 26, 120, 147, 5, 127, 1, 239,
    223, 75, 94, 195, 183, 49, 58, 146, 234, 160, 152, 121, 96, 62, 2, 239, 245, 25, 177, 104, 95,
    165, 14]

/-- The same key with the revocation flag. -/
def revoked : ZoneKey where
  flags := [1, 129]
  tag := [134, 83]
  digest :=
    [229, 51, 174, 62, 195, 72, 201, 151, 18, 159, 206, 5, 71, 188, 222, 27, 42, 34, 85, 253, 248,
    105, 197, 177, 179, 253, 86, 75, 93, 9, 111, 80]
  dnskeySignature :=
    [18, 15, 118, 207, 135, 147, 202, 71, 189, 241, 40, 199, 192, 47, 37, 210, 183, 189, 12, 242,
    196, 116, 122, 203, 104, 64, 170, 252, 248, 85, 209, 96, 79, 192, 249, 255, 151, 116, 60, 254,
    54, 65, 45, 76, 40, 87, 216, 108, 175, 186, 63, 116, 131, 125, 162, 108, 204, 40, 38, 192,
    235, 90, 5, 13]
  addressSignature :=
    [6, 6, 33, 227, 218, 8, 119, 56, 24, 79, 159, 169, 217, 29, 80, 158, 134, 195, 139, 191, 244,
    139, 107, 77, 244, 198, 246, 235, 6, 29, 223, 53, 97, 51, 81, 17, 160, 34, 234, 118, 135, 13,
    118, 114, 103, 172, 144, 124, 31, 123, 0, 181, 69, 27, 245, 197, 129, 124, 78, 237, 66, 223,
    188, 4]

namespace ZoneKey

variable (key : ZoneKey)

def dnskey : ResourceRecord :=
  ⟨apex, .dnskey, 1, 300, key.flags ++ [3, 15] ++ publicKey⟩

def ds : ResourceRecord :=
  ⟨apex, .ds, 1, 300, key.tag ++ [15, 2] ++ key.digest⟩

def address : ResourceRecord :=
  ⟨apex, .a, 1, 300, [192, 0, 2, 1]⟩

/-- The signature data before the signature, valid from 1700000000 to
2000000000. -/
def fields (record : ResourceRecord) : Octets :=
  writeU16Be record.recordType.code ++ [15, 1] ++ writeU32Be 300 ++ writeU32Be 2000000000 ++
    writeU32Be 1700000000 ++ key.tag ++ wireOf apex.labels

def rrsig (record : ResourceRecord) (signature : Octets) : ResourceRecord :=
  ⟨apex, .rrsig, 1, 300, key.fields record ++ signature⟩

/-- The octets under the signature of a record. -/
def octets (record : ResourceRecord) : Octets :=
  key.fields record ++ wireOf apex.labels ++ writeU16Be record.recordType.code ++ writeU16Be 1 ++
    writeU32Be 300 ++ Frame.u16 record.rdata.length ++ record.rdata

/-- Primitives with the digest and the two signatures of the key. -/
def crypto : Crypto where
  sha1 _ := List.replicate 20 0
  sha256 data :=
    if data = wireOf apex.labels ++ key.dnskey.rdata then key.digest else List.replicate 32 0
  sha384 _ := List.replicate 48 0
  verifyRsa _ _ _ _ _ := false
  isP256Key _ := false
  isP256Signature _ := false
  verifyP256 _ _ _ := false
  verifyP384 _ _ _ := false
  verifyEd25519 verifying data signature :=
    verifying == publicKey &&
      ((data == key.octets key.dnskey && signature == key.dnskeySignature) ||
        (data == key.octets address && signature == key.addressSignature))

/-- The address set of the zone, under the one key. -/
def signed : SignedRrsetValidationInput where
  dnskeyOwner := apex
  dsRrset := [key.ds]
  dnskeyRrset := [key.dnskey]
  dnskeyRrsigRrset := [key.rrsig key.dnskey key.dnskeySignature]
  rrset := [address]
  rrsigRrset := [key.rrsig address key.addressSignature]
  now := 1800000000

end ZoneKey

/-- The one key of the zone as parsed. -/
def ZoneKey.parsed (key : ZoneKey) (flags : UInt16) : DnskeyRecord :=
  ⟨flags, 3, 15, publicKey, key.dnskey.rdata⟩

private theorem active_secure :
    validateDnssecChain active.crypto active.signed.toChain = .ok .secure := by
  rfl

private theorem active_not_revoked {record : ResourceRecord} {dnskey : DnskeyRecord}
    (record_eq : record = active.dnskey) (parsed : DnskeyRecord.fromRecord record = .ok dnskey) :
    ¬ dnskey.IsRevoked := by
  have parsed_eq : DnskeyRecord.fromRecord active.dnskey = .ok (active.parsed 257) := by
    rfl
  rw [record_eq, parsed_eq] at parsed
  obtain rfl := Except.ok.inj parsed
  decide

theorem active_untried : active.signed.toChain.RevokedKeysUntried active.crypto := by
  constructor
  · have only : ∀ delegation ∈ active.signed.toChain.delegations,
        ∀ record ∈ delegation.dnskeyRrset, record = active.dnskey := by
      decide
    intro delegation delegationMem record recordMem dnskey parsed _ revoked
    exact absurd revoked
      (active_not_revoked (only delegation delegationMem record recordMem) parsed)
  · have only : ∀ check ∈ active.signed.toChain.recordChecks apex [active.dnskey] [],
        check.rrset = [ZoneKey.address] ∧ ∀ record ∈ check.dnskeyRrset, record = active.dnskey := by
      decide
    intro check checkMem pairs pairs_eq before rrsig dnskey after split _ revoked
    rcases only check checkMem with ⟨rrset_eq, keys_eq⟩
    rw [rrset_eq] at pairs_eq
    have mem : (rrsig, dnskey) ∈ pairs := by simp [split]
    rcases (mem_signaturePairs_iff pairs_eq).mp mem with ⟨-, ⟨record, recordMem, -, parsed⟩, -⟩
    exact absurd revoked (active_not_revoked (keys_eq record recordMem) parsed)

theorem active_keys_mayAuthenticate :
    validateDnssecChain active.crypto active.signed.toChain = .ok .secure ∧
      active.signed.toChain.KeysMayAuthenticate active.crypto :=
  ⟨active_secure, (secure_keys_mayAuthenticate _ _ (.inl active_secure)).2.2.2.2 active_untried⟩

/-- Both validators accept the zone whose only key is revoked. -/
theorem revoked_key_authenticates :
    validateSignedRrset revoked.crypto revoked.signed = .ok .secure ∧
      validateDnssecChain revoked.crypto revoked.signed.toChain = .ok .secure ∧
      ¬ revoked.signed.toChain.KeysMayAuthenticate revoked.crypto := by
  refine ⟨rfl, rfl, ?_⟩
  rintro ⟨matching, -⟩
  have parsed_eq : DnskeyRecord.fromRecord revoked.dnskey = .ok (revoked.parsed 385) := by
    rfl
  have ds_eq : DsRecord.fromRecord revoked.ds = .ok ⟨34387, 15, 2, revoked.digest⟩ := by
    rfl
  have mayAuthenticate := matching revoked.signed.toChain.initialDelegation List.mem_cons_self
    revoked.dnskey (revoked.parsed 385)
    ⟨List.mem_cons_self, parsed_eq, revoked.ds, List.mem_cons_self, _, ds_eq, rfl⟩
  exact mayAuthenticate.2.1 (by decide)

end ExampleZone

end HnsDaneEngine.Browser.Dnssec
