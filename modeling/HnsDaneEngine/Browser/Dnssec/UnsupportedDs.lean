import HnsDaneEngine.Browser.Dnssec.Revocation

/-!
# Delegation signers with an unsupported digest

A delegation is secure when some key matches some delegation signer, and more
delegation signers only add matching keys.  The loop over keys and signers stops
at the first digest it cannot compute, though, and it computes the digest of
every signer with the algorithm and key tag of a zone key.  A signer with an
unsupported digest type is therefore passed over exactly as long as it does not
designate such a key.
-/

namespace HnsDaneEngine.Browser.Dnssec

open Control Wire

namespace DsRecord

def HasSupportedDigest (ds : DsRecord) : Prop :=
  ds.digestType = 1 ∨ ds.digestType = 2 ∨ ds.digestType = 4

/-- RSA with SHA-1, SHA-256 or SHA-512, ECDSA on either curve, and Ed25519. -/
def HasSupportedAlgorithm (ds : DsRecord) : Prop :=
  ds.algorithm ∈ ([5, 7, 8, 10, 13, 14, 15] : Octets)

/-- The digest of the key is compared with that of the delegation signer. -/
def Designates (ds : DsRecord) (dnskey : DnskeyRecord) : Prop :=
  dnskey.IsZoneKey ∧ dnskey.algorithm = ds.algorithm ∧ dnskey.keyTag = ds.keyTag

end DsRecord

/-- A well-formed DS record with an unsupported digest type or algorithm. -/
def IsUnsupportedDs (record : ResourceRecord) : Prop :=
  ∃ ds, DsRecord.fromRecord record = .ok ds ∧ (¬ ds.HasSupportedDigest ∨ ¬ ds.HasSupportedAlgorithm)

/-- Unsupported DS records stand among the others, at any positions. -/
def WidenedBy (added dsRrset wider : List ResourceRecord) : Prop :=
  wider.Perm (dsRrset ++ added) ∧ ∀ record ∈ added, IsUnsupportedDs record

def Widened (dsRrset wider : List ResourceRecord) : Prop :=
  ∃ added, WidenedBy added dsRrset wider

section

variable {crypto : Crypto} {owner : DnsName} {dnskey : DnskeyRecord} {ds : DsRecord}

theorem dsDigest_eq_ok_iff {digestType : UInt8} {wire : Octets}
    (encoded : owner.encodeWire = .ok wire) :
    (∃ digest, dsDigest crypto owner dnskey digestType = .ok digest) ↔
      digestType = 1 ∨ digestType = 2 ∨ digestType = 4 := by
  unfold dsDigest
  rw [encoded]
  simp only [← UInt8.toNat_inj, UInt8.reduceToNat]
  constructor
  · rintro ⟨digest, digest_eq⟩
    split at digest_eq
    next one => exact .inl one
    next two => exact .inr (.inl two)
    next four => exact .inr (.inr four)
    next => cases digest_eq
  · rintro (type_eq | type_eq | type_eq)
    · rw [type_eq]
      exact ⟨_, rfl⟩
    · rw [type_eq]
      exact ⟨_, rfl⟩
    · rw [type_eq]
      exact ⟨_, rfl⟩

theorem verifyDsDigest_of_designates (designates : ds.Designates dnskey) :
    verifyDsDigest crypto owner dnskey ds =
      (dsDigest crypto owner dnskey ds.digestType).map (· == ds.digest) := by
  obtain ⟨zone, algorithm_eq, tag_eq⟩ := designates
  have matching : ¬ (dnskey.algorithm ≠ ds.algorithm ∨ dnskey.keyTag ≠ ds.keyTag) := by
    simp [algorithm_eq, tag_eq]
  rw [verifyDsDigest, if_neg zone, if_neg matching]

theorem verifyDsDigest_of_not_designates (other : ¬ ds.Designates dnskey) :
    verifyDsDigest crypto owner dnskey ds = .ok false := by
  unfold verifyDsDigest
  split
  · rfl
  next zone =>
    split
    · rfl
    next matching =>
      rw [not_or, not_not, not_not] at matching
      exact absurd ⟨zone, matching⟩ other

/-- A comparison ends when the digest type is supported or the key is another. -/
theorem exists_verifyDsDigest_iff {wire : Octets} (encoded : owner.encodeWire = .ok wire) :
    (∃ matched, verifyDsDigest crypto owner dnskey ds = .ok matched) ↔
      (ds.Designates dnskey → ds.HasSupportedDigest) := by
  by_cases designates : ds.Designates dnskey
  · have digest_iff : (∃ digest, dsDigest crypto owner dnskey ds.digestType = .ok digest) ↔
        ds.digestType = 1 ∨ ds.digestType = 2 ∨ ds.digestType = 4 :=
      dsDigest_eq_ok_iff encoded
    rw [verifyDsDigest_of_designates designates]
    simp only [designates, forall_const]
    rw [DsRecord.HasSupportedDigest, ← digest_iff]
    cases dsDigest crypto owner dnskey ds.digestType <;> simp [Except.map]
  · rw [verifyDsDigest_of_not_designates designates]
    simp [designates]

theorem exists_matchesDs_iff {dsRecords : List DsRecord} :
    (∃ matched, matchesDs crypto owner dnskey dsRecords = .ok matched) ↔
      ∀ ds ∈ dsRecords, ∃ matched, verifyDsDigest crypto owner dnskey ds = .ok matched := by
  induction dsRecords with
  | nil => simp [matchesDs]
  | cons ds rest ih =>
    rw [List.forall_mem_cons, ← ih]
    constructor
    · rintro ⟨matched, matched_eq⟩
      rcases of_bind_ok matched_eq with ⟨matchedFirst, first_eq, matched_eq⟩
      rcases of_bind_ok matched_eq with ⟨matchedLater, later_eq, -⟩
      exact ⟨⟨matchedFirst, first_eq⟩, matchedLater, later_eq⟩
    · rintro ⟨⟨matchedFirst, first_eq⟩, matchedLater, later_eq⟩
      exact ⟨_, bind_ok first_eq (bind_ok later_eq rfl)⟩

theorem exists_authenticatedKeys_iff {dsRecords : List DsRecord}
    {dnskeys : List (ResourceRecord × DnskeyRecord)} :
    (∃ authenticated, authenticatedKeys crypto owner dsRecords dnskeys = .ok authenticated) ↔
      ∀ entry ∈ dnskeys, ∀ ds ∈ dsRecords,
        ∃ matched, verifyDsDigest crypto owner entry.2 ds = .ok matched := by
  induction dnskeys with
  | nil => simp [authenticatedKeys]
  | cons entry rest ih =>
    rw [List.forall_mem_cons, ← ih, ← exists_matchesDs_iff]
    constructor
    · rintro ⟨authenticated, authenticated_eq⟩
      rcases of_bind_ok authenticated_eq with ⟨matched, matched_eq, authenticated_eq⟩
      rcases of_bind_ok authenticated_eq with ⟨later, later_eq, -⟩
      exact ⟨⟨matched, matched_eq⟩, later, later_eq⟩
    · rintro ⟨⟨matched, matched_eq⟩, later, later_eq⟩
      exact ⟨_, bind_ok matched_eq (bind_ok later_eq rfl)⟩

end

theorem exists_dsRecords_iff {dsRrset : List ResourceRecord} :
    (∃ dsRecords, (dsRrset.filter fun record => record.recordType = .ds).mapM
        DsRecord.fromRecord = .ok dsRecords) ↔
      ∀ record ∈ dsRrset, record.recordType = .ds → ∃ ds, DsRecord.fromRecord record = .ok ds := by
  rw [exists_mapM_eq_ok_iff]
  simp only [List.mem_filter, decide_eq_true_eq, and_imp]

theorem exists_dnskeys_iff {dnskeyRrset : List ResourceRecord} :
    (∃ dnskeys, ((dnskeyRrset.filter fun record => record.recordType = .dnskey).mapM
        fun record => (DnskeyRecord.fromRecord record).map (record, ·)) = .ok dnskeys) ↔
      ∀ record ∈ dnskeyRrset, record.recordType = .dnskey →
        ∃ dnskey, DnskeyRecord.fromRecord record = .ok dnskey := by
  have mapped : ∀ record, (∃ entry, (DnskeyRecord.fromRecord record).map (record, ·) = .ok entry) ↔
      ∃ dnskey, DnskeyRecord.fromRecord record = .ok dnskey := by
    intro record
    cases DnskeyRecord.fromRecord record <;> simp [Except.map]
  rw [exists_mapM_eq_ok_iff]
  simp only [List.mem_filter, decide_eq_true_eq, and_imp, mapped]

namespace Delegation

variable {crypto : Crypto} {delegation wider : Delegation}

/-- Every record of either set that has the type is well formed. -/
structure Parses (delegation : Delegation) : Prop where
  ds : ∀ record ∈ delegation.dsRrset, record.recordType = .ds →
    ∃ ds, DsRecord.fromRecord record = .ok ds
  dnskey : ∀ record ∈ delegation.dnskeyRrset, record.recordType = .dnskey →
    ∃ dnskey, DnskeyRecord.fromRecord record = .ok dnskey

/-- Every delegation signer that designates a key of the set has a supported
digest type. -/
def DigestsSupported (delegation : Delegation) : Prop :=
  ∀ dsRecord ∈ delegation.dsRrset, ∀ ds, DsRecord.fromRecord dsRecord = .ok ds →
    ∀ record ∈ delegation.dnskeyRrset, ∀ dnskey, DnskeyRecord.fromRecord record = .ok dnskey →
      ds.Designates dnskey → ds.HasSupportedDigest

/-- A key that matches has been hashed under the name of the zone. -/
theorem Matches.encodeWire {record : ResourceRecord} {dnskey : DnskeyRecord}
    (matched : delegation.Matches crypto record dnskey) :
    ∃ wire, delegation.owner.encodeWire = .ok wire := by
  rcases matched with ⟨-, -, -, -, ds, -, verified⟩
  cases encoded : delegation.owner.encodeWire with
  | ok wire => exact ⟨wire, rfl⟩
  | error error =>
    by_cases designates : ds.Designates dnskey
    · rw [verifyDsDigest_of_designates designates] at verified
      simp [dsDigest, encoded, Except.map] at verified
    · rw [verifyDsDigest_of_not_designates designates] at verified
      simp at verified

/-- A delegation is secure when all records parse, every comparison ends and
some key matches. -/
theorem secure_iff :
    delegation.Secure crypto ↔ delegation.Parses ∧ delegation.DigestsSupported ∧
      ∃ record dnskey, delegation.Matches crypto record dnskey := by
  constructor
  · rintro ⟨keys, secure⟩
    have keys_iff := mem_keys_iff secure
    rcases of_bind_ok secure with ⟨dsRecords, dsRecords_eq, secure⟩
    split at secure
    · cases secure
    rcases of_bind_ok secure with ⟨dnskeys, dnskeys_eq, secure⟩
    rcases of_bind_ok secure with ⟨authenticated, authenticated_eq, secure⟩
    split at secure
    · cases secure
    next nonempty =>
      rcases Prod.mk.inj (Except.ok.inj secure) with ⟨-, rfl⟩
      rcases List.exists_mem_of_ne_nil authenticated (by simpa using nonempty) with
        ⟨record, recordMem⟩
      rcases (keys_iff record).mp recordMem with ⟨dnskey, matched⟩
      rcases matched.encodeWire with ⟨wire, encoded⟩
      refine ⟨⟨exists_dsRecords_iff.mp ⟨_, dsRecords_eq⟩,
        exists_dnskeys_iff.mp ⟨_, dnskeys_eq⟩⟩, ?_, record, dnskey, matched⟩
      intro dsRecord dsRecordMem ds ds_eq record recordMem dnskey parsed
      have ends := exists_authenticatedKeys_iff.mp ⟨_, authenticated_eq⟩ (record, dnskey)
        ((mem_dnskeys_iff dnskeys_eq).mpr ⟨recordMem, parsed⟩) ds
        ((mem_dsRecords_iff dsRecords_eq).mpr ⟨dsRecord, dsRecordMem, ds_eq⟩)
      exact (exists_verifyDsDigest_iff encoded).mp ends
  · rintro ⟨parses, supported, record, dnskey, matched⟩
    rcases matched.encodeWire with ⟨wire, encoded⟩
    rcases matched with ⟨recordMem, parsed, dsRecord, dsRecordMem, ds, ds_eq, verified⟩
    rcases exists_dsRecords_iff.mpr parses.ds with ⟨dsRecords, dsRecords_eq⟩
    rcases exists_dnskeys_iff.mpr parses.dnskey with ⟨dnskeys, dnskeys_eq⟩
    have dsMem : ds ∈ dsRecords :=
      (mem_dsRecords_iff dsRecords_eq).mpr ⟨dsRecord, dsRecordMem, ds_eq⟩
    have keyMem : (record, dnskey) ∈ dnskeys :=
      (mem_dnskeys_iff dnskeys_eq).mpr ⟨recordMem, parsed⟩
    have ends : ∃ authenticated,
        authenticatedKeys crypto delegation.owner dsRecords dnskeys = .ok authenticated := by
      apply exists_authenticatedKeys_iff.mpr
      rintro ⟨item, key⟩ itemMem signer signerMem
      rcases (mem_dnskeys_iff dnskeys_eq).mp itemMem with ⟨itemMem, key_eq⟩
      rcases (mem_dsRecords_iff dsRecords_eq).mp signerMem with ⟨_, signerMem, signer_eq⟩
      exact (exists_verifyDsDigest_iff encoded).mpr
        (supported _ signerMem signer signer_eq item itemMem key key_eq)
    rcases ends with ⟨authenticated, authenticated_eq⟩
    have found : record ∈ authenticated :=
      (authenticatedKeys_eq_ok authenticated_eq record).mpr ⟨dnskey, keyMem, ds, dsMem, verified⟩
    have someDs : ¬ dsRecords.isEmpty := by
      simpa using List.ne_nil_of_mem dsMem
    have someKey : ¬ authenticated.isEmpty := by
      simpa using List.ne_nil_of_mem found
    refine ⟨authenticated, bind_eq_ok_iff.mpr ⟨dsRecords, dsRecords_eq, ?_⟩⟩
    rw [if_neg someDs]
    refine bind_eq_ok_iff.mpr ⟨dnskeys, dnskeys_eq,
      bind_eq_ok_iff.mpr ⟨authenticated, authenticated_eq, ?_⟩⟩
    rw [if_neg someKey]
    rfl

section

variable {owner : DnsName} {dsRrset wider dnskeyRrset : List ResourceRecord}

theorem Matches.mono {record : ResourceRecord} {dnskey : DnskeyRecord} (contained : dsRrset ⊆ wider)
    (matched : Matches ⟨owner, dsRrset, dnskeyRrset⟩ crypto record dnskey) :
    Matches ⟨owner, wider, dnskeyRrset⟩ crypto record dnskey := by
  rcases matched with ⟨recordMem, parsed, dsRecord, dsRecordMem, ds, ds_eq, verified⟩
  exact ⟨recordMem, parsed, dsRecord, contained dsRecordMem, ds, ds_eq, verified⟩

theorem subset_of_widened (widened : Widened dsRrset wider) : dsRrset ⊆ wider := by
  rcases widened with ⟨added, perm, -⟩
  intro record recordMem
  exact perm.mem_iff.mpr (List.mem_append_left added recordMem)

/-- A secure delegation stays secure under more delegation signers exactly when
those that designate a key have supported digest types. -/
theorem secure_widened_iff (secure : Secure ⟨owner, dsRrset, dnskeyRrset⟩ crypto)
    (widened : Widened dsRrset wider) :
    Secure ⟨owner, wider, dnskeyRrset⟩ crypto ↔ DigestsSupported ⟨owner, wider, dnskeyRrset⟩ := by
  rw [secure_iff] at secure ⊢
  rcases secure with ⟨parses, -, record, dnskey, matched⟩
  have widerParses : Parses ⟨owner, wider, dnskeyRrset⟩ := by
    constructor
    · rcases widened with ⟨added, perm, unsupported⟩
      intro record recordMem type_eq
      rcases List.mem_append.mp (perm.mem_iff.mp recordMem) with original | isAdded
      · exact parses.ds record original type_eq
      · rcases unsupported record isAdded with ⟨ds, ds_eq, -⟩
        exact ⟨ds, ds_eq⟩
    · exact parses.dnskey
  have widerMatched := matched.mono (subset_of_widened widened)
  constructor
  · rintro ⟨-, supported, -⟩
    exact supported
  · intro supported
    exact ⟨widerParses, supported, record, dnskey, widerMatched⟩

/-- More delegation signers authenticate more keys. -/
theorem keys_subset (secure : Secure ⟨owner, dsRrset, dnskeyRrset⟩ crypto)
    (widerSecure : Secure ⟨owner, wider, dnskeyRrset⟩ crypto) (contained : dsRrset ⊆ wider) :
    keys ⟨owner, dsRrset, dnskeyRrset⟩ crypto ⊆ keys ⟨owner, wider, dnskeyRrset⟩ crypto := by
  rcases secure with ⟨original, original_eq⟩
  rcases widerSecure with ⟨extended, extended_eq⟩
  rw [keys_eq original_eq, keys_eq extended_eq]
  intro record recordMem
  rcases (mem_keys_iff original_eq record).mp recordMem with ⟨dnskey, matched⟩
  exact (mem_keys_iff extended_eq record).mpr ⟨dnskey, matched.mono contained⟩

/-- The authenticated keys parse. -/
theorem keys_parse (secure : delegation.Secure crypto) :
    ∀ record ∈ delegation.keys crypto, ∃ dnskey, DnskeyRecord.fromRecord record = .ok dnskey := by
  rcases secure with ⟨keys, secure⟩
  rw [keys_eq secure]
  intro record recordMem
  rcases (mem_keys_iff secure record).mp recordMem with ⟨dnskey, -, parsed, -⟩
  exact ⟨dnskey, parsed⟩

end

end Delegation

/-- A check that is secure stays so under more keys that parse. -/
theorem Check.validate_mono {crypto : Crypto} {now : Nat} {dnskeyOwner : DnsName}
    {dnskeyRrset wider rrset rrsigRrset : List ResourceRecord} (contained : dnskeyRrset ⊆ wider)
    (parses : ∀ record ∈ wider, ∃ dnskey, DnskeyRecord.fromRecord record = .ok dnskey)
    (secure : Check.validate ⟨dnskeyOwner, dnskeyRrset, rrset, rrsigRrset⟩ crypto now =
      .ok .secure) :
    Check.validate ⟨dnskeyOwner, wider, rrset, rrsigRrset⟩ crypto now = .ok .secure := by
  rw [Check.validate_eq, bind_eq_ok_iff] at secure ⊢
  rcases secure with ⟨pairs, pairs_eq, tried⟩
  rcases (trySignatures_eq_secure_iff none pairs).mp tried with ⟨⟨rrsig, dnskey⟩, pairMem, verified⟩
  cases rrset with
  | nil => cases pairs_eq
  | cons first rest =>
    have parsedBoth := exists_signaturePairs_iff.mp ⟨pairs, pairs_eq⟩
    rcases exists_signaturePairs_iff.mpr
      ⟨fun record recordMem _ => parses record recordMem, parsedBoth.2⟩ with
      ⟨widerPairs, widerPairs_eq⟩
    refine ⟨widerPairs, widerPairs_eq, (trySignatures_eq_secure_iff none widerPairs).mpr
      ⟨(rrsig, dnskey), ?_, verified⟩⟩
    rcases (mem_signaturePairs_iff pairs_eq).mp pairMem with
      ⟨rrsigFound, ⟨record, recordMem, recordType, parsed⟩, rest⟩
    exact (mem_signaturePairs_iff widerPairs_eq).mpr
      ⟨rrsigFound, ⟨record, contained recordMem, recordType, parsed⟩, rest⟩

/-- A link with unsupported delegation signers and other signatures over the set. -/
structure DnssecChainLink.Widened (link wider : DnssecChainLink) : Prop where
  childDnskeyOwner : wider.childDnskeyOwner = link.childDnskeyOwner
  dsRrset : Dnssec.Widened link.dsRrset wider.dsRrset
  childDnskeyRrset : wider.childDnskeyRrset = link.childDnskeyRrset
  childDnskeyRrsigRrset : wider.childDnskeyRrsigRrset = link.childDnskeyRrsigRrset

namespace DnssecChainLink.Widened

variable {crypto : Crypto} {link wider : DnssecChainLink}

theorem secure_iff (widened : link.Widened wider) (secure : link.delegation.Secure crypto) :
    wider.delegation.Secure crypto ↔ wider.delegation.DigestsSupported := by
  rw [delegation, ← widened.childDnskeyOwner, ← widened.childDnskeyRrset] at secure
  exact Delegation.secure_widened_iff secure widened.dsRrset

theorem keys_subset (widened : link.Widened wider) (secure : link.delegation.Secure crypto)
    (widerSecure : wider.delegation.Secure crypto) :
    link.delegation.keys crypto ⊆ wider.delegation.keys crypto := by
  rw [delegation, ← widened.childDnskeyOwner, ← widened.childDnskeyRrset] at secure ⊢
  exact Delegation.keys_subset secure widerSecure (Delegation.subset_of_widened widened.dsRrset)

end DnssecChainLink.Widened

namespace DnssecChainValidationInput

variable {crypto : Crypto} {input wider : DnssecChainValidationInput}

/-- Chains that differ in unsupported delegation signers only, and in the
signatures over the sets that contain them. -/
structure Widened (input wider : DnssecChainValidationInput) : Prop where
  initialDnskeyOwner : wider.initialDnskeyOwner = input.initialDnskeyOwner
  initialDsRrset : Dnssec.Widened input.initialDsRrset wider.initialDsRrset
  initialDnskeyRrset : wider.initialDnskeyRrset = input.initialDnskeyRrset
  initialDnskeyRrsigRrset : wider.initialDnskeyRrsigRrset = input.initialDnskeyRrsigRrset
  delegationLinks : List.Forall₂ DnssecChainLink.Widened input.delegationLinks wider.delegationLinks
  targetRrset : wider.targetRrset = input.targetRrset
  targetRrsigRrset : wider.targetRrsigRrset = input.targetRrsigRrset
  now : wider.now = input.now

/-- The checks of the signed DS sets under the keys of the zones above. -/
def dsChecks (currentOwner : DnsName) (currentDnskeyRrset : List ResourceRecord) :
    List DnssecChainLink → List Check
  | [] => []
  | link :: rest =>
    ⟨currentOwner, currentDnskeyRrset, link.dsRrset, link.dsRrsigRrset⟩ ::
      dsChecks link.childDnskeyOwner link.childDnskeyRrset rest

variable {currentOwner : DnsName} {currentDnskeyRrset : List ResourceRecord}
  {links widerLinks : List DnssecChainLink}

theorem validateLinks_eq_secure_iff :
    validateLinks crypto input currentOwner currentDnskeyRrset links = .ok .secure ↔
      (∀ link ∈ links, link.delegation.Secure crypto) ∧
        ∀ check ∈ input.linkChecks crypto currentOwner currentDnskeyRrset links,
          check.validate crypto input.now = .ok .secure := by
  constructor
  · exact validateLinks_eq_secure
  · induction links generalizing currentOwner currentDnskeyRrset with
    | nil =>
      rintro ⟨-, checks⟩
      exact checks _ List.mem_cons_self
    | cons link rest ih =>
      rintro ⟨delegations, checks⟩
      rw [List.forall_mem_cons] at delegations
      rcases delegations with ⟨⟨keys, delegation_eq⟩, delegations⟩
      have keys_eq : link.delegation.keys crypto = keys := Delegation.keys_eq delegation_eq
      rw [linkChecks, List.forall_mem_cons, List.forall_mem_cons, keys_eq] at checks
      rcases checks with ⟨ds_eq, child_eq, checks⟩
      exact bind_eq_ok_iff.mpr ⟨(.secure, keys), delegation_eq, bind_eq_ok_iff.mpr
        ⟨.secure, ds_eq, bind_eq_ok_iff.mpr ⟨.secure, child_eq, ih ⟨delegations, checks⟩⟩⟩⟩

/-- A chain is secure exactly when its delegations and its checks are. -/
theorem validateDnssecChain_eq_secure_iff :
    validateDnssecChain crypto input = .ok .secure ↔
      (∀ delegation ∈ input.delegations, delegation.Secure crypto) ∧
        ∀ check ∈ input.checks crypto, check.validate crypto input.now = .ok .secure := by
  constructor
  · exact validateDnssecChain_eq_secure
  · rintro ⟨delegations, checks⟩
    rw [DnssecChainValidationInput.delegations, List.forall_mem_cons] at delegations
    rcases delegations with ⟨⟨keys, delegation_eq⟩, delegations⟩
    have keys_eq : input.initialDelegation.keys crypto = keys := Delegation.keys_eq delegation_eq
    rw [DnssecChainValidationInput.checks, List.forall_mem_cons, keys_eq] at checks
    rcases checks with ⟨dnskey_eq, checks⟩
    have links := validateLinks_eq_secure_iff.mpr ⟨by simpa using delegations, checks⟩
    exact bind_eq_ok_iff.mpr ⟨(.secure, keys), delegation_eq,
      bind_eq_ok_iff.mpr ⟨.secure, dnskey_eq, links⟩⟩

/-- The secure links of a chain stay secure exactly when the added delegation
signers that designate a key have supported digest types. -/
theorem secure_iff_of_links (widened : List.Forall₂ DnssecChainLink.Widened links widerLinks)
    (secure : ∀ link ∈ links, link.delegation.Secure crypto) :
    (∀ link ∈ widerLinks, link.delegation.Secure crypto) ↔
      ∀ link ∈ widerLinks, link.delegation.DigestsSupported := by
  induction widened with
  | nil => simp
  | @cons link widerLink rest widerRest head _ ih =>
    rw [List.forall_mem_cons] at secure
    rw [List.forall_mem_cons, List.forall_mem_cons, ih secure.2]
    rw [head.secure_iff secure.1]

/-- Behind the checks of the DS sets, the checks of wider links are those of the
links under more keys. -/
theorem linkChecks_of_widened {now : Nat}
    (widened : List.Forall₂ DnssecChainLink.Widened links widerLinks)
    (targetRrset : wider.targetRrset = input.targetRrset)
    (targetRrsigRrset : wider.targetRrsigRrset = input.targetRrsigRrset)
    (secure : ∀ link ∈ links, link.delegation.Secure crypto)
    (widerSecure : ∀ link ∈ widerLinks, link.delegation.Secure crypto)
    (dsSigned : ∀ check ∈ dsChecks currentOwner currentDnskeyRrset widerLinks,
      check.validate crypto now = .ok .secure)
    (checks : ∀ check ∈ input.linkChecks crypto currentOwner currentDnskeyRrset links,
      check.validate crypto now = .ok .secure) :
    ∀ check ∈ wider.linkChecks crypto currentOwner currentDnskeyRrset widerLinks,
      check.validate crypto now = .ok .secure := by
  induction widened generalizing currentOwner currentDnskeyRrset with
  | nil =>
    rw [linkChecks, targetRrset, targetRrsigRrset]
    exact checks
  | @cons link widerLink rest widerRest head _ ih =>
    rw [List.forall_mem_cons] at secure widerSecure
    rw [dsChecks, List.forall_mem_cons] at dsSigned
    rw [linkChecks, List.forall_mem_cons, List.forall_mem_cons] at checks ⊢
    rw [head.childDnskeyOwner, head.childDnskeyRrset] at dsSigned
    rw [head.childDnskeyOwner, head.childDnskeyRrset, head.childDnskeyRrsigRrset]
    refine ⟨dsSigned.1, ?_, ih secure.2 widerSecure.2 dsSigned.2 checks.2.2⟩
    apply Check.validate_mono _ _ checks.2.1
    · exact head.keys_subset secure.1 widerSecure.1
    · exact Delegation.keys_parse widerSecure.1

/-- A secure chain whose DS sets get unsupported delegation signers, under new
signatures that verify. -/
theorem validateDnssecChain_widened_iff (secure : validateDnssecChain crypto input = .ok .secure)
    (widened : input.Widened wider)
    (dsSigned : ∀ check ∈ dsChecks wider.initialDnskeyOwner wider.initialDnskeyRrset
      wider.delegationLinks, check.validate crypto wider.now = .ok .secure) :
    validateDnssecChain crypto wider = .ok .secure ↔
      ∀ delegation ∈ wider.delegations, delegation.DigestsSupported := by
  rcases validateDnssecChain_eq_secure_iff.mp secure with ⟨delegations, checks⟩
  rw [DnssecChainValidationInput.delegations, List.forall_mem_cons, List.forall_mem_map]
    at delegations
  rw [DnssecChainValidationInput.checks, List.forall_mem_cons] at checks
  have initial := delegations.1
  rw [initialDelegation, ← widened.initialDnskeyOwner, ← widened.initialDnskeyRrset] at initial
  have supported_iff : (∀ delegation ∈ wider.delegations, delegation.Secure crypto) ↔
      ∀ delegation ∈ wider.delegations, delegation.DigestsSupported := by
    rw [DnssecChainValidationInput.delegations, List.forall_mem_cons, List.forall_mem_cons,
      List.forall_mem_map, List.forall_mem_map,
      secure_iff_of_links widened.delegationLinks delegations.2]
    have initial_iff : wider.initialDelegation.Secure crypto ↔
        wider.initialDelegation.DigestsSupported :=
      Delegation.secure_widened_iff initial widened.initialDsRrset
    rw [initial_iff]
  rw [validateDnssecChain_eq_secure_iff, ← supported_iff]
  constructor
  · rintro ⟨widerSecure, -⟩
    exact widerSecure
  · intro widerSecure
    refine ⟨widerSecure, ?_⟩
    rw [DnssecChainValidationInput.delegations, List.forall_mem_cons, List.forall_mem_map]
      at widerSecure
    rw [DnssecChainValidationInput.checks, List.forall_mem_cons]
    constructor
    · rw [widened.initialDnskeyOwner, widened.initialDnskeyRrset, widened.initialDnskeyRrsigRrset,
        widened.now]
      apply Check.validate_mono _ _ checks.1
      · have contained := Delegation.keys_subset initial widerSecure.1
          (Delegation.subset_of_widened widened.initialDsRrset)
        rw [widened.initialDnskeyOwner, widened.initialDnskeyRrset] at contained
        rw [initialDelegation, initialDelegation, widened.initialDnskeyOwner,
          widened.initialDnskeyRrset]
        exact contained
      · exact Delegation.keys_parse widerSecure.1
    · apply linkChecks_of_widened widened.delegationLinks widened.targetRrset
        widened.targetRrsigRrset delegations.2 widerSecure.2 dsSigned
      rw [widened.initialDnskeyOwner, widened.initialDnskeyRrset, widened.now]
      exact checks.2

end DnssecChainValidationInput

/-- Unsupported delegation signers next to those of a secure set or chain are
passed over exactly when none with an unsupported digest type designates a key
of the DNSKEY set. -/
theorem unsupportedDs_ignored_iff (crypto : Crypto) :
    (∀ (input : SignedRrsetValidationInput) (wider : List ResourceRecord),
      validateSignedRrset crypto input = .ok .secure → Widened input.dsRrset wider →
      (validateSignedRrset crypto { input with dsRrset := wider } = .ok .secure ↔
        Delegation.DigestsSupported ⟨input.dnskeyOwner, wider, input.dnskeyRrset⟩)) ∧
    ∀ input wider : DnssecChainValidationInput,
      validateDnssecChain crypto input = .ok .secure → input.Widened wider →
      (∀ check ∈ DnssecChainValidationInput.dsChecks wider.initialDnskeyOwner
        wider.initialDnskeyRrset wider.delegationLinks,
        check.validate crypto wider.now = .ok .secure) →
      (validateDnssecChain crypto wider = .ok .secure ↔
        ∀ delegation ∈ wider.delegations, delegation.DigestsSupported) := by
  constructor
  · intro input wider secure widened
    rw [validateSignedRrset_eq_validateDnssecChain] at secure ⊢
    have chain : input.toChain.Widened
        (SignedRrsetValidationInput.toChain { input with dsRrset := wider }) :=
      { initialDnskeyOwner := rfl
        initialDsRrset := widened
        initialDnskeyRrset := rfl
        initialDnskeyRrsigRrset := rfl
        delegationLinks := .nil
        targetRrset := rfl
        targetRrsigRrset := rfl
        now := rfl }
    rw [DnssecChainValidationInput.validateDnssecChain_widened_iff secure chain (by
      intro check checkMem
      cases checkMem)]
    exact List.forall_mem_singleton
  · intro input wider secure widened dsSigned
    exact DnssecChainValidationInput.validateDnssecChain_widened_iff secure widened dsSigned

namespace ExampleZone

/-- A delegation signer of digest type 3 for the key with a tag. -/
def gostDs (tag : Octets) : ResourceRecord :=
  ⟨apex, .ds, 1, 300, tag ++ [15, 3] ++ List.replicate 32 0⟩

/-- The zone with one more delegation signer in front. -/
def withGostDs (tag : Octets) : SignedRrsetValidationInput :=
  { active.signed with dsRrset := [gostDs tag, active.ds] }

private theorem gostDs_widened {tag : Octets} {ds : DsRecord}
    (parsed : DsRecord.fromRecord (gostDs tag) = .ok ds) (type_eq : ds.digestType = 3) :
    Widened active.signed.dsRrset (withGostDs tag).dsRrset := by
  refine ⟨[gostDs tag], .swap active.ds (gostDs tag) [], ?_⟩
  rw [List.forall_mem_singleton]
  refine ⟨ds, parsed, .inl ?_⟩
  rw [DsRecord.HasSupportedDigest, type_eq]
  decide

theorem other_gostDs_ignored :
    validateSignedRrset active.crypto (withGostDs [0, 0]) = .ok .secure ∧
      validateDnssecChain active.crypto (withGostDs [0, 0]).toChain = .ok .secure := by
  have parsed : DsRecord.fromRecord (gostDs [0, 0]) = .ok ⟨0, 15, 3, List.replicate 32 0⟩ := by
    rfl
  have widened := gostDs_widened parsed rfl
  have supported : Delegation.DigestsSupported
      ⟨apex, (withGostDs [0, 0]).dsRrset, active.signed.dnskeyRrset⟩ := by
    have key_eq : DnskeyRecord.fromRecord active.dnskey = .ok (active.parsed 257) := by
      rfl
    have ds_eq : DsRecord.fromRecord active.ds = .ok ⟨34259, 15, 2, active.digest⟩ := by
      rfl
    intro dsRecord dsRecordMem ds signer_eq record recordMem dnskey dnskey_eq designates
    obtain rfl := List.mem_singleton.mp recordMem
    rw [key_eq] at dnskey_eq
    obtain rfl := Except.ok.inj dnskey_eq
    rcases List.mem_cons.mp dsRecordMem with rfl | dsRecordMem
    · rw [parsed] at signer_eq
      obtain rfl := Except.ok.inj signer_eq
      exact absurd designates.2.2 (by decide)
    · obtain rfl := List.mem_singleton.mp dsRecordMem
      rw [ds_eq] at signer_eq
      obtain rfl := Except.ok.inj signer_eq
      exact .inr (.inl rfl)
  constructor
  · exact ((unsupportedDs_ignored_iff active.crypto).1 active.signed _ rfl widened).mpr supported
  · refine ((unsupportedDs_ignored_iff active.crypto).2 active.signed.toChain
      (withGostDs [0, 0]).toChain rfl ?_ ?_).mpr ?_
    · exact ⟨rfl, widened, rfl, rfl, .nil, rfl, rfl, rfl⟩
    · intro check checkMem
      cases checkMem
    · exact List.forall_mem_singleton.mpr supported

/-- A delegation signer of type 3 for the key that already matches one of type
2 ends the validation. -/
theorem gostDs_not_ignored :
    validateSignedRrset active.crypto active.signed = .ok .secure ∧
      Widened active.signed.dsRrset (withGostDs active.tag).dsRrset ∧
      validateSignedRrset active.crypto (withGostDs active.tag) = .error .unsupportedDigest := by
  have parsed : DsRecord.fromRecord (gostDs active.tag) =
      .ok ⟨34259, 15, 3, List.replicate 32 0⟩ := by
    rfl
  exact ⟨rfl, gostDs_widened parsed rfl, rfl⟩

end ExampleZone

end HnsDaneEngine.Browser.Dnssec
