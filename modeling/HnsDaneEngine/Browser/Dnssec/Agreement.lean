import HnsDaneEngine.Browser.Dnssec.Nsec3
import HnsDaneEngine.Browser.Dnssec.Revocation
import HnsDaneEngine.Dnssec.Keys
import HnsDaneEngine.Wire.Encode

/-!
# The two validators side by side

The browser validator and the strict one read owner hashes, type bitmaps and key tags with loops
of their own, which keep different bits in their registers.  What both accept has one meaning.
Delegation signers single out the same keys, but for revoked ones.
-/

namespace HnsDaneEngine.Browser.Dnssec

open Control HnsDaneEngine.Dnssec Wire

/-- The strict crate reads the same hash from an owner, but wants it to have 20 octets. -/
theorem nsec3OwnerHash_agrees (owner zone : DnsName) (strictOwner strictZone : Name)
    (hash : Octets) (owner_eq : strictOwner.labels = owner.labels)
    (zone_eq : strictZone.labels = zone.labels) :
    HnsDaneEngine.Dnssec.nsec3OwnerHash strictOwner strictZone = some hash ↔
      nsec3OwnerHash owner zone = .ok hash ∧ hash.length = 20 := by
  rw [HnsDaneEngine.Dnssec.nsec3OwnerHash, nsec3OwnerHash, owner_eq, zone_eq]
  cases owner.labels with
  | nil => simp
  | cons label rest =>
    dsimp only
    by_cases below : rest = zone.labels
    · rw [if_pos below, if_neg (not_not.mpr below), decodeBase32hexNopad_eq]
      cases decodeBase32hex label with
      | none => simp
      | some decoded =>
        dsimp only
        rw [Option.ite_none_right_eq_some, Option.some.injEq, Except.ok.injEq, and_comm]
        exact and_congr_right fun same => same ▸ Iff.rfl
    · rw [if_neg below, if_pos below]
      simp

/-- The label of 20 zero octets. -/
theorem nsec3OwnerHash_agrees_zeros :
    let labels : List Label := [List.replicate 32 0x30]
    ∃ owner : DnsName, ∃ strictOwner : Name, owner.labels = labels ∧ strictOwner.labels = labels ∧
      (HnsDaneEngine.Dnssec.nsec3OwnerHash strictOwner Name.root = some (List.replicate 20 0) ↔
        nsec3OwnerHash owner DnsName.root = .ok (List.replicate 20 0) ∧
          (List.replicate 20 (0 : UInt8)).length = 20) :=
  ⟨⟨[List.replicate 32 0x30], by decide⟩, ⟨[List.replicate 32 0x30], by decide⟩, rfl, rfl,
    nsec3OwnerHash_agrees _ _ _ _ _ rfl rfl⟩

/-- The browser validates the whole bitmap first, and finds in it what the strict crate finds. -/
theorem nsecTypeBitMapsContain_agrees (bitmap : Octets) (recordType : RecordType) (present : Bool) :
    nsecTypeBitMapsContain bitmap recordType = .ok present ↔
      validateNsecTypeBitMaps bitmap = .ok () ∧
        bitmapContains bitmap recordType.code = .ok present := by
  rw [nsecTypeBitMapsContain]
  cases accepted : validateNsecTypeBitMaps bitmap with
  | error error => simp
  | ok _ =>
    rw [bitmapContains, bitmapContainsFrom_of_validated accepted]
    simp

/-- The sum of the strict crate wraps around. -/
theorem toNat_foldl_addOctet (octets : List (UInt8 × Nat)) (accumulator : UInt32) :
    (octets.foldl addOctet accumulator).toNat = (accumulator.toNat +
      (octets.map fun (byte, index) =>
        if index % 2 = 0 then byte.toNat <<< 8 else byte.toNat).sum) % 2 ^ 32 := by
  induction octets generalizing accumulator with
  | nil => exact (Nat.mod_eq_of_lt accumulator.toNat_lt).symm
  | cons octet octets ih =>
    rcases octet with ⟨byte, index⟩
    have added : (addOctet accumulator (byte, index)).toNat = (accumulator.toNat +
        if index % 2 = 0 then byte.toNat <<< 8 else byte.toNat) % 2 ^ 32 := by
      rw [addOctet, UInt32.toNat_add, Nat.and_one_is_mod]
      split <;> simp
    rw [List.foldl_cons, ih, added, List.map_cons, List.sum_cons]
    dsimp only
    omega

theorem dnskeyTag_agrees (key : Dnskey) : dnskeyTag key = keyTag (encodeDnskey key) := by
  have total := toNat_foldl_addOctet (encodeDnskey key).zipIdx 0
  rw [dnskeyTag, keyTag]
  generalize (encodeDnskey key).zipIdx.foldl addOctet 0 = accumulator at total ⊢
  have low (number : Nat) : number &&& 65535 = number % 65536 :=
    Nat.and_two_pow_sub_one_eq_mod number 16
  rw [← UInt16.toNat_inj]
  simp [total, low, Nat.shiftRight_eq_div_pow]
  omega

/-- The libraries of the two crates compute the same digests. -/
structure SameDigests (openssl : OpenSsl) (crypto : Crypto) : Prop where
  sha1 : ∀ data, openssl.hash .sha1 data = some (crypto.sha1 data)
  sha256 : ∀ data, openssl.hash .sha256 data = some (crypto.sha256 data)
  sha384 : ∀ data, openssl.hash .sha384 data = some (crypto.sha384 data)

/-- Both crates hold one record of a zone, of which the browser keeps the octets. -/
structure SameRecord (zone : Name) (strict : Wire.ResourceRecord) (record : ResourceRecord) :
    Prop where
  name_eq : strict.name = zone
  class_eq : strict.class_ = classIn
  strict_type : strict.recordType = .fromCode record.recordType.code
  record_type : record.recordType = .fromCode strict.recordType.code
  rdata_eq : encodeRdata strict.recordType strict.rdata = .ok record.rdata

/-- Both crates hold the same records of a zone, in any order. -/
structure SameRecords (zone : Name) (strict : List Wire.ResourceRecord)
    (records : List ResourceRecord) : Prop where
  held : ∀ other ∈ strict, ∃ record ∈ records, SameRecord zone other record
  strict : ∀ record ∈ records, ∃ other ∈ strict, SameRecord zone other record

/-- A key of the strict crate as the browser holds it. -/
def DnskeyRecord.ofKey (key : Dnskey) : DnskeyRecord :=
  ⟨key.flags, key.protocol, key.algorithm, key.publicKey, encodeDnskey key⟩

section

variable {openssl : OpenSsl} {crypto : Crypto} {owner : DnsName} {zone : Name} {key : Dnskey}
  {strict : Wire.ResourceRecord} {record : ResourceRecord} {ds : DsRecord}

theorem SameRecord.ds_eq (same : SameRecord zone strict record)
    (parsed : DsRecord.fromRecord record = .ok ds) :
    strict.recordType = .ds ∧
      strict.rdata = .ds ⟨ds.keyTag, ds.algorithm, ds.digestType, ds.digest⟩ := by
  rcases of_guard_ok parsed with ⟨type_eq, parsed⟩
  have strict_type : strict.recordType = .ds := by
    rw [same.strict_type, not_not.mp type_eq]
    rfl
  have written := same.rdata_eq
  rw [strict_type] at written
  refine ⟨strict_type, ?_⟩
  cases rdata_eq : strict.rdata with
  | ds data =>
    rw [rdata_eq] at written
    rw [← Except.ok.inj written] at parsed
    rcases data with ⟨keyTag, algorithm, digestType, digest⟩
    cases digest with
    | nil => cases parsed
    | cons first rest =>
      cases parsed
      rw [u16FromBe_writeU16Be]
  | _ =>
    rw [rdata_eq] at written
    cases written

theorem SameRecord.dnskey_eq (same : SameRecord zone strict record)
    (found : dnskeyFor strict zone = some key) {dnskey : DnskeyRecord}
    (parsed : DnskeyRecord.fromRecord record = .ok dnskey) :
    key.protocol = 3 ∧ dnskey = .ofKey key := by
  rcases dnskeyFor_eq_some found with ⟨-, -, type_eq, rdata_eq⟩
  rcases of_guard_ok parsed with ⟨-, parsed⟩
  have written := same.rdata_eq
  rw [type_eq, rdata_eq] at written
  rw [← Except.ok.inj written] at parsed
  rcases of_guard_ok parsed with ⟨protocol_eq, parsed⟩
  cases parsed
  refine ⟨not_not.mp protocol_eq, ?_⟩
  rw [u16FromBe_writeU16Be]
  rfl

variable (digests : SameDigests openssl crypto) (zone_eq : zone.labels = owner.labels)

include digests zone_eq

theorem digestDs_eq_ok_iff (digestType : UInt8) (digest : Octets) :
    digestDs openssl digestType (wireOf zone.labels ++ encodeDnskey key) = .ok digest ↔
      dsDigest crypto owner (.ofKey key) digestType = .ok digest := by
  rw [dsDigest, DnsName.encodeWire_eq, digestDs, zone_eq]
  dsimp only [DnskeyRecord.ofKey]
  generalize digestType.toNat = number
  split <;> simp [digests.sha1, digests.sha256, digests.sha384]

/-- One comparison of a key with a delegation signer of its zone. -/
theorem verifyDsDigest_iff_dsCandidate (same : SameRecord zone strict record)
    (parsed : DsRecord.fromRecord record = .ok ds) :
    verifyDsDigest crypto owner (.ofKey key) ds = .ok true ↔
      key.flags &&& 0x0100 ≠ 0 ∧ ∃ strictDs, dsCandidate zone key strict = some strictDs ∧
        digestDs openssl strictDs.digestType (wireOf zone.labels ++ encodeDnskey key) =
          .ok strictDs.digest := by
  rcases same.ds_eq parsed with ⟨type_eq, rdata_eq⟩
  have candidate_eq : dsCandidate zone key strict =
      if key.algorithm ≠ ds.algorithm ∨ keyTag (encodeDnskey key) ≠ ds.keyTag then none
      else some ⟨ds.keyTag, ds.algorithm, ds.digestType, ds.digest⟩ := by
    simp only [dsCandidate, rdata_eq, same.name_eq, same.class_eq, type_eq, dnskeyTag_agrees,
      ne_eq, not_true_eq_false, false_or, or_comm, eq_comm]
  rw [candidate_eq]
  change (if key.flags &&& 0x0100 = 0 then .ok false else
    if key.algorithm ≠ ds.algorithm ∨ keyTag (encodeDnskey key) ≠ ds.keyTag then .ok false else
      (dsDigest crypto owner (.ofKey key) ds.digestType).map (· == ds.digest)) = _ ↔ _
  split
  next unflagged => simp [unflagged]
  next flagged =>
    rw [and_iff_right flagged]
    split
    next => simp
    next =>
      simp only [Option.some.injEq, exists_eq_left', digestDs_eq_ok_iff digests zone_eq]
      cases dsDigest crypto owner (.ofKey key) ds.digestType <;> simp [Except.map]

variable {trustedDs : List Wire.ResourceRecord} {dsRrset : List ResourceRecord}
  {dsRecords : List DsRecord} (same : SameRecords zone trustedDs dsRrset)

include same

theorem exists_verifyDsDigest_iff_dsCandidate
    (parsed : (dsRrset.filter fun record => record.recordType = .ds).mapM DsRecord.fromRecord =
      .ok dsRecords) :
    (∃ ds ∈ dsRecords, verifyDsDigest crypto owner (.ofKey key) ds = .ok true) ↔
      key.flags &&& 0x0100 ≠ 0 ∧ ∃ strict ∈ trustedDs, ∃ ds, dsCandidate zone key strict = some ds ∧
        digestDs openssl ds.digestType (wireOf zone.labels ++ encodeDnskey key) =
          .ok ds.digest := by
  constructor
  · rintro ⟨ds, dsMem, verified⟩
    rcases (mem_dsRecords_iff parsed).mp dsMem with ⟨record, recordMem, ds_eq⟩
    rcases same.strict record recordMem with ⟨strict, strictMem, sameRecord⟩
    rcases (verifyDsDigest_iff_dsCandidate digests zone_eq sameRecord ds_eq).mp verified with
      ⟨flagged, candidate⟩
    exact ⟨flagged, strict, strictMem, candidate⟩
  · rintro ⟨flagged, strict, strictMem, candidate⟩
    rcases same.held strict strictMem with ⟨record, recordMem, sameRecord⟩
    have type_eq : record.recordType = .ds := by
      rcases candidate with ⟨ds, named, -⟩
      unfold dsCandidate at named
      split at named
      next =>
        split_ifs at named with mismatch
        rw [sameRecord.record_type, not_not.mp fun other => mismatch (.inr (.inr (.inl other)))]
        rfl
      next => cases named
    rcases exists_mapM_eq_ok_iff.mp ⟨_, parsed⟩ record
      (List.mem_filter.mpr ⟨recordMem, by simpa using type_eq⟩) with ⟨ds, ds_eq⟩
    exact ⟨ds, (mem_dsRecords_iff parsed).mpr ⟨record, recordMem, ds_eq⟩,
      (verifyDsDigest_iff_dsCandidate digests zone_eq sameRecord ds_eq).mpr ⟨flagged, candidate⟩⟩

end

end HnsDaneEngine.Browser.Dnssec
