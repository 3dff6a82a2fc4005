import HnsDaneEngine.Dnssec.Verify

/-!
# Zone keys

RFC 4034 lets a DNSKEY record verify signatures only when its Zone Key flag is set.  The
loop of `verify_rrset` over the keys does not look at the flag, and accepts a signature by
any key of the signer that is not revoked.
-/

namespace HnsDaneEngine.Dnssec

open Wire

/-- A signature record of the RRset of a record that is current and has a supported
algorithm. -/
def IsCurrent (first : ResourceRecord) (validationTime : UInt32) (record : ResourceRecord)
    (signature : Rrsig) : Prop :=
  rrsigFor record first.name first.recordType = some signature ∧
    signature.labels.toNat = first.name.labels.length ∧
    serialInWindow validationTime signature.inception signature.expiration = true ∧
    supportedAlgorithm signature.algorithm = true

/-- A current signature of the RRset whose signed data cannot be written; it ends the loop. -/
def SignedDataFails (first : ResourceRecord) (records : List ResourceRecord)
    (validationTime : UInt32) (limits : DnssecLimits) (record : ResourceRecord) : Prop :=
  ∃ signature error, IsCurrent first validationTime record signature ∧
    rrsigSignedData records signature limits.maxSignedDataLen = .error error

/-- A signature of the RRset of a record, and a key of the signer under which it verifies. -/
structure VerifiesUnder (verify : SignatureCheck) (records : List ResourceRecord)
    (validationTime : UInt32) (limits : DnssecLimits) (first signatureRecord : ResourceRecord)
    (signature : Rrsig) (keyRecord : ResourceRecord) (key : Dnskey) : Prop where
  signatureRdata_eq : signatureRecord.rdata = .rrsig signature
  signatureType_eq : signatureRecord.recordType = .rrsig
  signatureClass_eq : signatureRecord.class_ = classIn
  signatureOwner_eq : signatureRecord.name = first.name
  typeCovered_eq : signature.typeCovered = first.recordType
  labels_eq : signature.labels.toNat = first.name.labels.length
  inWindow : serialInWindow validationTime signature.inception signature.expiration = true
  keyRdata_eq : keyRecord.rdata = .dnskey key
  keyType_eq : keyRecord.recordType = .dnskey
  keyClass_eq : keyRecord.class_ = classIn
  keyOwner_eq : keyRecord.name = signature.signer
  protocol_eq : key.protocol = 3
  not_revoked : key.flags &&& 0x0080 = 0
  algorithm_eq : key.algorithm = signature.algorithm
  tag_eq : dnskeyTag key = signature.keyTag
  verifies : ∃ signed, rrsigSignedData records signature limits.maxSignedDataLen = .ok signed ∧
    verify signature.algorithm key.publicKey signed signature.signature = true

/-- The RRset has a signature that verifies under a key with the Zone Key flag. -/
def SignedByZoneKey (verify : SignatureCheck) (records signatures keys : List ResourceRecord)
    (validationTime : UInt32) (limits : DnssecLimits) : Prop :=
  ∃ first, records.head? = some first ∧ ∃ signatureRecord ∈ signatures, ∃ signature,
    ∃ keyRecord ∈ keys, ∃ key, key.flags &&& 0x0100 ≠ 0 ∧
      VerifiesUnder verify records validationTime limits first signatureRecord signature
        keyRecord key

/-- What `verify_rrset` checks before it looks at signatures. -/
structure Admissible (records signatures keys : List ResourceRecord) (limits : DnssecLimits)
    (first : ResourceRecord) : Prop where
  head_eq : records.head? = some first
  records_le : records.length ≤ limits.maxRrsetRecords
  signatures_le : signatures.length ≤ limits.maxSignatures
  keys_le : keys.length ≤ limits.maxKeys
  class_eq : first.class_ = classIn
  not_rrsig : first.recordType ≠ .rrsig
  not_opt : first.recordType ≠ .opt
  same : ∀ record ∈ records, record.name = first.name ∧ record.recordType = first.recordType ∧
    record.class_ = classIn

/-- Every key that the signer, protocol, REVOKE flag, algorithm and tag make a candidate for a
current signature has the Zone Key flag.  Signatures behind one whose signed data cannot be
written are not reached. -/
def OnlyZoneKeysTried (records signatures keys : List ResourceRecord) (validationTime : UInt32)
    (limits : DnssecLimits) : Prop :=
  ∀ first, Admissible records signatures keys limits first →
    ∀ front record back, signatures = front ++ record :: back →
      (∀ earlier ∈ front, ¬ SignedDataFails first records validationTime limits earlier) →
      ∀ signature signed, IsCurrent first validationTime record signature →
        rrsigSignedData records signature limits.maxSignedDataLen = .ok signed →
        ∀ keyRecord ∈ keys, ∀ key, candidateKey signature keyRecord = some key →
          key.flags &&& 0x0100 ≠ 0

section

variable {verify : SignatureCheck} {first record : ResourceRecord}
  {records signatures keys : List ResourceRecord} {validationTime : UInt32}
  {limits : DnssecLimits} {progress : Progress}

/-- The checks of one signature record, as a proposition. -/
theorem signatureVerifies_iff :
    signatureVerifies verify first records keys validationTime limits record = true ↔
      ∃ signature signed, IsCurrent first validationTime record signature ∧
        rrsigSignedData records signature limits.maxSignedDataLen = .ok signed ∧
        ∃ keyRecord ∈ keys, ∃ key, candidateKey signature keyRecord = some key ∧
          verify signature.algorithm key.publicKey signed signature.signature = true := by
  unfold signatureVerifies IsCurrent
  cases found : rrsigFor record first.name first.recordType with
  | none => simp
  | some signature =>
    cases signed_eq : rrsigSignedData records signature limits.maxSignedDataLen with
    | error error => simp [signed_eq]
    | ok signed =>
      simp only [Option.some.injEq, ↓existsAndEq, signed_eq, Bool.and_eq_true, true_and,
        decide_eq_true_eq, List.any_eq_true, List.mem_filterMap, and_assoc, Except.ok.injEq]
      constructor
      · rintro ⟨labels, window, algorithm, key, ⟨keyRecord, mem, candidate⟩, verifies⟩
        exact ⟨labels, window, algorithm, keyRecord, mem, key, candidate, verifies⟩
      · rintro ⟨labels, window, algorithm, keyRecord, mem, key, candidate, verifies⟩
        exact ⟨labels, window, algorithm, key, ⟨keyRecord, mem, candidate⟩, verifies⟩

/-- A candidate key of a signature, taken apart. -/
theorem candidateKey_eq_some {signature : Rrsig} {key : Dnskey}
    (candidate : candidateKey signature record = some key) :
    record.name = signature.signer ∧ record.class_ = classIn ∧ record.recordType = .dnskey ∧
      record.rdata = .dnskey key ∧ key.protocol = 3 ∧ key.flags &&& 0x0080 = 0 ∧
      key.algorithm = signature.algorithm ∧ dnskeyTag key = signature.keyTag := by
  unfold candidateKey at candidate
  split at candidate
  · cases candidate
  next other found =>
    split_ifs at candidate with unfit differs
    obtain rfl := Option.some.inj candidate
    rw [not_or, not_ne_iff, not_ne_iff] at unfit differs
    rcases dnskeyFor_eq_some found with ⟨owner_eq, class_eq, type_eq, rdata_eq⟩
    exact ⟨owner_eq, class_eq, type_eq, rdata_eq, unfit.1, unfit.2, differs.1, differs.2⟩

/-- A current signature that verifies under a candidate key meets all conditions but the flag. -/
theorem verifiesUnder_of_candidate {signature : Rrsig} {signed : Octets}
    {keyRecord : ResourceRecord} {key : Dnskey}
    (current : IsCurrent first validationTime record signature)
    (signed_eq : rrsigSignedData records signature limits.maxSignedDataLen = .ok signed)
    (candidate : candidateKey signature keyRecord = some key)
    (verifies : verify signature.algorithm key.publicKey signed signature.signature = true) :
    VerifiesUnder verify records validationTime limits first record signature keyRecord key := by
  rcases current with ⟨found, labels_eq, inWindow, -⟩
  rcases rrsigFor_eq_some found with ⟨owner_eq, class_eq, type_eq, rdata_eq, covers⟩
  rcases candidateKey_eq_some candidate with ⟨keyOwner_eq, keyClass_eq, keyType_eq, keyRdata_eq,
    protocol_eq, not_revoked, algorithm_eq, tag_eq⟩
  exact ⟨rdata_eq, type_eq, class_eq, owner_eq, covers, labels_eq, inWindow, keyRdata_eq,
    keyType_eq, keyClass_eq, keyOwner_eq, protocol_eq, not_revoked, algorithm_eq, tag_eq, signed,
    signed_eq, verifies⟩

/-- A record that neither verifies nor fails leaves the loop to the others. -/
theorem trySignatures_cons_of_passed
    (rejected : signatureVerifies verify first records keys validationTime limits record = false)
    (continues : ¬ SignedDataFails first records validationTime limits record) :
    ∃ next, trySignatures verify first records keys validationTime limits progress
        (record :: signatures) =
      trySignatures verify first records keys validationTime limits next signatures := by
  rw [trySignatures]
  cases found : rrsigFor record first.name first.recordType with
  | none => exact ⟨_, rfl⟩
  | some signature =>
    dsimp only
    split_ifs with labels window algorithm
    · exact ⟨_, rfl⟩
    · exact ⟨_, rfl⟩
    · exact ⟨_, rfl⟩
    simp only [Bool.not_eq_true', Bool.not_eq_false, not_ne_iff] at labels window algorithm
    cases signed_eq : rrsigSignedData records signature limits.maxSignedDataLen with
    | error error =>
      exact absurd ⟨signature, error, ⟨found, labels, window, algorithm⟩, signed_eq⟩ continues
    | ok signed =>
      simp only [signatureVerifies, found, labels, window, algorithm, signed_eq,
        decide_true, Bool.true_and] at rejected
      simp only [rejected, Bool.false_eq_true, if_false]
      exact ⟨_, rfl⟩

/-- A record whose signed data fails ends the loop. -/
theorem trySignatures_cons_of_fails
    (fails : SignedDataFails first records validationTime limits record) :
    ∃ error, trySignatures verify first records keys validationTime limits progress
      (record :: signatures) = .error error := by
  rcases fails with ⟨signature, error, ⟨found, labels, window, algorithm⟩, signed_eq⟩
  refine ⟨error, ?_⟩
  simp [trySignatures, found, labels, window, algorithm, signed_eq]

/-- The loop succeeds when a record verifies before one fails. -/
theorem exists_trySignatures_eq_ok_iff :
    (∃ verified, trySignatures verify first records keys validationTime limits progress
        signatures = .ok verified) ↔
      ∃ front record back, signatures = front ++ record :: back ∧
        signatureVerifies verify first records keys validationTime limits record = true ∧
        ∀ earlier ∈ front, ¬ SignedDataFails first records validationTime limits earlier := by
  induction signatures generalizing progress with
  | nil => simp [trySignatures]
  | cons head rest ih =>
    cases verifies : signatureVerifies verify first records keys validationTime limits head with
    | true =>
      rcases @trySignatures_cons_of_verifies verify first head records rest keys
        validationTime limits progress verifies with ⟨signature, -, accepted⟩
      rw [accepted]
      constructor
      · intro _
        exact ⟨[], head, rest, rfl, verifies, by simp⟩
      · intro _
        exact ⟨_, rfl⟩
    | false =>
      -- Neither side can hold by the head alone.
      have split_iff : (∃ front record back, head :: rest = front ++ record :: back ∧
          signatureVerifies verify first records keys validationTime limits record = true ∧
          ∀ earlier ∈ front, ¬ SignedDataFails first records validationTime limits earlier) ↔
          ¬ SignedDataFails first records validationTime limits head ∧
            ∃ front record back, rest = front ++ record :: back ∧
              signatureVerifies verify first records keys validationTime limits record = true ∧
              ∀ earlier ∈ front, ¬ SignedDataFails first records validationTime limits earlier := by
        constructor
        · rintro ⟨front, record, back, split, passes, continues⟩
          cases front with
          | nil =>
            cases split
            rw [verifies] at passes
            cases passes
          | cons earlier front =>
            cases split
            rw [List.forall_mem_cons] at continues
            exact ⟨continues.1, front, record, back, rfl, passes, continues.2⟩
        · rintro ⟨passed, front, record, back, rfl, passes, continues⟩
          exact ⟨head :: front, record, back, rfl, passes,
            List.forall_mem_cons.mpr ⟨passed, continues⟩⟩
      rw [split_iff]
      by_cases fails : SignedDataFails first records validationTime limits head
      · rcases @trySignatures_cons_of_fails verify first head records rest keys
          validationTime limits progress fails with ⟨error, failed⟩
        simp [failed, fails]
      · rcases @trySignatures_cons_of_passed verify first head records rest keys
          validationTime limits progress verifies fails with ⟨next, next_eq⟩
        rw [next_eq, ih, and_iff_right fails]

/-- What is admissible goes to the loop, and nothing else succeeds. -/
theorem exists_verifyRrsetBy_eq_ok_iff :
    (∃ verified, verifyRrsetBy verify records signatures keys validationTime limits =
        .ok verified) ↔
      ∃ first, Admissible records signatures keys limits first ∧
        ∃ front record back, signatures = front ++ record :: back ∧
          signatureVerifies verify first records keys validationTime limits record = true ∧
          ∀ earlier ∈ front, ¬ SignedDataFails first records validationTime limits earlier := by
  cases records with
  | nil =>
    constructor
    · rintro ⟨verified, accepted⟩
      cases accepted
    · rintro ⟨first, admissible, -⟩
      cases admissible.head_eq
  | cons head rest =>
    unfold verifyRrsetBy
    dsimp only
    split_ifs with limited mismatch
    · constructor
      · rintro ⟨verified, accepted⟩
        cases accepted
      · rintro ⟨first, ⟨-, records_le, signatures_le, keys_le, -, -, -, -⟩, -⟩
        omega
    · constructor
      · rintro ⟨verified, accepted⟩
        cases accepted
      · rintro ⟨first, ⟨head_eq, -, -, -, class_eq, not_rrsig, not_opt, same⟩, -⟩
        obtain rfl := Option.some.inj head_eq
        rcases mismatch with differs | isRrsig | isOpt | ⟨record, mem, differs⟩
        · exact absurd class_eq differs
        · exact absurd isRrsig not_rrsig
        · exact absurd isOpt not_opt
        · have equal := same record mem
          tauto
    · rw [exists_trySignatures_eq_ok_iff]
      have admissible : Admissible (head :: rest) signatures keys limits head := by
        simp only [not_or, not_exists, not_and, not_ne_iff, Nat.not_lt] at limited mismatch
        rcases mismatch with ⟨class_eq, not_rrsig, not_opt, same⟩
        exact ⟨rfl, limited.1, limited.2.1, limited.2.2, class_eq, not_rrsig, not_opt, same⟩
      constructor
      · intro accepted
        exact ⟨head, admissible, accepted⟩
      · rintro ⟨first, other, accepted⟩
        obtain rfl := Option.some.inj other.head_eq
        exact accepted

end

theorem foldl_addOctet (octets : List (UInt8 × Nat)) (accumulator : UInt32) :
    octets.foldl addOctet accumulator = accumulator + octets.foldl addOctet 0 := by
  induction octets generalizing accumulator with
  | nil => simp
  | cons octet rest ih =>
    rw [List.foldl_cons, List.foldl_cons, ih, ih (addOctet 0 octet)]
    simp only [addOctet, UInt32.zero_add, UInt32.add_assoc]

/-- The sum under a key tag, as the flags and what the other octets add to them. -/
theorem dnskeyTag_eq (key : Dnskey) :
    ∃ later : Nat, ∀ flags : UInt16, (dnskeyTag { key with flags }).toNat =
      (flags.toNat + later + (flags.toNat + later) / 65536) % 65536 := by
  generalize sum_def : (([key.protocol, key.algorithm] ++ key.publicKey).zipIdx 2).foldl
    addOctet 0 = sum
  refine ⟨sum.toNat, fun flags => ?_⟩
  have flags_lt := flags.toNat_lt
  have octets_eq : (flags.toNat / 256).toUInt8.toUInt32 <<< 8 +
      (flags.toNat % 256).toUInt8.toUInt32 = flags.toUInt32 := by
    apply UInt32.toNat_inj.mp
    simp [UInt32.toNat_shiftLeft, Nat.shiftLeft_eq]
    omega
  have sum_eq : (encodeDnskey { key with flags }).zipIdx.foldl addOctet 0 =
      flags.toUInt32 + sum := by
    rw [← sum_def, ← foldl_addOctet, ← octets_eq]
    simp [encodeDnskey, writeU16, Frame.u16, addOctet]
  have mask : ∀ value : Nat, value &&& 65535 = value % 65536 := fun value =>
    Nat.and_two_pow_sub_one_eq_mod value 16
  simp [dnskeyTag, sum_eq, UInt32.toNat_add, Nat.shiftRight_eq_div_pow, mask]
  omega

/-- Equal sums of the halves: the carry between the halves is the only other way. -/
theorem eq_of_halves {first second later : Nat} (first_lt : first < 65536)
    (second_lt : second < 65536)
    (halves_eq : (first + later + (first + later) / 65536) % 65536 =
      (second + later + (second + later) / 65536) % 65536) :
    first = second ∨ first = 65535 ∨ second = 65535 := by
  have carry : (second + later) / 65536 = (first + later) / 65536 ∨
      (second + later) / 65536 = (first + later) / 65536 + 1 ∨
      (first + later) / 65536 = (second + later) / 65536 + 1 := by
    omega
  rcases carry with carry | carry | carry
  · rw [carry] at halves_eq
    clear carry
    omega
  · rw [carry] at halves_eq
    omega
  · rw [carry] at halves_eq
    omega

/-- Keys with one tag that are not revoked and differ at most in their flags are the same. -/
theorem flags_eq_of_tag {first second : Dnskey} (protocol_eq : first.protocol = second.protocol)
    (algorithm_eq : first.algorithm = second.algorithm)
    (publicKey_eq : first.publicKey = second.publicKey)
    (tag_eq : dnskeyTag first = dnskeyTag second) (first_active : first.flags &&& 0x0080 = 0)
    (second_active : second.flags &&& 0x0080 = 0) : first.flags = second.flags := by
  rcases dnskeyTag_eq first with ⟨later, tag_of⟩
  have first_tag := tag_of first.flags
  have second_tag := tag_of second.flags
  have second_eq : { first with flags := second.flags } = second := by
    cases first
    cases second
    simp_all
  rw [second_eq, ← tag_eq, first_tag] at second_tag
  have notFull : ∀ flags : UInt16, flags &&& 0x0080 = 0 → flags.toNat ≠ 65535 := by
    intro flags active full
    obtain rfl : flags = 0xffff := UInt16.toNat_inj.mp full
    exact absurd active (by decide)
  rcases eq_of_halves first.flags.toNat_lt second.flags.toNat_lt second_tag with
    equal | full | full
  · exact UInt16.toNat_inj.mp equal
  · exact absurd full (notFull _ first_active)
  · exact absurd full (notFull _ second_active)

/-- Signed data begins with the fields of its signature, the tag among them. -/
theorem keyTag_eq_of_signedData {records others : List ResourceRecord} {first second : Rrsig}
    {maximum limit : Nat} {signed : Octets}
    (first_ok : rrsigSignedData records first maximum = .ok signed)
    (second_ok : rrsigSignedData others second limit = .ok signed) :
    first.keyTag = second.keyTag := by
  have begins : ∀ {records signature maximum},
      rrsigSignedData records signature maximum = .ok signed →
        ∃ rest, signed = rrsigFields signature ++ rest := by
    intro records signature maximum signed_ok
    rw [rrsigSignedData, canonicalSignedData, encodeName_eq] at signed_ok
    dsimp only at signed_ok
    split at signed_ok
    · cases signed_ok
    · rw [appendBounded_eq_ok signed_ok, List.append_assoc]
      exact ⟨_, rfl⟩
  rcases begins first_ok with ⟨firstRest, rfl⟩
  rcases begins second_ok with ⟨secondRest, equal⟩
  simp only [rrsigFields, writeU16, Frame.u16, writeU32, List.cons_append, List.nil_append,
    List.cons.injEq] at equal
  have high := congrArg UInt8.toNat equal.2.2.2.2.2.2.2.2.2.2.2.2.2.2.2.2.1
  have low := congrArg UInt8.toNat equal.2.2.2.2.2.2.2.2.2.2.2.2.2.2.2.2.2.1
  have first_lt := first.keyTag.toNat_lt
  have second_lt := second.keyTag.toNat_lt
  rw [UInt8.toNat_ofNat', UInt8.toNat_ofNat'] at high low
  apply UInt16.toNat_inj.mp
  omega

/-- Success means a current signature of the RRset that verifies under a key of its signer
which is not revoked.  That there is also such a key with the Zone Key flag, whatever
`verify_signature` answers, holds exactly when only keys with the flag are tried. -/
theorem signedByZoneKey_of_ok_iff (records signatures keys : List ResourceRecord)
    (validationTime : UInt32) (limits : DnssecLimits) :
    (∀ verify verified, verifyRrsetBy verify records signatures keys validationTime limits =
        .ok verified → ∃ first, records.head? = some first ∧ ∃ signatureRecord ∈ signatures,
          ∃ signature, ∃ keyRecord ∈ keys, ∃ key, VerifiesUnder verify records validationTime
            limits first signatureRecord signature keyRecord key) ∧
      ((∀ verify verified, verifyRrsetBy verify records signatures keys validationTime limits =
          .ok verified → SignedByZoneKey verify records signatures keys validationTime limits) ↔
        OnlyZoneKeysTried records signatures keys validationTime limits) := by
  refine ⟨?_, ?_, ?_⟩
  · intro verify verified accepted
    rcases exists_verifyRrsetBy_eq_ok_iff.mp ⟨verified, accepted⟩ with
      ⟨first, admissible, front, record, back, rfl, verifies, -⟩
    rcases signatureVerifies_iff.mp verifies with
      ⟨signature, signed, current, signed_eq, keyRecord, keyMem, key, candidate, answer⟩
    exact ⟨first, admissible.head_eq, record, by simp, signature, keyRecord, keyMem, key,
      verifiesUnder_of_candidate current signed_eq candidate answer⟩
  · -- A predicate that accepts the one triple of the key and its signature accepts the RRset.
    intro signedByZoneKey first admissible front record back split reached signature signed current
      signed_eq keyRecord keyMem key candidate
    let verify : SignatureCheck := fun algorithm publicKey data octets =>
      algorithm = signature.algorithm ∧ publicKey = key.publicKey ∧ data = signed ∧
        octets = signature.signature
    have answer : verify signature.algorithm key.publicKey signed signature.signature = true := by
      simp [verify]
    have verifies := signatureVerifies_iff.mpr
      ⟨signature, signed, current, signed_eq, keyRecord, keyMem, key, candidate, answer⟩
    rcases exists_verifyRrsetBy_eq_ok_iff.mpr
      ⟨first, admissible, front, record, back, split, verifies, reached⟩ with ⟨verified, accepted⟩
    rcases signedByZoneKey verify verified accepted with
      ⟨_, -, _, -, zoneSignature, _, -, zoneKey, isZoneKey, under⟩
    rcases under.verifies with ⟨zoneSigned, zoneSigned_eq, zoneAnswer⟩
    simp only [verify, decide_eq_true_eq] at zoneAnswer
    rcases zoneAnswer with ⟨algorithm_eq, publicKey_eq, rfl, -⟩
    rcases candidateKey_eq_some candidate with ⟨-, -, -, -, protocol_eq, active, key_eq, tag_eq⟩
    have flags_eq : zoneKey.flags = key.flags := by
      apply flags_eq_of_tag _ _ publicKey_eq _ under.not_revoked active
      · rw [under.protocol_eq, protocol_eq]
      · rw [under.algorithm_eq, algorithm_eq, key_eq]
      · rw [under.tag_eq, tag_eq, keyTag_eq_of_signedData zoneSigned_eq signed_eq]
    rwa [flags_eq] at isZoneKey
  · intro only verify verified accepted
    rcases exists_verifyRrsetBy_eq_ok_iff.mp ⟨verified, accepted⟩ with
      ⟨first, admissible, front, record, back, rfl, verifies, reached⟩
    rcases signatureVerifies_iff.mp verifies with
      ⟨signature, signed, current, signed_eq, keyRecord, keyMem, key, candidate, answer⟩
    have isZoneKey := only first admissible front record back rfl reached signature signed current
      signed_eq keyRecord keyMem key candidate
    exact ⟨first, admissible.head_eq, record, by simp, signature, keyRecord, keyMem, key,
      isZoneKey, verifiesUnder_of_candidate current signed_eq candidate answer⟩

namespace ExampleKey

theorem owner_valid : ValidLabels [[101, 120, 97, 109, 112, 108, 101]] := by decide

/-- `example.` -/
def owner : Name :=
  ⟨[[101, 120, 97, 109, 112, 108, 101]], owner_valid⟩

/-- An address record. -/
def address : ResourceRecord :=
  ⟨owner, .a, 1, 300, .a #v[192, 0, 2, 1]⟩

/-- An Ed25519 key whose flags are all clear. -/
def key : Dnskey where
  flags := 0
  protocol := 3
  algorithm := 15
  publicKey :=
    [3, 161, 7, 191, 243, 206, 16, 190, 29, 112, 221, 24, 231, 75, 192, 153, 103, 228, 214, 48,
      155, 165, 13, 95, 29, 220, 134, 100, 18, 85, 49, 184]

def keyRecord : ResourceRecord :=
  ⟨owner, .dnskey, 1, 300, .dnskey key⟩

/-- The signature of the address record by the key. -/
def signature : Rrsig where
  typeCovered := .a
  algorithm := 15
  labels := 1
  originalTtl := 300
  expiration := 2000000000
  inception := 1700000000
  keyTag := 34002
  signer := owner
  signature :=
    [205, 222, 154, 154, 111, 51, 245, 80, 66, 8, 44, 189, 39, 217, 62, 68, 4, 102, 181, 208,
      161, 118, 215, 231, 34, 243, 251, 121, 28, 155, 240, 145, 120, 120, 25, 123, 79, 166, 34,
      75, 73, 145, 141, 126, 53, 230, 198, 193, 119, 37, 125, 72, 238, 169, 150, 162, 236, 230,
      48, 179, 0, 37, 85, 2]

def signatureRecord : ResourceRecord :=
  ⟨owner, .rrsig, 1, 300, .rrsig signature⟩

/-- The octets under the signature. -/
def octets : Octets :=
  [0, 1, 15, 1, 0, 0, 1, 44, 119, 53, 148, 0, 101, 83, 241, 0, 132, 210, 7, 101, 120, 97, 109,
    112, 108, 101, 0, 7, 101, 120, 97, 109, 112, 108, 101, 0, 0, 1, 0, 1, 0, 0, 1, 44, 0, 4, 192,
    0, 2, 1]

/-- A library with this signature; the other functions do not occur. -/
def openssl : OpenSsl where
  hash _ _ := none
  verifyRsa _ _ _ _ _ := false
  verifyEcdsa _ _ _ _ _ := false
  verifyEd25519 publicKey data octetsOfSignature :=
    publicKey == key.publicKey && data == octets && octetsOfSignature == signature.signature
  verifyEd448 _ _ _ := false

/-- A signature by a key without the Zone Key flag is accepted. -/
theorem accepted_without_zone_key : ¬ ∀ (openssl : OpenSsl)
    (records signatures keys : List ResourceRecord) (validationTime : UInt32)
    (limits : DnssecLimits) (verified : VerifiedRrset),
    verifyRrset openssl records signatures keys validationTime limits = .ok verified →
      SignedByZoneKey (verifySignature openssl) records signatures keys validationTime limits := by
  intro signed
  have accepted : (verifyRrset openssl [address] [signatureRecord] [keyRecord] 1800000000
      DnssecLimits.default).isOk = true := by
    rfl
  cases result : verifyRrset openssl [address] [signatureRecord] [keyRecord] 1800000000
      DnssecLimits.default with
  | error error =>
    rw [result] at accepted
    cases accepted
  | ok verified =>
    rcases signed _ _ _ _ _ _ verified result with
      ⟨first, -, sigRecord, -, signature, record, mem, other, isZoneKey, under⟩
    cases List.mem_singleton.mp mem
    have rdata_eq := under.keyRdata_eq
    cases rdata_eq
    exact isZoneKey (by decide)

end ExampleKey

end HnsDaneEngine.Dnssec
