import HnsDaneEngine.Browser.Resolver.Denial

/-!
# Name errors from NSEC3 records

A name error takes a record that matches the closest encloser, one that covers
the name one label longer and one that covers the wildcard child.  In general
these are different records with different owners.  The resolver hands all NSEC3
records of the response to every part of the check, and every part checks their
signature as that of one set, so that only proofs of a single record pass.
-/

namespace HnsDaneEngine.Browser.Resolver

open Browser.Dnssec Control HnsDaneEngine.Order TypeBitmap Wire

/-! ## One record for every part -/

/-- Types that decide about names below their owner: no DNAME, and no NS without
SOA. -/
def authoritativeTypes (types : UInt16 → Bool) : Bool :=
  !types 39 && (!types RecordType.ns.code || types RecordType.soa.code)

theorem closestNsec3IsAuthoritative_of_hasType {nsec3 : Nsec3Record} {types : UInt16 → Bool}
    (hasType_eq : ∀ recordType, nsec3.hasType recordType = .ok (types recordType.code)) :
    closestNsec3IsAuthoritative nsec3 = .ok (authoritativeTypes types) := by
  simp only [closestNsec3IsAuthoritative, hasType_eq, bind, Except.bind, pure, Except.pure]
  have dname : (RecordType.unknown 39).code = 39 := rfl
  rw [dname, authoritativeTypes]
  cases types 39 <;> cases types RecordType.ns.code <;> rfl

theorem nsec3CoversHash_iff {ownerHash nextHash queryHash : Octets}
    (nextLength : ownerHash.length = nextHash.length)
    (queryLength : ownerHash.length = queryHash.length) :
    nsec3CoversHash ownerHash nextHash queryHash = true ↔
      CyclicBetween ownerHash nextHash queryHash := by
  by_cases equal : queryHash = ownerHash
  · subst equal
    simp only [nsec3CoversHash, true_or, if_true, Bool.false_eq_true, false_iff]
    exact not_cyclicBetween_self _ _
  · rw [nsec3CoversHash, if_neg (by simp [equal, nextLength, ← queryLength])]
    exact betweenByComparison_iff (bytesCmp_compares ownerHash nextHash)
      (bytesCmp_compares ownerHash queryHash) (bytesCmp_compares queryHash nextHash) equal

/-- The search in a single record with the expected parameters. -/
theorem findNsec3Proof_singleton {test : Nsec3ProofRecord → Except DnssecError Bool}
    {expected : Option Nsec3Record} {proof : Nsec3ProofRecord}
    (same : ∀ nsec3 ∈ expected, nsec3 = proof.nsec3) {passes : Bool}
    (test_ok : test proof = .ok passes) :
    findNsec3Proof test expected [proof] = .ok (if passes then some proof else none) := by
  have params : (expected.any fun nsec3 => !sameNsec3Params nsec3 proof.nsec3) = false := by
    cases expected with
    | none => rfl
    | some nsec3 => simp [same nsec3 rfl, sameNsec3Params]
  rw [findNsec3Proof, params, test_ok]
  cases passes <;> rfl

section

variable {crypto : Crypto} {zone : Zone Label} {chain : SignedChain crypto zone}
  {name : List Label} {next : Octets}

/-- The tests on the hash of a name, under the parameters of the chain. -/
theorem testNameHash_nsec3 (within : chain.iterations ≤ nsec3MaxIterations)
    (test : Octets → Bool) (queryName : DnsName) :
    testNameHash crypto test (chain.nsec3 name next) queryName =
      .ok (test (chain.hash queryName.labels)) := by
  have hash_ok : nsec3Hash crypto queryName (chain.nsec3 name next).hashAlgorithm
      (chain.nsec3 name next).iterations (chain.nsec3 name next).salt =
      .ok (chain.hash queryName.labels) := nsec3Hash_eq queryName within chain.salt
  rw [testNameHash, SignedChain.isUsable_nsec3, hash_ok]
  rfl

theorem findNsec3MatchingProof_singleton (within : chain.iterations ≤ nsec3MaxIterations)
    (queryName : DnsName) :
    findNsec3MatchingProof crypto [⟨chain.nsec3 name next, chain.hash name⟩] queryName none =
      .ok (if chain.hash name = chain.hash queryName.labels then
        some ⟨chain.nsec3 name next, chain.hash name⟩ else none) := by
  rw [findNsec3MatchingProof, findNsec3Proof_singleton (by simp)
    (testNameHash_nsec3 within _ queryName)]
  simp

theorem findNsec3CoveringProof_singleton (within : chain.iterations ≤ nsec3MaxIterations)
    (sha1Length : ∀ data, (crypto.sha1 data).length = 20) (nextLength : next.length = 20)
    (queryName : DnsName) :
    findNsec3CoveringProof crypto [⟨chain.nsec3 name next, chain.hash name⟩] queryName
        (some (chain.nsec3 name next)) =
      .ok (if CyclicBetween (chain.hash name) next (chain.hash queryName.labels) then
        some ⟨chain.nsec3 name next, chain.hash name⟩ else none) := by
  have hashLength : ∀ labels, (chain.hash labels).length = 20 :=
    SignedChain.length_hash sha1Length
  have covers_iff : nsec3CoversHash (chain.hash name) next (chain.hash queryName.labels) = true ↔
      CyclicBetween (chain.hash name) next (chain.hash queryName.labels) :=
    nsec3CoversHash_iff (by rw [hashLength, nextLength]) (by rw [hashLength, hashLength])
  rw [findNsec3CoveringProof, findNsec3Proof_singleton (by simp)
    (testNameHash_nsec3 within _ queryName)]
  exact congrArg Except.ok (if_congr covers_iff rfl rfl)

/-- The name one label below a strict ancestor. -/
theorem nextCloserName_of_suffix {queryName closestEncloser nextName : DnsName} {label : Label}
    (nextCloser : label :: closestEncloser.labels <:+ queryName.labels)
    (labels_eq : nextName.labels = label :: closestEncloser.labels) :
    nextCloserName queryName closestEncloser = .ok nextName := by
  have length_le := nextCloser.length_le
  rw [List.length_cons] at length_le
  have strict := isStrictSubdomain_of_nextCloser nextCloser
  have drop_eq : queryName.labels.drop
      (queryName.labels.length - (closestEncloser.labels.length + 1)) = nextName.labels := by
    rw [labels_eq]
    apply List.IsSuffix.eq_of_length _ _
    · apply List.suffix_of_suffix_length_le (List.drop_suffix _ _) nextCloser
      rw [List.length_drop, List.length_cons]
      omega
    · rw [List.length_drop, List.length_cons]
      omega
  simp only [nextCloserName, strict, Bool.not_true, Bool.false_eq_true, if_false, drop_eq,
    DnsName.fromAscii_joinLabels nextName.valid]

end

/-- The NSEC3 records of a query are the record of one listed name, which is
signed and has no opt-out flag. -/
structure IsSingleProof {crypto : Crypto} {zone : Zone Label} (chain : SignedChain crypto zone)
    (material : DnskeyMaterial) (query : NameErrorQuery) (now : Nat) (name : List Label)
    (next : Octets) (record : ResourceRecord) : Prop where
  within : chain.iterations ≤ nsec3MaxIterations
  sha1Length : ∀ data, (crypto.sha1 data).length = 20
  apex_eq : material.dnskeyOwner.labels = zone.apex
  isRecord : chain.IsRecordOf name next record
  noOptOut : chain.optOut name = false
  records_eq : query.nsec3Rrset = [record]
  signed : validateRrsetSignature crypto material.dnskeyOwner material.dnskeyRrset [record]
    query.nsec3RrsigRrset now = .ok .secure

namespace IsSingleProof

variable {crypto : Crypto} {zone : Zone Label} {chain : SignedChain crypto zone}
  {material : DnskeyMaterial} {query : NameErrorQuery} {now : Nat} {name : List Label}
  {next : Octets} {record : ResourceRecord} {label : Label}
  (single : IsSingleProof chain material query now name next record)
  (nextCloser : label :: query.closestEncloser.labels <:+ query.queryName.labels)

include single

theorem parseNsec3Proofs_eq : parseNsec3Proofs material.dnskeyOwner query.nsec3Rrset =
    .ok [⟨chain.nsec3 name next, chain.hash name⟩] := by
  rw [single.records_eq]
  exact single.isRecord.parseNsec3Proofs_singleton single.sha1Length single.apex_eq

theorem signature_eq : validateNsec3RrsetSignature crypto material.dnskeyOwner
    material.dnskeyRrset query.nsec3Rrset query.nsec3RrsigRrset now = .ok .secure := by
  rw [single.records_eq]
  exact single.signed

theorem findCovering_eq (queryName : DnsName) :
    findNsec3CoveringProof crypto [⟨chain.nsec3 name next, chain.hash name⟩] queryName
        (some (chain.nsec3 name next)) =
      .ok (if CyclicBetween (chain.hash name) next (chain.hash queryName.labels) then
        some ⟨chain.nsec3 name next, chain.hash name⟩ else none) :=
  findNsec3CoveringProof_singleton single.within single.sha1Length
    (single.isRecord.length_next single.sha1Length) queryName

theorem authoritative_eq : closestNsec3IsAuthoritative (chain.nsec3 name next) =
    .ok (authoritativeTypes (zone.types name)) :=
  closestNsec3IsAuthoritative_of_hasType (SignedChain.hasType_nsec3 single.isRecord.link.name_mem)

include nextCloser

theorem validateNsec3NextCloser_eq :
    validateNsec3NextCloser crypto (SystemDnssecVerifier.nsec3NameErrorInput material query
        now).toNsec3ClosestEncloserProofInput ⟨chain.nsec3 name next, chain.hash name⟩ =
      .ok (if CyclicBetween (chain.hash name) next
          (chain.hash (label :: query.closestEncloser.labels)) then
        .valid ⟨⟨chain.nsec3 name next, chain.hash name⟩, ⟨chain.nsec3 name next, chain.hash name⟩⟩
        else .status .bogus) := by
  have next_ok : nextCloserName query.queryName query.closestEncloser =
      .ok ⟨_, query.queryName.valid.of_suffix nextCloser⟩ :=
    nextCloserName_of_suffix nextCloser rfl
  simp only [validateNsec3NextCloser, SystemDnssecVerifier.nsec3NameErrorInput, next_ok,
    single.signature_eq, single.parseNsec3Proofs_eq, single.findCovering_eq, bind, Except.bind,
    pure, Except.pure]
  split <;> simp_all

/-- The closest-encloser part passes when the record matches the ancestor, has
authoritative types and covers the name one label longer. -/
theorem validateNsec3ClosestEncloserProof_eq :
    validateNsec3ClosestEncloserProof crypto (SystemDnssecVerifier.nsec3NameErrorInput material
        query now).toNsec3ClosestEncloserProofInput =
      .ok (if chain.hash name = chain.hash query.closestEncloser.labels ∧
          authoritativeTypes (zone.types name) = true ∧
          CyclicBetween (chain.hash name) next
            (chain.hash (label :: query.closestEncloser.labels)) then
        .valid ⟨⟨chain.nsec3 name next, chain.hash name⟩, ⟨chain.nsec3 name next, chain.hash name⟩⟩
        else .status .bogus) := by
  have strict : (!isStrictSubdomain query.queryName query.closestEncloser) = false := by
    rw [isStrictSubdomain_of_nextCloser nextCloser, Bool.not_true]
  have matching : findNsec3MatchingProof crypto [⟨chain.nsec3 name next, chain.hash name⟩]
      query.closestEncloser none = _ :=
    findNsec3MatchingProof_singleton single.within query.closestEncloser
  have nextCloser_eq := single.validateNsec3NextCloser_eq nextCloser
  simp only [SystemDnssecVerifier.nsec3NameErrorInput] at nextCloser_eq
  simp only [validateNsec3ClosestEncloserProof, SystemDnssecVerifier.nsec3NameErrorInput, strict,
    Bool.false_eq_true, if_false, single.signature_eq, single.parseNsec3Proofs_eq, matching, bind,
    Except.bind, pure, Except.pure]
  by_cases matches_ : chain.hash name = chain.hash query.closestEncloser.labels
  · simp only [matches_, if_true, true_and, single.authoritative_eq]
    cases authoritative : authoritativeTypes (zone.types name) with
    | false => simp
    | true => simpa [matches_] using nextCloser_eq
  · simp [matches_]

theorem validateNsec3Wildcard_eq :
    validateNsec3Wildcard crypto (SystemDnssecVerifier.nsec3NameErrorInput material query now)
        ⟨⟨chain.nsec3 name next, chain.hash name⟩, ⟨chain.nsec3 name next, chain.hash name⟩⟩ =
      .ok (if CyclicBetween (chain.hash name) next
          (chain.hash (star :: query.closestEncloser.labels)) then .secure else .bogus) := by
  have wildcard_ok : wildcardChild query.closestEncloser =
      .ok ⟨_, validDnsLabels_star_cons nextCloser⟩ :=
    wildcardChild_of_valid (validDnsLabels_star_cons nextCloser)
  simp only [validateNsec3Wildcard, SystemDnssecVerifier.nsec3NameErrorInput, wildcard_ok,
    single.signature_eq, single.parseNsec3Proofs_eq, single.findCovering_eq, bind, Except.bind,
    pure, Except.pure]
  by_cases covers : CyclicBetween (chain.hash name) next
      (chain.hash (star :: query.closestEncloser.labels))
  · simp [covers, SignedChain.isOptOut_nsec3, single.noOptOut]
  · simp [covers]

/-- A name error for a proposed ancestor passes when the record matches the
ancestor, has authoritative types and covers both names below it. -/
theorem validateNsec3NameError_eq :
    validateNsec3NameError crypto (SystemDnssecVerifier.nsec3NameErrorInput material query now) =
      .ok (if (chain.hash name = chain.hash query.closestEncloser.labels ∧
          authoritativeTypes (zone.types name) = true ∧
          CyclicBetween (chain.hash name) next
            (chain.hash (label :: query.closestEncloser.labels))) ∧
          CyclicBetween (chain.hash name) next (chain.hash (star :: query.closestEncloser.labels))
        then .secure else .bogus) := by
  rw [validateNsec3NameError, single.validateNsec3ClosestEncloserProof_eq nextCloser]
  simp only [bind, Except.bind, pure, Except.pure]
  by_cases closest : chain.hash name = chain.hash query.closestEncloser.labels ∧
      authoritativeTypes (zone.types name) = true ∧
      CyclicBetween (chain.hash name) next (chain.hash (label :: query.closestEncloser.labels))
  · have noOptOut : ¬ (chain.nsec3 name next).isOptOut = true := by
      rw [SignedChain.isOptOut_nsec3, single.noOptOut]
      exact Bool.false_ne_true
    rw [if_pos closest]
    dsimp only
    rw [if_neg noOptOut, single.validateNsec3Wildcard_eq nextCloser]
    exact congrArg Except.ok (if_congr (and_iff_right closest).symm rfl rfl)
  · rw [if_neg closest, if_neg fun both => closest both.1]

end IsSingleProof

/-! ## Responses with an RFC 5155 proof -/

theorem attemptDenial_ite {records : List ResourceRecord} (some_record : records ≠ [])
    {condition : Prop} [Decidable condition] :
    SystemDnssecVerifier.attemptDenial records
      (.ok (if condition then .secure else .bogus)) = .ok (decide condition) := by
  rw [SystemDnssecVerifier.attemptDenial, if_neg (by simpa using some_record)]
  by_cases holds : condition
  · rw [if_pos holds, decide_eq_true holds]
    rfl
  · rw [if_neg holds, decide_eq_false holds]
    rfl

/-- The record of some listed name passes over the hash of another name. -/
def PassesOver {crypto : Crypto} {zone : Zone Label} (chain : SignedChain crypto zone)
    (record : ResourceRecord) (labels : List Label) : Prop :=
  ∃ name next, chain.IsRecordOf name next record ∧
    CyclicBetween (chain.hash name) next (chain.hash labels)

/-- A response from a zone without opt-out whose NSEC3 records are those of RFC
5155 section 7.2.2, in any order: the record of the closest encloser, one that
passes over the name one label longer, so that this name does not exist, and one
that passes over the wildcard child.  Each record verifies with the signatures of
the response, and the keys of the delegation are authenticated. -/
structure IsNsec3Response {zone : Zone Label} (verifier : SystemDnssecVerifier)
    (chain : SignedChain verifier.crypto zone) (input : NameErrorResolutionInput) (now : Nat)
    (encloser : List Label) (closest nextCloser wildcard : ResourceRecord) : Prop where
  owner_eq : input.delegation.owner.labels = zone.apex
  dnskeys : input.dnskeyRrset ≠ [] ∧ input.dnskeyRrsigRrset ≠ []
  trusts : verifier.Trusts input.material now
  sha1Length : ∀ data, (verifier.crypto.sha1 data).length = 20
  within : chain.iterations ≤ nsec3MaxIterations
  noOptOut : ∀ name, chain.optOut name = false
  closest_is : ∃ next, chain.IsRecordOf encloser next closest
  nextCloser_passes : ∃ label, label :: encloser <:+ input.requestName.labels ∧
    PassesOver chain nextCloser (label :: encloser)
  wildcard_passes : PassesOver chain wildcard (star :: encloser)
  noNsec : (denialRecords input.response).nsecRrset = []
  nodup : (denialRecords input.response).nsec3Rrset.Nodup
  mem_iff : ∀ record, record ∈ (denialRecords input.response).nsec3Rrset ↔
    record = closest ∨ record = nextCloser ∨ record = wildcard
  signed : ∀ record ∈ (denialRecords input.response).nsec3Rrset,
    validateRrsetSignature verifier.crypto input.delegation.owner input.dnskeyRrset [record]
      (denialRecords input.response).nsec3RrsigRrset now = .ok .secure

namespace IsNsec3Response

variable {zone : Zone Label} {verifier : SystemDnssecVerifier}
  {chain : SignedChain verifier.crypto zone} {input : NameErrorResolutionInput} {now : Nat}
  {encloser : List Label} {closest nextCloser wildcard : ResourceRecord}
  (response : IsNsec3Response verifier chain input now encloser closest nextCloser wildcard)

include response

theorem isRecord {record : ResourceRecord}
    (mem : record ∈ (denialRecords input.response).nsec3Rrset) : chain.IsRecord record := by
  rcases response.closest_is with ⟨next, closestIs⟩
  rcases response.nextCloser_passes with ⟨_, _, nextName, nextNext, nextIs, _⟩
  rcases response.wildcard_passes with ⟨wildcardName, wildcardNext, wildcardIs, _⟩
  rcases (response.mem_iff record).mp mem with rfl | rfl | rfl
  · exact ⟨encloser, next, closestIs⟩
  · exact ⟨nextName, nextNext, nextIs⟩
  · exact ⟨wildcardName, wildcardNext, wildcardIs⟩

theorem below : isStrictSubdomain input.requestName input.delegation.owner = true := by
  rcases response.closest_is with ⟨next, closestIs⟩
  rcases response.nextCloser_passes with ⟨label, suffix, _⟩
  have inZone := (chain.chain.existing encloser closestIs.link.name_mem).1
  rw [← response.owner_eq] at inZone
  rw [isStrictSubdomain_iff]
  constructor
  · exact (inZone.trans (List.suffix_cons label encloser)).trans suffix
  · intro equal
    have lengths := suffix.length_le
    rw [List.length_cons, ← equal] at lengths
    exact absurd (inZone.length_le) (Nat.not_le.mpr lengths)

/-- Only the NSEC3 attempt decides. -/
theorem validateNameError_eq (candidate : DnsName) :
    verifier.validateNameError input.material
        ⟨denialRecords input.response, input.requestName, candidate⟩ =
      SystemDnssecVerifier.attemptDenial (denialRecords input.response).nsec3Rrset
        (validateNsec3NameError verifier.crypto (SystemDnssecVerifier.nsec3NameErrorInput
          input.material ⟨denialRecords input.response, input.requestName, candidate⟩ now)) := by
  rw [SystemDnssecVerifier.validateNameError,
    SystemDnssecVerifier.withDnskeys_of_trusts response.trusts]
  simp only [SystemDnssecVerifier.nameErrorUnder, SystemDnssecVerifier.tryDenials, response.noNsec]
  rfl

/-- A single record is the record of the closest encloser, with the two names
below the encloser in its interval. -/
theorem isSingleProof (candidate : DnsName)
    (records_eq : (denialRecords input.response).nsec3Rrset = [closest]) :
    ∃ next, IsSingleProof chain input.material
      ⟨denialRecords input.response, input.requestName, candidate⟩ now encloser next closest := by
  rcases response.closest_is with ⟨next, closestIs⟩
  refine ⟨next, response.within, response.sha1Length, response.owner_eq, closestIs,
    response.noOptOut encloser, records_eq, ?_⟩
  exact response.signed closest (by simp [records_eq])

theorem records_eq_iff : (denialRecords input.response).nsec3Rrset = [closest] ↔
    nextCloser = closest ∧ wildcard = closest := by
  constructor
  · intro records_eq
    have mem_iff := response.mem_iff
    simp only [records_eq, List.mem_singleton] at mem_iff
    constructor
    · exact (mem_iff nextCloser).mpr (.inr (.inl rfl))
    · exact (mem_iff wildcard).mpr (.inr (.inr rfl))
  · rintro ⟨rfl, rfl⟩
    apply List.perm_singleton.mp
    apply (List.perm_ext_iff_of_nodup response.nodup (List.nodup_singleton _)).mpr
    intro record
    rw [response.mem_iff, List.mem_singleton, or_self, or_self]

/-- The NSEC3 records of the response have a secure status as one set only when
there is one of them. -/
theorem records_eq_of_secure
    (secure : validateRrsetSignature verifier.crypto input.delegation.owner input.dnskeyRrset
      (denialRecords input.response).nsec3Rrset (denialRecords input.response).nsec3RrsigRrset
      now = .ok .secure) :
    (denialRecords input.response).nsec3Rrset = [closest] := by
  rcases SignedChain.eq_singleton_of_secure (fun _ mem => response.isRecord mem) secure with
    ⟨record, records_eq⟩
  have mem : closest ∈ (denialRecords input.response).nsec3Rrset :=
    (response.mem_iff closest).mpr (.inl rfl)
  rw [records_eq, List.mem_singleton] at mem
  rw [records_eq, mem]

/-- For a single record, the check of a candidate is decided without an error. -/
theorem validateNameError_of_single {candidate : DnsName}
    (records_eq : (denialRecords input.response).nsec3Rrset = [closest]) {label : Label}
    (suffix : label :: candidate.labels <:+ input.requestName.labels) :
    ∃ next, chain.IsRecordOf encloser next closest ∧ verifier.validateNameError input.material
        ⟨denialRecords input.response, input.requestName, candidate⟩ =
      .ok (decide ((chain.hash encloser = chain.hash candidate.labels ∧
        authoritativeTypes (zone.types encloser) = true ∧
        CyclicBetween (chain.hash encloser) next (chain.hash (label :: candidate.labels))) ∧
        CyclicBetween (chain.hash encloser) next (chain.hash (star :: candidate.labels)))) := by
  rcases response.isSingleProof candidate records_eq with ⟨next, single⟩
  refine ⟨next, single.isRecord, ?_⟩
  rw [response.validateNameError_eq, single.validateNsec3NameError_eq suffix]
  exact attemptDenial_ite (by simp [records_eq])

/-- A record that passes over a name, seen as the record of its own name. -/
theorem passes_of_eq {record : ResourceRecord} {labels : List Label} {next : Octets}
    (passes : PassesOver chain record labels) (record_eq : record = closest)
    (closestIs : chain.IsRecordOf encloser next closest) :
    CyclicBetween (chain.hash encloser) next (chain.hash labels) := by
  subst record_eq
  rcases passes with ⟨name, otherNext, isRecord, between⟩
  obtain rfl := isRecord.name_unique closestIs rfl
  rwa [isRecord.link.successor.next_unique closestIs.link.successor] at between

end IsNsec3Response

/-- For every such response, the name error is accepted exactly when one record
serves all three parts and the types of the closest encloser decide about names
below it. -/
theorem resolveSecureNameError_nsec3_iff {zone : Zone Label} {verifier : SystemDnssecVerifier}
    {chain : SignedChain verifier.crypto zone} {input : NameErrorResolutionInput} {now : Nat}
    {encloser : List Label} {closest nextCloser wildcard : ResourceRecord}
    (response : IsNsec3Response verifier chain input now encloser closest nextCloser wildcard) :
    (∃ answer, resolveSecureNameError verifier.toVerifier input = .ok answer ∧
        answer.secure = true) ↔
      (nextCloser = closest ∧ wildcard = closest) ∧
        authoritativeTypes (zone.types encloser) = true := by
  rw [← response.records_eq_iff]
  constructor
  · rintro ⟨answer, answer_ok, _⟩
    rw [resolveSecureNameError_eq_ok_iff response.below] at answer_ok
    rcases answer_ok with ⟨_, _, candidate, ⟨strict, _⟩, accepted, _⟩
    have attempted := (response.validateNameError_eq candidate).symm.trans accepted
    rcases SystemDnssecVerifier.attemptDenial_eq_true_iff.mp attempted with ⟨some_record, secure⟩
    have signature : validateRrsetSignature verifier.crypto input.delegation.owner
        input.dnskeyRrset (denialRecords input.response).nsec3Rrset
        (denialRecords input.response).nsec3RrsigRrset now = .ok .secure := by
      by_contra notSecure
      rw [validateNsec3NameError_of_not_secure some_record strict rfl notSecure] at secure
      exact notSecure secure
    have records_eq := response.records_eq_of_secure signature
    rcases (isStrictSubdomain_iff _ _).mp strict with ⟨suffix, ne⟩
    rcases Zone.exists_nextCloser suffix ne with ⟨label, labelSuffix⟩
    rcases response.validateNameError_of_single records_eq labelSuffix with ⟨next, _, checked⟩
    have decided := Except.ok.inj (checked.symm.trans accepted)
    exact ⟨records_eq, (of_decide_eq_true decided).1.2.1⟩
  · rintro ⟨records_eq, authoritative⟩
    rcases response.records_eq_iff.mp records_eq with ⟨nextCloser_eq, wildcard_eq⟩
    rcases response.nextCloser_passes with ⟨label, suffix, nextPasses⟩
    let closestName : DnsName :=
      ⟨encloser, input.requestName.valid.of_suffix ((List.suffix_cons label encloser).trans suffix)⟩
    have closestSuffix : label :: closestName.labels <:+ input.requestName.labels := suffix
    rcases response.validateNameError_of_single records_eq closestSuffix with
      ⟨next, closestIs, checked⟩
    have accepted : verifier.validateNameError input.material
        ⟨denialRecords input.response, input.requestName, closestName⟩ = .ok true := by
      rw [checked, decide_eq_true]
      exact ⟨⟨rfl, authoritative, response.passes_of_eq nextPasses nextCloser_eq closestIs⟩,
        response.passes_of_eq response.wildcard_passes wildcard_eq closestIs⟩
    refine ⟨_, resolveSecureNameError_of_total response.below response.dnskeys ?_
      ⟨isStrictSubdomain_of_nextCloser closestSuffix, ?_⟩ accepted, rfl⟩
    · intro candidate strict
      rcases (isStrictSubdomain_iff _ _).mp strict with ⟨candidateSuffix, ne⟩
      rcases Zone.exists_nextCloser candidateSuffix ne with ⟨nextLabel, nextSuffix⟩
      rcases response.validateNameError_of_single records_eq nextSuffix with ⟨_, _, checked⟩
      exact ⟨_, checked⟩
    · rw [response.owner_eq]
      exact (chain.chain.existing encloser closestIs.link.name_mem).1

/-! ## A proof of two records -/

namespace HashedZone

open ExampleKey

/-- `b.example.` -/
def host : DnsName :=
  ⟨[[98], [101, 120, 97, 109, 112, 108, 101]], by decide⟩

/-- `x.example.`, which does not exist. -/
def requested : DnsName :=
  ⟨[[120], [101, 120, 97, 109, 112, 108, 101]], by decide⟩

/-- NS, SOA, RRSIG, DNSKEY and NSEC3PARAM. -/
def apexTypes : Blocks :=
  ⟨[⟨0, [0x22, 0, 0, 0, 0, 0x02, 0x90], by decide, by decide⟩], by simp⟩

/-- A and RRSIG. -/
def hostTypes : Blocks :=
  ⟨[⟨0, [0x40, 0, 0, 0, 0, 0x02], by decide, by decide⟩], by simp⟩

def zone : Zone Label where
  apex := apex.labels
  owners := {apex.labels, host.labels}
  types name code :=
    (name == apex.labels && apexTypes.has code) || (name == host.labels && hostTypes.has code)
  apex_mem := by decide
  apex_suffix := by decide
  types_mem _ _ := Zone.mem_pair_of_types

def apexHash : Octets :=
  [29, 184, 239, 167, 220, 179, 72, 189, 167, 137, 63, 202, 29, 139, 173, 253, 182, 153, 107, 1]

def hostHash : Octets :=
  [88, 210, 242, 138, 130, 32, 72, 169, 116, 25, 102, 95, 60, 114, 11, 34, 248, 34, 207, 46]

def requestedHash : Octets :=
  [90, 92, 20, 222, 216, 103, 105, 212, 103, 232, 194, 58, 62, 149, 106, 175, 244, 205, 141, 226]

def wildcardHash : Octets :=
  [74, 102, 168, 231, 78, 113, 158, 37, 248, 23, 60, 138, 204, 242, 198, 202, 248, 110, 228, 5]

/-- SHA-1 on the wire forms of the names that the proof hashes. -/
def sha1 (data : Octets) : Octets :=
  if data = wireOf apex.labels then apexHash
  else if data = wireOf host.labels then hostHash
  else if data = wireOf requested.labels then requestedHash
  else if data = wireOf (star :: apex.labels) then wildcardHash
  else List.replicate 20 0

theorem sha1_length (data : Octets) : (sha1 data).length = 20 := by
  unfold sha1
  split_ifs <;> rfl

/-- The record of a name with the given hash and next hash. -/
def nsec3Record (hash next : Octets) (types : Blocks)
    (valid : ValidDnsLabels (Base32Hex.encode hash :: apex.labels)) : ResourceRecord where
  name := ⟨Base32Hex.encode hash :: apex.labels, valid⟩
  recordType := .nsec3
  class_ := 1
  ttl := 300
  rdata := nsec3Rdata false 0 [] next types.encode

/-- The record of the apex, which passes over the wildcard child. -/
def apexNsec3 : Signed :=
  ⟨nsec3Record apexHash hostHash apexTypes (by decide +kernel),
    [140, 185, 245, 122, 98, 175, 246, 108, 100, 158, 28, 134, 114, 135, 108, 253, 255, 130, 1, 19,
      150, 2, 47, 49, 86, 62, 68, 84, 225, 189, 234, 225, 19, 131, 102, 142, 140, 173, 142, 94, 166,
      141, 12, 83, 116, 76, 2, 111, 116, 84, 200, 23, 65, 198, 59, 165, 159, 222, 57, 190, 160, 212,
      59, 7]⟩

/-- The record of the host, which passes over the requested name. -/
def hostNsec3 : Signed :=
  ⟨nsec3Record hostHash apexHash hostTypes (by decide +kernel),
    [204, 62, 229, 71, 208, 222, 129, 140, 48, 168, 19, 69, 197, 42, 204, 55, 176, 21, 56, 42, 24,
      179, 106, 169, 233, 80, 147, 16, 255, 247, 0, 141, 195, 170, 236, 221, 49, 164, 63, 115, 139,
      185, 240, 88, 192, 64, 14, 121, 97, 241, 167, 253, 66, 138, 243, 33, 28, 126, 26, 55, 22, 159,
      171, 8]⟩

def system : SystemDnssecVerifier :=
  verifier sha1 [apexNsec3, hostNsec3]

theorem hashOf_apex : hashOf system.crypto [] 0 apex.labels = apexHash := by
  rfl

theorem hashOf_host : hashOf system.crypto [] 0 host.labels = hostHash := by
  rfl

/-- All existing names are listed. -/
def chain : SignedChain system.crypto zone where
  salt := []
  iterations := 0
  chain :=
    { names := {apex.labels, host.labels}
      existing := by
        intro name mem
        exact ⟨zone.apex_suffix name mem, Zone.occurs_of_mem mem⟩
      hash_inj := by
        intro first firstMem second secondMem value first_eq second_eq
        simp only [Finset.mem_insert, Finset.mem_singleton] at firstMem secondMem
        have ne : apexHash ≠ hostHash := by decide
        rcases firstMem with rfl | rfl <;> rcases secondMem with rfl | rfl <;>
          simp_all [hashOf_apex, hashOf_host] }
  optOut _ := false
  blocks name := if name = apex.labels then apexTypes else hostTypes
  salt_le := Nat.zero_le 255
  blocks_has := by
    intro name mem
    simp only [Finset.mem_insert, Finset.mem_singleton] at mem
    have ne : host.labels ≠ apex.labels := by decide
    funext code
    rcases mem with rfl | rfl
    · simp [zone, beq_eq_false_iff_ne.mpr ne.symm]
    · simp [zone, beq_eq_false_iff_ne.mpr ne, ne]

theorem mem_hashes_iff (hash : Octets) :
    hash ∈ chain.chain.hashes ↔ hash = apexHash ∨ hash = hostHash := by
  simp [Zone.HashChain.hashes, chain, hashOf_apex, hashOf_host, eq_comm]

theorem listed {name : List Label} (below : zone.apex <:+ name) (occurs : zone.Occurs name) :
    name ∈ chain.chain.names := by
  rcases occurs with ⟨owner, mem, suffix⟩
  have cases : owner = apex.labels ∨ owner = host.labels := by simpa [zone] using mem
  have belowApex : apex.labels <:+ name := below
  have name_eq : name = apex.labels ∨ name = host.labels := by
    rcases cases with rfl | rfl
    · exact .inl (suffix.eq_of_length_le belowApex.length_le)
    · rcases List.suffix_cons_iff.mp suffix with equal | above
      · exact .inr equal
      · exact .inl (above.eq_of_length_le belowApex.length_le)
  simpa [chain] using name_eq

theorem isLink_apex : chain.chain.IsLink false apex.labels apexHash hostHash where
  name_mem := by decide
  owner_eq := congrArg some hashOf_apex
  successor := by
    refine ⟨(mem_hashes_iff _).mpr (.inl rfl), (mem_hashes_iff _).mpr (.inr rfl), .inl ?_⟩
    simp only [mem_hashes_iff, forall_eq_or_imp, forall_eq]
    decide
  flagged _ _ below occurs unlisted := absurd (listed below occurs) unlisted

theorem isLink_host : chain.chain.IsLink false host.labels hostHash apexHash where
  name_mem := by decide
  owner_eq := congrArg some hashOf_host
  successor := by
    refine ⟨(mem_hashes_iff _).mpr (.inr rfl), (mem_hashes_iff _).mpr (.inl rfl), .inr ?_⟩
    simp only [mem_hashes_iff, forall_eq_or_imp, forall_eq]
    decide
  flagged _ _ below occurs unlisted := absurd (listed below occurs) unlisted

theorem hash_apex : chain.hash apex.labels = apexHash :=
  hashOf_apex

theorem hash_host : chain.hash host.labels = hostHash :=
  hashOf_host

theorem isRecordOf_apex : chain.IsRecordOf apex.labels hostHash apexNsec3.record := by
  refine ⟨rfl, rfl, ?_, ?_, rfl⟩
  · rw [hash_apex]
    exact isLink_apex
  · rw [hash_apex]
    rfl

theorem isRecordOf_host : chain.IsRecordOf host.labels apexHash hostNsec3.record := by
  refine ⟨rfl, rfl, ?_, ?_, rfl⟩
  · rw [hash_host]
    exact isLink_host
  · rw [hash_host]
    rfl

def input : NameErrorResolutionInput where
  delegation := delegation
  requestName := requested
  dsRrset := [ds]
  dnskeyRrset := [dnskey]
  dnskeyRrsigRrset := [signedDnskey.rrsig]
  response := response ⟨requested, .tlsa, 1⟩ 3
    [apexNsec3.record, apexNsec3.rrsig, hostNsec3.record, hostNsec3.rrsig]
  prefixRecords := []

theorem nsec3Rrset_eq :
    (denialRecords input.response).nsec3Rrset = [apexNsec3.record, hostNsec3.record] := by
  rfl

theorem isNsec3Response : IsNsec3Response system chain input 1800000000 apex.labels
    apexNsec3.record hostNsec3.record apexNsec3.record where
  owner_eq := rfl
  dnskeys := by decide
  trusts := by decide
  sha1Length := sha1_length
  within := by decide
  noOptOut _ := rfl
  closest_is := ⟨hostHash, isRecordOf_apex⟩
  nextCloser_passes :=
    ⟨[120], List.suffix_rfl, host.labels, apexHash, isRecordOf_host, by decide⟩
  wildcard_passes := ⟨apex.labels, hostHash, isRecordOf_apex, by decide⟩
  noNsec := by decide
  nodup := by decide
  mem_iff record := by
    rw [nsec3Rrset_eq, List.mem_pair]
    tauto
  signed := by decide

end HashedZone

open HashedZone in
theorem resolveSecureNameError_nsec3_iff_absent :
    IsNsec3Response system chain input 1800000000 zone.apex apexNsec3.record hostNsec3.record
        apexNsec3.record ∧
      ((∃ answer, resolveSecureNameError system.toVerifier input = .ok answer ∧
          answer.secure = true) ↔
        (hostNsec3.record = apexNsec3.record ∧ apexNsec3.record = apexNsec3.record) ∧
          authoritativeTypes (zone.types zone.apex) = true) :=
  ⟨isNsec3Response, resolveSecureNameError_nsec3_iff isNsec3Response⟩

open HashedZone in
/-- The two records of the proof have different owners, and the resolver refuses
them. -/
theorem resolveSecureNameError_nsec3_absent :
    IsNsec3Response system chain input 1800000000 zone.apex apexNsec3.record hostNsec3.record
        apexNsec3.record ∧
      (∀ name, zone.apex <:+ name → zone.Occurs name → name ∈ chain.chain.names) ∧
      zone.Denies star input.requestName.labels ∧
      authoritativeTypes (zone.types zone.apex) = true ∧
      resolveSecureNameError system.toVerifier input = .error .dnssecFailed := by
  refine ⟨isNsec3Response, fun _ => listed, ?_, by decide, rfl⟩
  have absent : ¬ zone.Occurs requested.labels := by
    unfold Zone.Occurs
    decide
  have noWildcard : ∀ owner ∈ zone.owners, owner.head? ≠ some star := by decide
  rw [Zone.denies_iff]
  exact ⟨absent, fun encloser _ mem => noWildcard _ mem rfl⟩

end HnsDaneEngine.Browser.Resolver
