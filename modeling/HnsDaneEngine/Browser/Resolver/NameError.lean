import HnsDaneEngine.Browser.Resolver.Denial

/-!
# Name errors from NSEC records

The resolver takes a name error for every ancestor whose wildcard child is
covered, whether or not that ancestor is the closest encloser.  Its answer is
wrong in two situations: the covering record leads below the request name, so
that the name is an empty non-terminal; or a wildcard exists at the closest
encloser while the wildcard of another ancestor is covered.
-/

namespace HnsDaneEngine.Browser.Resolver

open Browser.Dnssec TypeBitmap Wire

namespace NameErrorResolutionInput

variable (crypto : Crypto) (input : NameErrorResolutionInput) (now : Nat)

/-- The NSEC records of the response under the keys of the delegation. -/
def nsecRecords : SignedRecords :=
  ⟨input.delegation.owner, input.dnskeyRrset, (denialRecords input.response).nsecRrset,
    (denialRecords input.response).nsecRrsigRrset, now⟩

/-- The signature status of the NSEC3 records of the response as one set. -/
def nsec3Signature : Except DnssecError DnssecStatus :=
  validateRrsetSignature crypto input.delegation.owner input.dnskeyRrset
    (denialRecords input.response).nsec3Rrset (denialRecords input.response).nsec3RrsigRrset now

/-- The response has NSEC3 records and their signature check ends in an error. -/
def Nsec3Fails : Prop :=
  (denialRecords input.response).nsec3Rrset ≠ [] ∧
    ∃ error, input.nsec3Signature crypto now = .error error

/-- An ancestor whose wildcard child is covered, while the wildcard children of
the longer ancestors are not covered and meet no error. -/
structure NsecAcceptedAt (candidate : DnsName) : Prop where
  isCandidate : IsCandidate input.requestName input.delegation.owner candidate
  wildcard : (input.nsecRecords now).Covered crypto (star :: candidate.labels)
  longer : ∀ longer, isStrictSubdomain input.requestName longer = true →
    isStrictSubdomain longer candidate = true →
    ¬ (input.nsecRecords now).Covered crypto (star :: longer.labels) ∧
      ¬ (input.nsecRecords now).Fails crypto (star :: longer.labels) ∧
      ¬ input.Nsec3Fails crypto now

end NameErrorResolutionInput

namespace SystemDnssecVerifier

variable (verifier : SystemDnssecVerifier) (input : NameErrorResolutionInput)

/-- The keys of the delegation are authenticated, the request name is covered,
and so is the wildcard child of the candidate. -/
structure AcceptsNsecAt (now : Nat) (candidate : DnsName) : Prop where
  dnskeys : input.dnskeyRrset ≠ [] ∧ input.dnskeyRrsigRrset ≠ []
  trusts : verifier.Trusts input.material now
  covered : (input.nsecRecords now).Covered verifier.crypto input.requestName.labels
  acceptedAt : input.NsecAcceptedAt verifier.crypto now candidate

/-- A record with a secure status passes over the request name and leads below
it. -/
def SkipsRequestName (now : Nat) : Prop :=
  ∃ record ∈ (input.nsecRecords now).records, RecordSkips record input.requestName.labels ∧
    (input.nsecRecords now).status verifier.crypto record = .ok .secure

/-- The records are accepted at an ancestor although one of them leads below the
request name, or although the closest encloser is another ancestor and has a
wildcard. -/
def MisreadsNsec (zone : Zone Label) : Prop :=
  ∃ now candidate, verifier.AcceptsNsecAt input now candidate ∧
    (verifier.SkipsRequestName input now ∨
      ∃ encloser, zone.IsClosestEncloser input.requestName.labels encloser ∧
        encloser ≠ candidate.labels ∧ star :: encloser ∈ zone.owners)

end SystemDnssecVerifier

section

variable {verifier : SystemDnssecVerifier} {input : NameErrorResolutionInput} {now : Nat}
  {candidate : DnsName}

/-- The name-error check of one candidate in terms of covers: accepted when the
name and the wildcard child are covered, and refused without an error when one
of them is not and no check fails. -/
theorem nameErrorUnder_spec
    (wellFormed : ∀ record ∈ (input.nsecRecords now).records,
      ∃ nsec, NsecRecord.fromRecord record = .ok nsec)
    (unsigned : input.nsec3Signature verifier.crypto now ≠ .ok .secure)
    (strict : isStrictSubdomain input.requestName candidate = true) :
    (verifier.nameErrorUnder input.material
        ⟨denialRecords input.response, input.requestName, candidate⟩ now = .ok true ↔
      (input.nsecRecords now).Covered verifier.crypto input.requestName.labels ∧
        (input.nsecRecords now).Covered verifier.crypto (star :: candidate.labels)) ∧
    (verifier.nameErrorUnder input.material
        ⟨denialRecords input.response, input.requestName, candidate⟩ now = .ok false ↔
      ¬ ((input.nsecRecords now).Covered verifier.crypto input.requestName.labels ∧
          (input.nsecRecords now).Covered verifier.crypto (star :: candidate.labels)) ∧
        ¬ ((input.nsecRecords now).Fails verifier.crypto input.requestName.labels ∨
          (input.nsecRecords now).Covered verifier.crypto input.requestName.labels ∧
            (input.nsecRecords now).Fails verifier.crypto (star :: candidate.labels)) ∧
        ¬ input.Nsec3Fails verifier.crypto now) := by
  obtain ⟨suffix, ne⟩ := (isStrictSubdomain_iff _ _).mp strict
  obtain ⟨label, nextCloser⟩ := Zone.exists_nextCloser suffix ne
  obtain ⟨secure_iff, error_iff⟩ := SignedRecords.validateNsecNameError_spec verifier.crypto
    wellFormed nextCloser
  rw [← secure_iff, ← error_iff]
  let query : NameErrorQuery := ⟨denialRecords input.response, input.requestName, candidate⟩
  let nsec3Status := validateNsec3NameError verifier.crypto
    (SystemDnssecVerifier.nsec3NameErrorInput input.material query now)
  have nsec3_eq : query.nsec3Rrset ≠ [] →
      nsec3Status = input.nsec3Signature verifier.crypto now := by
    intro some_record
    exact validateNsec3NameError_of_not_secure some_record strict rfl unsigned
  have under_eq : verifier.nameErrorUnder input.material query now =
      SystemDnssecVerifier.tryDenials query.toDenialRecords (validateNsecNameError verifier.crypto
        ((input.nsecRecords now).nameErrorInput input.requestName candidate)) nsec3Status := rfl
  have some_nsec : ∀ {name}, (input.nsecRecords now).Covered verifier.crypto name ∨
      (input.nsecRecords now).Fails verifier.crypto name → query.nsecRrset ≠ [] := by
    rintro name (⟨record, mem, _⟩ | ⟨_, record, mem, _⟩)
    · exact List.ne_nil_of_mem mem
    · exact List.ne_nil_of_mem mem
  rw [under_eq, SystemDnssecVerifier.tryDenials_eq_true_iff,
    SystemDnssecVerifier.tryDenials_eq_false_iff]
  constructor
  · constructor
    · rintro (⟨_, secure⟩ | ⟨_, some_record, secure⟩)
      · exact secure
      · rw [nsec3_eq some_record] at secure
        exact absurd secure unsigned
    · intro secure
      exact .inl ⟨some_nsec (.inl (secure_iff.mp secure).1), secure⟩
  · rw [SystemDnssecVerifier.inconclusive_iff, SystemDnssecVerifier.inconclusive_iff, ← and_assoc]
    apply and_congr
    · constructor
      · intro inconclusive
        constructor
        · intro secure
          exact (inconclusive (some_nsec (.inl (secure_iff.mp secure).1))).1 secure
        · intro failed
          have some_record : query.nsecRrset ≠ [] := by
            rcases error_iff.mp failed with fails | ⟨covered, _⟩
            · exact some_nsec (.inr fails)
            · exact some_nsec (.inl covered)
          exact (inconclusive some_record).2 failed
      · exact fun inconclusive _ => inconclusive
    · constructor
      · rintro inconclusive ⟨some_record, failed⟩
        rw [← nsec3_eq some_record] at failed
        exact (inconclusive some_record).2 failed
      · intro notFailed some_record
        rw [nsec3_eq some_record]
        exact ⟨unsigned, fun failed => notFailed ⟨some_record, failed⟩⟩

end

/-- The request name is strictly below the zone, the NSEC records of the response
come from the chain of the zone, and its NSEC3 records, if any, are not signed by
a key of the zone. -/
structure IsNsecResponse (zone : Zone Label) (verifier : SystemDnssecVerifier)
    (input : NameErrorResolutionInput) : Prop where
  owner_eq : input.delegation.owner.labels = zone.apex
  below : isStrictSubdomain input.requestName input.delegation.owner = true
  genuine : ∀ record ∈ combinedResponseRecords input.response, record.recordType = .nsec →
    IsNsecRecord zone record
  unsigned : ∀ now, verifier.now = some now → input.nsec3Signature verifier.crypto now ≠ .ok .secure

namespace IsNsecResponse

variable {zone : Zone Label} {verifier : SystemDnssecVerifier} {input : NameErrorResolutionInput}
  (response : IsNsecResponse zone verifier input)

include response

theorem isNsecRecord {now : Nat} {record : ResourceRecord}
    (mem : record ∈ (input.nsecRecords now).records) : IsNsecRecord zone record := by
  rcases mem_recordsOfType.mp mem with ⟨recordMem, type_eq⟩
  exact response.genuine record recordMem type_eq

theorem wellFormed (now : Nat) : ∀ record ∈ (input.nsecRecords now).records,
    ∃ nsec, NsecRecord.fromRecord record = .ok nsec := by
  intro record mem
  rcases response.isNsecRecord mem with ⟨_, _, nsec, parsed, _⟩
  exact ⟨nsec, parsed⟩

/-- Once the request name is covered, the check of a candidate depends on its
wildcard child. -/
theorem validateNameError_spec {now : Nat} (trusts : verifier.Trusts input.material now)
    (covered : (input.nsecRecords now).Covered verifier.crypto input.requestName.labels)
    {candidate : DnsName} (strict : isStrictSubdomain input.requestName candidate = true) :
    (verifier.validateNameError input.material
        ⟨denialRecords input.response, input.requestName, candidate⟩ = .ok true ↔
      (input.nsecRecords now).Covered verifier.crypto (star :: candidate.labels)) ∧
    (verifier.validateNameError input.material
        ⟨denialRecords input.response, input.requestName, candidate⟩ = .ok false ↔
      ¬ (input.nsecRecords now).Covered verifier.crypto (star :: candidate.labels) ∧
        ¬ (input.nsecRecords now).Fails verifier.crypto (star :: candidate.labels) ∧
        ¬ input.Nsec3Fails verifier.crypto now) := by
  have spec := nameErrorUnder_spec (response.wellFormed now) (response.unsigned now trusts.1) strict
  have notFails : ¬ (input.nsecRecords now).Fails verifier.crypto input.requestName.labels :=
    fun fails => fails.1 covered
  rw [SystemDnssecVerifier.validateNameError, SystemDnssecVerifier.withDnskeys_of_trusts trusts]
  simpa only [covered, notFails, true_and, false_or] using spec

/-- A secure name error is exactly what the covers of the response allow. -/
theorem exists_secure_iff :
    (∃ answer, resolveSecureNameError verifier.toVerifier input = .ok answer ∧
        answer.secure = true) ↔
      ∃ now candidate, verifier.AcceptsNsecAt input now candidate := by
  simp only [resolveSecureNameError_eq_ok_iff response.below]
  constructor
  · rintro ⟨_, ⟨keys, _, candidate, isCandidate, accepted, refused⟩, _⟩
    rcases SystemDnssecVerifier.withDnskeys_eq_true_iff.mp accepted with ⟨now, trusts, checked⟩
    have covers := (nameErrorUnder_spec (response.wellFormed now)
      (response.unsigned now trusts.1) isCandidate.1).1.mp checked
    refine ⟨now, candidate, keys, trusts, covers.1, isCandidate, covers.2, ?_⟩
    intro longer strict above
    exact (response.validateNameError_spec trusts covers.1 strict).2.mp (refused longer strict above)
  · rintro ⟨now, candidate, accepts⟩
    have isCandidate := accepts.acceptedAt.isCandidate
    refine ⟨_, ⟨accepts.dnskeys, rfl, candidate, isCandidate, ?_, ?_⟩, rfl⟩
    · exact (response.validateNameError_spec accepts.trusts accepts.covered isCandidate.1).1.mpr
        accepts.acceptedAt.wildcard
    · intro longer strict above
      exact (response.validateNameError_spec accepts.trusts accepts.covered strict).2.mpr
        (accepts.acceptedAt.longer longer strict above)

/-- The zone denies a covered name unless the records lead below it or the
closest encloser has a wildcard.  An accepted candidate has no wildcard, so that
the closest encloser is then another ancestor. -/
theorem denies_iff_of_accepts {now : Nat} {candidate : DnsName}
    (accepts : verifier.AcceptsNsecAt input now candidate) :
    zone.Denies star input.requestName.labels ↔
      ¬ (verifier.SkipsRequestName input now ∨
        ∃ encloser, zone.IsClosestEncloser input.requestName.labels encloser ∧
          encloser ≠ candidate.labels ∧ star :: encloser ∈ zone.owners) := by
  have occurs_iff : zone.Occurs input.requestName.labels ↔ verifier.SkipsRequestName input now := by
    constructor
    · intro occurs
      rcases accepts.covered with ⟨record, mem, covers, secure⟩
      exact ⟨record, mem, ((response.isNsecRecord mem).occurs_iff covers).mp occurs, secure⟩
    · rintro ⟨record, mem, ⟨nsec, parsed, covers, below⟩, _⟩
      exact ((response.isNsecRecord mem).occurs_iff ⟨nsec, parsed, covers⟩).mpr
        ⟨nsec, parsed, covers, below⟩
  have noWildcard : star :: candidate.labels ∉ zone.owners := by
    rcases accepts.acceptedAt.wildcard with ⟨record, mem, covers, _⟩
    exact (response.isNsecRecord mem).notMem covers
  rw [Zone.denies_iff, occurs_iff, not_or, not_exists]
  apply and_congr_right
  intro _
  apply forall_congr'
  intro encloser
  constructor
  · rintro notMem ⟨closest, _, mem⟩
    exact notMem closest mem
  · intro notOther closest mem
    by_cases same : encloser = candidate.labels
    · exact noWildcard (same ▸ mem)
    · exact notOther ⟨closest, same, mem⟩

end IsNsecResponse

/-- For every response with NSEC records of the zone, a secure name error is
correct exactly when the records are not misread. -/
theorem resolveSecureNameError_denies_iff {zone : Zone Label} {verifier : SystemDnssecVerifier}
    {input : NameErrorResolutionInput} (response : IsNsecResponse zone verifier input) :
    ((∃ answer, resolveSecureNameError verifier.toVerifier input = .ok answer ∧
        answer.secure = true) → zone.Denies star input.requestName.labels) ↔
      ¬ verifier.MisreadsNsec input zone := by
  rw [response.exists_secure_iff]
  constructor
  · rintro denies ⟨now, candidate, accepts, misread⟩
    exact (response.denies_iff_of_accepts accepts).mp (denies ⟨now, candidate, accepts⟩) misread
  · rintro notMisread ⟨now, candidate, accepts⟩
    apply (response.denies_iff_of_accepts accepts).mpr
    exact fun misread => notMisread ⟨now, candidate, accepts, misread⟩

namespace WildcardZone

open ExampleKey

/-- `m.example.` -/
def host : DnsName :=
  ⟨[[109], [101, 120, 97, 109, 112, 108, 101]], by decide⟩

/-- `*.example.` -/
def wildcard : DnsName :=
  ⟨[star, [101, 120, 97, 109, 112, 108, 101]], by decide⟩

/-- `x.y.example.`, for which the wildcard answers. -/
def requested : DnsName :=
  ⟨[[120], [121], [101, 120, 97, 109, 112, 108, 101]], by decide⟩

def apexBits : Octets :=
  [0x22, 0, 0, 0, 0, 0x03, 0x80]

/-- NS, SOA, RRSIG, NSEC and DNSKEY. -/
def apexTypes : Blocks :=
  ⟨[⟨0, apexBits, by decide, by decide⟩], by simp⟩

def wildcardBits : Octets :=
  [0, 0, 0, 0, 0, 0x03, 0x08]

/-- RRSIG, NSEC and TLSA. -/
def wildcardTypes : Blocks :=
  ⟨[⟨0, wildcardBits, by decide, by decide⟩], by simp⟩

/-- A, RRSIG and NSEC. -/
def hostTypes : Blocks :=
  ⟨[⟨0, [0x40, 0, 0, 0, 0, 0x03], by decide, by decide⟩], by simp⟩

def zone : Zone Label where
  apex := apex.labels
  owners := {apex.labels, wildcard.labels, host.labels}
  types name code :=
    (name == apex.labels && apexTypes.has code) ||
      (name == wildcard.labels && wildcardTypes.has code) ||
      (name == host.labels && hostTypes.has code)
  apex_mem := by decide
  apex_suffix := by decide
  types_mem := by
    simp only [Bool.or_eq_true, Bool.and_eq_true, beq_iff_eq, Finset.mem_insert,
      Finset.mem_singleton, or_assoc]
    intro name code present
    exact present.imp And.left (Or.imp And.left And.left)

theorem types_host : zone.types host.labels = hostTypes.has := by
  have apex_ne : (host.labels == apex.labels) = false := by decide
  have wildcard_ne : (host.labels == wildcard.labels) = false := by decide
  funext code
  simp [zone, apex_ne, wildcard_ne]

/-- The last record of the chain, which leads back to the apex. -/
def hostNsec : Signed :=
  ⟨⟨host, .nsec, 1, 300, wireOf apex.labels ++ hostTypes.encode⟩,
    [43, 130, 2, 114, 131, 61, 77, 163, 160, 171, 67, 255, 63, 34, 100, 134, 104, 109, 26, 238, 140,
      5, 134, 28, 106, 69, 166, 167, 126, 5, 80, 145, 71, 115, 235, 189, 222, 212, 219, 143, 36, 14,
      156, 81, 253, 92, 132, 129, 115, 29, 79, 169, 117, 141, 213, 94, 156, 128, 99, 160, 210, 149,
      14, 2]⟩

theorem isNsecRecord_hostNsec : IsNsecRecord zone hostNsec.record :=
  ⟨rfl, rfl, ⟨apex, hostTypes.encode⟩, rfl, by decide, hostTypes, rfl, types_host.symm⟩

def input : NameErrorResolutionInput where
  delegation := delegation
  requestName := requested
  dsRrset := [ds]
  dnskeyRrset := [dnskey]
  dnskeyRrsigRrset := [signedDnskey.rrsig]
  response := response ⟨requested, .tlsa, 1⟩ 3 [hostNsec.record, hostNsec.rrsig]
  prefixRecords := []

/-- The system verifier with the signatures of the zone. -/
def system : SystemDnssecVerifier :=
  verifier (fun _ => List.replicate 20 0) [hostNsec]

theorem isNsecResponse : IsNsecResponse zone system input where
  owner_eq := rfl
  below := by decide
  genuine record mem type_eq := by
    have cases : record = hostNsec.record ∨ record = hostNsec.rrsig := by
      simpa [combinedResponseRecords, input, response] using mem
    rcases cases with rfl | rfl
    · exact isNsecRecord_hostNsec
    · contradiction
  unsigned now _ := by
    have empty : (denialRecords input.response).nsec3Rrset = [] := rfl
    simp [NameErrorResolutionInput.nsec3Signature, empty, validateRrsetSignature]

theorem not_denies : ¬ zone.Denies star requested.labels := by
  intro denied
  have nextCloser : [121] :: apex.labels <:+ requested.labels := by decide
  have absent : ¬ zone.Occurs ([121] :: apex.labels) := by
    unfold Zone.Occurs
    decide
  apply denied.2 wildcard.labels
  refine ⟨by decide, ?_, apex.labels, ?_, rfl⟩
  · intro occurs
    exact absent (occurs.of_suffix nextCloser)
  · exact Zone.isClosestEncloser_of_nextCloser zone.occurs_apex absent nextCloser

end WildcardZone

open WildcardZone in
theorem resolveSecureNameError_denies_iff_wildcard :
    IsNsecResponse zone system input ∧
      (((∃ answer, resolveSecureNameError system.toVerifier input = .ok answer ∧
          answer.secure = true) → zone.Denies star input.requestName.labels) ↔
        ¬ system.MisreadsNsec input zone) :=
  ⟨isNsecResponse, resolveSecureNameError_denies_iff isNsecResponse⟩

open WildcardZone in
/-- The last record covers the name and the wildcard child of its parent, and the
resolver asks for no more. -/
theorem resolveSecureNameError_wildcard :
    IsNsecResponse zone system input ∧
      (∀ record ∈ (input.nsecRecords 1800000000).records,
        (input.nsecRecords 1800000000).status system.crypto record = .ok .secure) ∧
      zone.Authoritative input.requestName.labels ∧
      resolveSecureNameError system.toVerifier input = .ok ⟨requested, [], true⟩ ∧
      ¬ zone.Denies star input.requestName.labels := by
  refine ⟨isNsecResponse, by decide, by decide, by decide, not_denies⟩

end HnsDaneEngine.Browser.Resolver
