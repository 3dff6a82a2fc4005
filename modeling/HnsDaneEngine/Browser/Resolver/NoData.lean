import HnsDaneEngine.Browser.Resolver.Denial

/-!
# No data at a zone cut

The no-data checks look at the query type and at CNAME in the bitmap of the
request name.  At a delegation point that record belongs to the parent and says
nothing about the types of the child, but neither check asks for NS without SOA.
-/

namespace HnsDaneEngine.Browser.Resolver

open Browser.Dnssec Control TypeBitmap Wire

/-- NSEC records of the request name pass when they verify and lack the type. -/
theorem validateNsecNoData_eq {crypto : Crypto} {zone : Zone Label}
    {input : NsecNoDataValidationInput} (some_record : input.nsecRrset ≠ [])
    (genuine : ∀ record ∈ input.nsecRrset, IsNsecRecord zone record ∧ record.name = input.queryName)
    (denied : deniesType (zone.types input.queryName.labels) input.queryType = true) :
    validateNsecNoData crypto input =
      validateRrsetSignature crypto input.signerName input.dnskeyRrset input.nsecRrset
        input.nsecRrsigRrset input.now := by
  rw [validateNsecNoData, nsecNoDataFrom_of_genuine some_record genuine, denied]
  cases validateRrsetSignature crypto input.signerName input.dnskeyRrset input.nsecRrset
      input.nsecRrsigRrset input.now with
  | error error => rfl
  | ok status => cases status <;> rfl

theorem deniesType_of_validateNsecNoData {crypto : Crypto} {zone : Zone Label}
    {input : NsecNoDataValidationInput} (some_record : input.nsecRrset ≠ [])
    (genuine : ∀ record ∈ input.nsecRrset, IsNsecRecord zone record ∧ record.name = input.queryName)
    (secure : validateNsecNoData crypto input = .ok .secure) :
    deniesType (zone.types input.queryName.labels) input.queryType = true := by
  rw [validateNsecNoData, nsecNoDataFrom_of_genuine some_record genuine] at secure
  by_contra notDenied
  rw [if_neg notDenied] at secure
  revert secure
  split <;> simp_all

section

variable {crypto : Crypto} {zone : Zone Label} {chain : SignedChain crypto zone}
  {name : List Label} {next : Octets}

theorem nsec3Hash_too_many {queryName : DnsName} {iterations : UInt16} {salt : Octets}
    (tooMany : nsec3MaxIterations < iterations) :
    nsec3Hash crypto queryName nsec3HashSha1 iterations salt = .error .invalidNsec3 := by
  rw [nsec3Hash, if_neg (by simp), if_pos tooMany]

/-- The no-data loop over the record of one listed name. -/
theorem nsec3NoDataFrom_singleton (listed : name ∈ chain.chain.names) (queryName : DnsName)
    (queryType : RecordType) :
    nsec3NoDataFrom crypto queryName queryType [⟨chain.nsec3 name next, chain.hash name⟩] =
        .ok .secure ↔
      chain.iterations ≤ nsec3MaxIterations ∧ chain.hash name = chain.hash queryName.labels ∧
        deniesType (zone.types name) queryType = true := by
  have lacks : lacksTypes (chain.nsec3 name next).hasType queryType =
      .ok (deniesType (zone.types name) queryType) :=
    lacksTypes_of_hasType (SignedChain.hasType_nsec3 listed) queryType
  simp only [nsec3NoDataFrom, nsec3MatchesName, testNameHash, SignedChain.isUsable_nsec3,
    Bool.not_true, Bool.false_eq_true, if_false, lacks]
  by_cases within : chain.iterations ≤ nsec3MaxIterations
  · have hash_ok : nsec3Hash crypto queryName (chain.nsec3 name next).hashAlgorithm
        (chain.nsec3 name next).iterations (chain.nsec3 name next).salt =
        .ok (chain.hash queryName.labels) := nsec3Hash_eq queryName within chain.salt
    rw [hash_ok]
    by_cases same : chain.hash name = chain.hash queryName.labels
    · cases denied : deniesType (zone.types name) queryType <;> simp [same, within]
    · have differs : (chain.hash name == chain.hash queryName.labels) = false := by simp [same]
      simp [differs, same]
  · have hash_error : nsec3Hash crypto queryName (chain.nsec3 name next).hashAlgorithm
        (chain.nsec3 name next).iterations (chain.nsec3 name next).salt =
        .error .invalidNsec3 := nsec3Hash_too_many (UInt16.not_le.mp within)
    rw [hash_error]
    simp [within]

/-- NSEC3 records pass when they verify as one set, so that there is only one of
them, and it is the record of the request name and lacks the type. -/
theorem validateNsec3NoData_eq_secure_iff (input : Nsec3NoDataValidationInput)
    (sha1Length : ∀ data, (crypto.sha1 data).length = 20)
    (apex_eq : input.signerName.labels = zone.apex)
    (genuine : ∀ record ∈ input.nsec3Rrset, chain.IsRecord record)
    (noCollision : ∀ other ∈ chain.chain.names,
      chain.hash other = chain.hash input.queryName.labels → other = input.queryName.labels) :
    validateNsec3NoData crypto input = .ok .secure ↔
      validateRrsetSignature crypto input.signerName input.dnskeyRrset input.nsec3Rrset
          input.nsec3RrsigRrset input.now = .ok .secure ∧
        chain.iterations ≤ nsec3MaxIterations ∧
        (∃ record ∈ input.nsec3Rrset, ∃ next,
          chain.IsRecordOf input.queryName.labels next record) ∧
        deniesType (zone.types input.queryName.labels) input.queryType = true := by
  by_cases secure : validateRrsetSignature crypto input.signerName input.dnskeyRrset
      input.nsec3Rrset input.nsec3RrsigRrset input.now = .ok .secure
  · rcases SignedChain.eq_singleton_of_secure genuine secure with ⟨record, records_eq⟩
    rcases genuine record (by simp [records_eq]) with ⟨name, next, isRecord⟩
    have signature : validateNsec3RrsetSignature crypto input.signerName input.dnskeyRrset
        input.nsec3Rrset input.nsec3RrsigRrset input.now = .ok .secure := by
      rw [validateNsec3RrsetSignature, if_neg (by simp [records_eq]), secure]
    have unfolded : validateNsec3NoData crypto input = nsec3NoDataFrom crypto input.queryName
        input.queryType [⟨chain.nsec3 name next, chain.hash name⟩] := by
      rw [validateNsec3NoData, signature, records_eq,
        isRecord.parseNsec3Proofs_singleton sha1Length apex_eq]
      rfl
    rw [unfolded, nsec3NoDataFrom_singleton isRecord.link.name_mem]
    constructor
    · rintro ⟨within, same, denied⟩
      have name_eq := noCollision name isRecord.link.name_mem same
      subst name_eq
      exact ⟨secure, within, ⟨record, by simp [records_eq], next, isRecord⟩, denied⟩
    · rintro ⟨_, within, ⟨other, mem, otherNext, otherIs⟩, denied⟩
      rw [records_eq, List.mem_singleton] at mem
      subst mem
      have name_eq := isRecord.name_unique otherIs rfl
      exact ⟨within, by rw [name_eq], by rwa [name_eq]⟩
  · constructor
    · intro accepted
      rw [validateNsec3NoData, validateNsec3RrsetSignature] at accepted
      by_cases empty : input.nsec3Rrset.isEmpty = true
      · simp [empty] at accepted
      · rw [if_neg empty] at accepted
        split at accepted <;> simp_all
    · exact fun accepted => absurd accepted.1 secure

end

namespace NoDataResolutionInput

variable (crypto : Crypto) (input : NoDataResolutionInput) (now : Nat)

/-- The signature status of the NSEC records of the request name. -/
def nsecSignature : Except DnssecError DnssecStatus :=
  validateRrsetSignature crypto input.delegation.owner input.dnskeyRrset input.query.nsecRrset
    input.query.nsecRrsigRrset now

/-- The signature status of all NSEC3 records of the response as one set. -/
def nsec3Signature : Except DnssecError DnssecStatus :=
  validateRrsetSignature crypto input.delegation.owner input.dnskeyRrset input.query.nsec3Rrset
    input.query.nsec3RrsigRrset now

/-- The input of the NSEC check. -/
def nsecNoData : NsecNoDataValidationInput :=
  ⟨input.delegation.owner, input.dnskeyRrset, input.requestName, input.qtype,
    input.query.nsecRrset, input.query.nsecRrsigRrset, now⟩

/-- The input of the NSEC3 check. -/
def nsec3NoData : Nsec3NoDataValidationInput :=
  ⟨input.delegation.owner, input.dnskeyRrset, input.requestName, input.qtype,
    input.query.nsec3Rrset, input.query.nsec3RrsigRrset, now⟩

end NoDataResolutionInput

/-- The denial records of the response come from the chains of the zone, and the
hash of no other listed name collides with that of the request name. -/
structure IsChainResponse (zone : Zone Label) (verifier : SystemDnssecVerifier)
    (chain : SignedChain verifier.crypto zone) (input : NoDataResolutionInput) : Prop where
  owner_eq : input.delegation.owner.labels = zone.apex
  nsec : ∀ record ∈ combinedResponseRecords input.response, record.recordType = .nsec →
    IsNsecRecord zone record
  nsec3 : ∀ record ∈ combinedResponseRecords input.response, record.recordType = .nsec3 →
    chain.IsRecord record
  sha1Length : ∀ data, (verifier.crypto.sha1 data).length = 20
  noCollision : ∀ name ∈ chain.chain.names,
    chain.hash name = chain.hash input.requestName.labels → name = input.requestName.labels

/-- The response proves something about the request name: its NSEC records
verify, or they do not decide and the NSEC3 record of the name verifies as the
only one. -/
def VerifiesRecordAt {zone : Zone Label} (verifier : SystemDnssecVerifier)
    (chain : SignedChain verifier.crypto zone) (input : NoDataResolutionInput) (now : Nat) :
    Prop :=
  (input.query.nsecRrset ≠ [] ∧ input.nsecSignature verifier.crypto now = .ok .secure) ∨
    (SystemDnssecVerifier.Inconclusive input.query.nsecRrset
        (input.nsecSignature verifier.crypto now) ∧
      input.nsec3Signature verifier.crypto now = .ok .secure ∧
      chain.iterations ≤ nsec3MaxIterations ∧
      ∃ record ∈ input.query.nsec3Rrset, ∃ next,
        chain.IsRecordOf input.requestName.labels next record)

namespace IsChainResponse

variable {zone : Zone Label} {verifier : SystemDnssecVerifier}
  {chain : SignedChain verifier.crypto zone} {input : NoDataResolutionInput}
  (response : IsChainResponse zone verifier chain input)

include response

theorem genuineNsec (now : Nat) : ∀ record ∈ (input.nsecNoData now).nsecRrset,
    IsNsecRecord zone record ∧ record.name = (input.nsecNoData now).queryName := by
  intro record mem
  rcases mem_recordsFor.mp mem with ⟨recordMem, name_eq, type_eq⟩
  exact ⟨response.nsec record recordMem type_eq, name_eq⟩

theorem validateNsec3NoData_iff (now : Nat) :
    validateNsec3NoData verifier.crypto (input.nsec3NoData now) = .ok .secure ↔
      input.nsec3Signature verifier.crypto now = .ok .secure ∧
        chain.iterations ≤ nsec3MaxIterations ∧
        (∃ record ∈ input.query.nsec3Rrset, ∃ next,
          chain.IsRecordOf input.requestName.labels next record) ∧
        deniesType (zone.types input.requestName.labels) input.qtype = true := by
  apply validateNsec3NoData_eq_secure_iff (input.nsec3NoData now) response.sha1Length
    response.owner_eq
  · intro record mem
    rcases mem_recordsOfType.mp mem with ⟨recordMem, type_eq⟩
    exact response.nsec3 record recordMem type_eq
  · exact response.noCollision

/-- A no-data check passes when the response proves something about the request
name and the types of the name lack the query type. -/
theorem noDataUnder_eq_true_iff (now : Nat) :
    verifier.noDataUnder input.material input.query now = .ok true ↔
      deniesType (zone.types input.requestName.labels) input.qtype = true ∧
        VerifiesRecordAt verifier chain input now := by
  have genuine := response.genuineNsec now
  have nsec3_iff := response.validateNsec3NoData_iff now
  -- With the type denied, the NSEC check is the signature check.
  have inconclusive_iff :
      deniesType (zone.types input.requestName.labels) input.qtype = true →
      (SystemDnssecVerifier.Inconclusive input.query.nsecRrset
          (validateNsecNoData verifier.crypto (input.nsecNoData now)) ↔
        SystemDnssecVerifier.Inconclusive input.query.nsecRrset
          (input.nsecSignature verifier.crypto now)) := by
    intro denied
    simp only [SystemDnssecVerifier.inconclusive_iff]
    apply forall_congr'
    intro some_record
    rw [validateNsecNoData_eq some_record genuine denied]
    rfl
  rw [SystemDnssecVerifier.noDataUnder, SystemDnssecVerifier.tryDenials_eq_true_iff]
  constructor
  · rintro (⟨some_record, secure⟩ | ⟨inconclusive, _, secure⟩)
    · have denied := deniesType_of_validateNsecNoData some_record genuine secure
      have signature : input.nsecSignature verifier.crypto now = .ok .secure :=
        (validateNsecNoData_eq some_record genuine denied).symm.trans secure
      exact ⟨denied, .inl ⟨some_record, signature⟩⟩
    · rcases nsec3_iff.mp secure with ⟨signature, within, matching, denied⟩
      exact ⟨denied, .inr ⟨(inconclusive_iff denied).mp inconclusive, signature, within, matching⟩⟩
  · rintro ⟨denied, ⟨some_record, secure⟩ | ⟨inconclusive, signature, within, matching⟩⟩
    · left
      exact ⟨some_record, (validateNsecNoData_eq some_record genuine denied).trans secure⟩
    · right
      refine ⟨(inconclusive_iff denied).mpr inconclusive, ?_,
        nsec3_iff.mpr ⟨signature, within, matching, denied⟩⟩
      rcases matching with ⟨record, mem, _⟩
      exact List.ne_nil_of_mem mem

end IsChainResponse

/-- The resolver takes the parent's record of a delegation point for an answer:
the keys of the delegation are authenticated, the response proves something about
the request name, and the types at the cut lack the query type. -/
structure AcceptsAtCut {zone : Zone Label} (verifier : SystemDnssecVerifier)
    (chain : SignedChain verifier.crypto zone) (input : NoDataResolutionInput) (now : Nat) :
    Prop where
  cut : zone.IsDelegation input.requestName.labels
  denied : deniesType (zone.types input.requestName.labels) input.qtype = true
  dnskeys : input.dnskeyRrset ≠ [] ∧ input.dnskeyRrsigRrset ≠ []
  trusts : verifier.Trusts input.material now
  verified : VerifiesRecordAt verifier chain input now

theorem resolveSecureNoData_eq_ok_iff {verifier : DelegatedDnssecVerifier}
    {input : NoDataResolutionInput} {answer : ResolutionAnswer} :
    resolveSecureNoData verifier input = .ok answer ↔
      (input.dnskeyRrset ≠ [] ∧ input.dnskeyRrsigRrset ≠ []) ∧
        verifier.validateNoData input.material input.query = .ok true ∧
        ⟨input.requestName, input.prefixRecords, true⟩ = answer := by
  rw [resolveSecureNoData, guard_eq_ok_iff, not_or, List.isEmpty_iff, List.isEmpty_iff]
  apply and_congr_right
  intro _
  cases verifier.validateNoData input.material input.query with
  | error error => simp
  | ok accepted => cases accepted <;> simp

/-- For every response with records of the zone's chains and every query type, a
secure no-data answer is not about a zone cut exactly when the resolver does not
accept the record of the cut. -/
theorem resolveSecureNoData_not_isDelegation_iff {zone : Zone Label}
    {verifier : SystemDnssecVerifier} {chain : SignedChain verifier.crypto zone}
    {input : NoDataResolutionInput} (response : IsChainResponse zone verifier chain input) :
    ((∃ answer, resolveSecureNoData verifier.toVerifier input = .ok answer ∧
        answer.secure = true) → ¬ zone.IsDelegation input.requestName.labels) ↔
      ¬ ∃ now, AcceptsAtCut verifier chain input now := by
  have secure_iff : (∃ answer, resolveSecureNoData verifier.toVerifier input = .ok answer ∧
      answer.secure = true) ↔
      (input.dnskeyRrset ≠ [] ∧ input.dnskeyRrsigRrset ≠ []) ∧
        ∃ now, verifier.Trusts input.material now ∧
          deniesType (zone.types input.requestName.labels) input.qtype = true ∧
          VerifiesRecordAt verifier chain input now := by
    simp only [resolveSecureNoData_eq_ok_iff, SystemDnssecVerifier.toVerifier,
      SystemDnssecVerifier.validateNoData, SystemDnssecVerifier.withDnskeys_eq_true_iff,
      response.noDataUnder_eq_true_iff]
    constructor
    · rintro ⟨_, ⟨dnskeys, accepted, _⟩, _⟩
      exact ⟨dnskeys, accepted⟩
    · rintro ⟨dnskeys, accepted⟩
      exact ⟨_, ⟨dnskeys, accepted, rfl⟩, rfl⟩
  rw [secure_iff]
  constructor
  · rintro sound ⟨now, accepts⟩
    exact sound ⟨accepts.dnskeys, now, accepts.trusts, accepts.denied, accepts.verified⟩ accepts.cut
  · rintro notAccepted ⟨dnskeys, now, trusts, denied, verified⟩ cut
    exact notAccepted ⟨now, cut, denied, dnskeys, trusts, verified⟩

namespace CutZone

open ExampleKey

/-- `sub.example.` -/
def sub : DnsName :=
  ⟨[[115, 117, 98], [101, 120, 97, 109, 112, 108, 101]], by decide⟩

def apexBits : Octets :=
  [0x22, 0, 0, 0, 0, 0x03, 0x80]

/-- NS, SOA, RRSIG, NSEC and DNSKEY. -/
def apexTypes : Blocks :=
  ⟨[⟨0, apexBits, by decide, by decide⟩], by simp⟩

/-- NS, RRSIG and NSEC. -/
def subTypes : Blocks :=
  ⟨[⟨0, [0x20, 0, 0, 0, 0, 0x03], by decide, by decide⟩], by simp⟩

def zone : Zone Label where
  apex := apex.labels
  owners := {apex.labels, sub.labels}
  types name code :=
    (name == apex.labels && apexTypes.has code) || (name == sub.labels && subTypes.has code)
  apex_mem := by decide
  apex_suffix := by decide
  types_mem _ _ := Zone.mem_pair_of_types

theorem types_sub : zone.types sub.labels = subTypes.has := by
  have ne : (sub.labels == apex.labels) = false := by decide
  funext code
  simp [zone, ne]

/-- The record of the delegation point. -/
def subNsec : Signed :=
  ⟨⟨sub, .nsec, 1, 300, wireOf apex.labels ++ subTypes.encode⟩,
    [244, 153, 233, 229, 115, 226, 64, 253, 35, 26, 171, 57, 132, 189, 199, 6, 191, 133, 166,
      230, 108, 114, 229, 161, 109, 255, 20, 116, 247, 217, 167, 180, 171, 70, 238, 199, 19, 89,
      34, 229, 22, 106, 107, 66, 246, 41, 54, 230, 30, 246, 76, 176, 85, 244, 103, 105, 192, 181,
      89, 102, 9, 255, 127, 1]⟩

theorem isNsecRecord_subNsec : IsNsecRecord zone subNsec.record :=
  ⟨rfl, rfl, ⟨apex, subTypes.encode⟩, rfl, by decide, subTypes, rfl, types_sub.symm⟩

def input : NoDataResolutionInput where
  delegation := delegation
  requestName := sub
  qtype := .a
  dsRrset := [ds]
  dnskeyRrset := [dnskey]
  dnskeyRrsigRrset := [signedDnskey.rrsig]
  response := response ⟨sub, .a, 1⟩ 0 [subNsec.record, subNsec.rrsig]
  prefixRecords := []

def system : SystemDnssecVerifier :=
  verifier (fun _ => List.replicate 20 0) [subNsec]

/-- The zone has no NSEC3 records. -/
def chain : SignedChain system.crypto zone where
  salt := []
  iterations := 0
  chain := ⟨∅, by simp, by simp⟩
  optOut _ := false
  blocks _ := subTypes
  salt_le := by simp
  blocks_has := by simp

theorem isChainResponse : IsChainResponse zone system chain input := by
  have cases : ∀ record ∈ combinedResponseRecords input.response,
      record = subNsec.record ∨ record = subNsec.rrsig := by
    simp [combinedResponseRecords, input, response]
  constructor
  · rfl
  · intro record mem type_eq
    rcases cases record mem with rfl | rfl
    · exact isNsecRecord_subNsec
    · contradiction
  · intro record mem type_eq
    rcases cases record mem with rfl | rfl
    · contradiction
    · contradiction
  · intro data
    exact List.length_replicate
  · intro name mem
    exact absurd mem (Finset.notMem_empty name)

end CutZone

open CutZone in
theorem resolveSecureNoData_not_isDelegation_iff_sub :
    IsChainResponse zone system chain input ∧
      (((∃ answer, resolveSecureNoData system.toVerifier input = .ok answer ∧
          answer.secure = true) → ¬ zone.IsDelegation input.requestName.labels) ↔
        ¬ ∃ now, AcceptsAtCut system chain input now) :=
  ⟨isChainResponse, resolveSecureNoData_not_isDelegation_iff isChainResponse⟩

open CutZone in
/-- The record of the delegation point is accepted as absence of addresses in the
child. -/
theorem resolveSecureNoData_sub :
    IsChainResponse zone system chain input ∧ input.qtype ≠ .ds ∧
      resolveSecureNoData system.toVerifier input = .ok ⟨sub, [], true⟩ ∧
      zone.IsDelegation input.requestName.labels :=
  ⟨isChainResponse, by decide, rfl, by decide⟩

end HnsDaneEngine.Browser.Resolver
