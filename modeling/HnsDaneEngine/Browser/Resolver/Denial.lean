import HnsDaneEngine.Browser.Resolver.Verifier

/-!
# Denial answers of the browser resolver

For a name error the resolver does not know the closest encloser.  It proposes
every proper ancestor of the name within the zone to the verifier, the longest
one first, and accepts the first that passes; an error of the verifier ends the
search.
-/

namespace HnsDaneEngine.Browser.Resolver

open Browser.Dnssec Control Wire

def recordsFor (records : List ResourceRecord) (owner : DnsName) (recordType : RecordType) :
    List ResourceRecord :=
  records.filter fun record => record.name = owner ∧ record.recordType = recordType

def recordsOfType (records : List ResourceRecord) (recordType : RecordType) : List ResourceRecord :=
  records.filter fun record => record.recordType = recordType

variable {records : List ResourceRecord} {recordType : RecordType} {record : ResourceRecord}
  {validate : DnsName → Except ResolverError Bool} {answer : ResolutionAnswer} {name : DnsName}
  {verifier : DelegatedDnssecVerifier}

theorem mem_recordsFor {owner : DnsName} :
    record ∈ recordsFor records owner recordType ↔
      record ∈ records ∧ record.name = owner ∧ record.recordType = recordType := by
  simp [recordsFor]

theorem mem_recordsOfType :
    record ∈ recordsOfType records recordType ↔
      record ∈ records ∧ record.recordType = recordType := by
  simp [recordsOfType]

/-- The records of the answer and authority sections. -/
def combinedResponseRecords (response : DnsMessage) : List ResourceRecord :=
  response.answers ++ response.authorities

/-- What a no-data answer rests on. -/
structure NoDataResolutionInput where
  delegation : HnsDelegation
  requestName : DnsName
  qtype : RecordType
  dsRrset : List ResourceRecord
  dnskeyRrset : List ResourceRecord
  dnskeyRrsigRrset : List ResourceRecord
  response : DnsMessage
  prefixRecords : List ResourceRecord

def NoDataResolutionInput.material (input : NoDataResolutionInput) : DnskeyMaterial :=
  ⟨input.delegation.owner, input.dsRrset, input.dnskeyRrset, input.dnskeyRrsigRrset⟩

/-- NSEC records of the request name, and all NSEC3 records of the response. -/
def NoDataResolutionInput.query (input : NoDataResolutionInput) : NoDataQuery :=
  let proofRecords := combinedResponseRecords input.response
  { queryName := input.requestName
    queryType := input.qtype
    nsecRrset := recordsFor proofRecords input.requestName .nsec
    nsecRrsigRrset := recordsOfType proofRecords .rrsig
    nsec3Rrset := recordsOfType proofRecords .nsec3
    nsec3RrsigRrset := recordsOfType proofRecords .rrsig }

def resolveSecureNoData (verifier : DelegatedDnssecVerifier) (input : NoDataResolutionInput) :
    Except ResolverError ResolutionAnswer :=
  if input.dnskeyRrset.isEmpty ∨ input.dnskeyRrsigRrset.isEmpty then .error .dnssecFailed
  else
    match verifier.validateNoData input.material input.query with
    | .error error => .error error
    | .ok false => .error .dnssecFailed
    | .ok true => .ok ⟨input.requestName, input.prefixRecords, true⟩

/-- What a name error rests on. -/
structure NameErrorResolutionInput where
  delegation : HnsDelegation
  requestName : DnsName
  dsRrset : List ResourceRecord
  dnskeyRrset : List ResourceRecord
  dnskeyRrsigRrset : List ResourceRecord
  response : DnsMessage
  prefixRecords : List ResourceRecord

def NameErrorResolutionInput.material (input : NameErrorResolutionInput) : DnskeyMaterial :=
  ⟨input.delegation.owner, input.dsRrset, input.dnskeyRrset, input.dnskeyRrsigRrset⟩

/-- All denial records of the response. -/
def denialRecords (response : DnsMessage) : DenialRecords :=
  let proofRecords := combinedResponseRecords response
  { nsecRrset := recordsOfType proofRecords .nsec
    nsecRrsigRrset := recordsOfType proofRecords .rrsig
    nsec3Rrset := recordsOfType proofRecords .nsec3
    nsec3RrsigRrset := recordsOfType proofRecords .rrsig }

/-- `DnsName::from_ascii` of the labels from some position on. -/
def ancestorAt (name : DnsName) (start : Nat) : Except ResolverError DnsName :=
  match DnsName.fromAscii (joinLabels (name.labels.drop start)) with
  | .ok ancestor => .ok ancestor
  | .error _ => .error .invalidDnsResponse

/-- The proper ancestors of a name down to the zone owner, the longest one
first. -/
def closestEncloserCandidates (queryName zoneOwner : DnsName) :
    Except ResolverError (List DnsName) :=
  let queryLabels := queryName.labels
  let zoneLabels := zoneOwner.labels
  if queryLabels.length ≤ zoneLabels.length ∨ !zoneLabels.isSuffixOf queryLabels then .ok []
  else (List.range' 1 (queryLabels.length - zoneLabels.length)).mapM (ancestorAt queryName)

/-- The candidate loop of the name-error resolvers. -/
def tryCandidates (validate : DnsName → Except ResolverError Bool)
    (answer : ResolutionAnswer) : List DnsName → Except ResolverError ResolutionAnswer
  | [] => .error .dnssecFailed
  | candidate :: rest =>
    match validate candidate with
    | .error error => .error error
    | .ok true => .ok answer
    | .ok false => tryCandidates validate answer rest

def resolveSecureNameError (verifier : DelegatedDnssecVerifier)
    (input : NameErrorResolutionInput) : Except ResolverError ResolutionAnswer :=
  if input.dnskeyRrset.isEmpty ∨ input.dnskeyRrsigRrset.isEmpty then .error .dnssecFailed
  else
    match closestEncloserCandidates input.requestName input.delegation.owner with
    | .error error => .error error
    | .ok candidates =>
      tryCandidates
        (fun closestEncloser => verifier.validateNameError input.material
          ⟨denialRecords input.response, input.requestName, closestEncloser⟩)
        ⟨input.requestName, input.prefixRecords, true⟩ candidates

/-- The ancestor of a name at a label position. -/
def ancestor (name : DnsName) (start : Nat) : DnsName :=
  ⟨name.labels.drop start, name.valid.of_suffix (List.drop_suffix start name.labels)⟩

theorem ancestorAt_eq (name : DnsName) (start : Nat) :
    ancestorAt name start = .ok (ancestor name start) := by
  have valid := name.valid.of_suffix (List.drop_suffix start name.labels)
  rw [ancestorAt, DnsName.fromAscii_joinLabels valid]
  rfl

theorem closestEncloserCandidates_eq {queryName zoneOwner : DnsName}
    (below : isStrictSubdomain queryName zoneOwner = true) :
    closestEncloserCandidates queryName zoneOwner =
      .ok ((List.range' 1 (queryName.labels.length - zoneOwner.labels.length)).map
        (ancestor queryName)) := by
  simp only [isStrictSubdomain, Bool.and_eq_true, decide_eq_true_eq] at below
  unfold closestEncloserCandidates
  dsimp only
  rw [if_neg (by simp [below, Nat.not_le.mpr below.1]), funext (ancestorAt_eq queryName)]
  exact List.mapM_pure

/-- The candidate loop succeeds at the first candidate that passes, when all
candidates before it are refused without an error. -/
theorem tryCandidates_eq_ok_iff {result : ResolutionAnswer} {candidateAt : Nat → DnsName}
    (start count : Nat) :
    tryCandidates validate answer ((List.range' start count).map candidateAt) = .ok result ↔
      answer = result ∧ ∃ position, start ≤ position ∧ position < start + count ∧
        validate (candidateAt position) = .ok true ∧
        ∀ earlier, start ≤ earlier → earlier < position →
          validate (candidateAt earlier) = .ok false := by
  induction count generalizing start with
  | zero =>
    simp only [List.range'_zero, List.map_nil, tryCandidates, Nat.add_zero, reduceCtorEq, false_iff]
    rintro ⟨_, position, lower, upper, _⟩
    exact absurd lower (Nat.not_le.mpr upper)
  | succ count ih =>
    rw [List.range'_succ, List.map_cons, tryCandidates]
    -- A position after the first one requires the first candidate to be refused.
    have later : ∀ {position}, start ≤ position → position ≠ start →
        (∀ earlier, start ≤ earlier → earlier < position →
          validate (candidateAt earlier) = .ok false) →
        validate (candidateAt start) = .ok false ∧ start + 1 ≤ position := by
      intro position lower ne refused
      have after : start < position := lt_of_le_of_ne lower ne.symm
      exact ⟨refused start le_rfl after, after⟩
    cases checked : validate (candidateAt start) with
    | error error =>
      simp only [reduceCtorEq, false_iff]
      rintro ⟨_, position, lower, _, accepted, refused⟩
      by_cases first : position = start
      · rw [first, checked] at accepted
        contradiction
      · have firstRefused := (later lower first refused).1
        rw [checked] at firstRefused
        contradiction
    | ok accepts =>
      cases accepts with
      | true =>
        simp only [Except.ok.injEq]
        constructor
        · intro answer_eq
          refine ⟨answer_eq, start, le_rfl, by omega, checked, ?_⟩
          intro earlier lower before
          exact absurd lower (Nat.not_le.mpr before)
        · exact And.left
      | false =>
        simp only [ih (start + 1)]
        constructor
        · rintro ⟨answer_eq, position, lower, upper, accepted, refused⟩
          refine ⟨answer_eq, position, by omega, by omega, accepted, ?_⟩
          intro earlier earlierLower before
          by_cases first : earlier = start
          · rw [first, checked]
          · exact refused earlier (by omega) before
        · rintro ⟨answer_eq, position, lower, upper, accepted, refused⟩
          have ne : position ≠ start := by
            rintro rfl
            rw [checked] at accepted
            contradiction
          refine ⟨answer_eq, position, (later lower ne refused).2, by omega, accepted, ?_⟩
          intro earlier earlierLower before
          exact refused earlier (by omega) before

/-- The proper ancestors of a name within a zone. -/
def IsCandidate (queryName zoneOwner candidate : DnsName) : Prop :=
  isStrictSubdomain queryName candidate = true ∧ zoneOwner.labels <:+ candidate.labels

theorem exists_ancestor_of_isStrictSubdomain {above : DnsName}
    (strict : isStrictSubdomain name above = true) :
    ∃ start, 1 ≤ start ∧ start + above.labels.length = name.labels.length ∧
      ancestor name start = above := by
  rw [isStrictSubdomain_iff] at strict
  obtain ⟨start, positive, inside, drop_eq⟩ := Zone.exists_drop_of_suffix strict.1 strict.2
  refine ⟨start, positive, ?_, DnsName.ext_labels drop_eq⟩
  rw [← drop_eq, List.length_drop]
  omega

theorem isStrictSubdomain_ancestor {lower upper : Nat} (less : lower < upper)
    (inside : upper ≤ name.labels.length) :
    isStrictSubdomain (ancestor name lower) (ancestor name upper) = true := by
  rw [isStrictSubdomain_iff]
  constructor
  · exact List.drop_suffix_drop_left name.labels less.le
  · intro equal
    have lengths := congrArg List.length equal
    simp only [ancestor, List.length_drop] at lengths
    omega

theorem isStrictSubdomain_of_ancestor {start : Nat} (positive : 1 ≤ start)
    (inside : start ≤ name.labels.length) : isStrictSubdomain name (ancestor name start) = true :=
  isStrictSubdomain_ancestor positive inside

variable {input : NameErrorResolutionInput}

/-- With a name strictly below the zone, an answer comes from the longest
candidate that the verifier accepts, when it refuses all longer ones without an
error. -/
theorem resolveSecureNameError_eq_ok_iff
    (below : isStrictSubdomain input.requestName input.delegation.owner = true) :
    resolveSecureNameError verifier input = .ok answer ↔
      (input.dnskeyRrset ≠ [] ∧ input.dnskeyRrsigRrset ≠ []) ∧
      ⟨input.requestName, input.prefixRecords, true⟩ = answer ∧
      ∃ candidate, IsCandidate input.requestName input.delegation.owner candidate ∧
        verifier.validateNameError input.material
          ⟨denialRecords input.response, input.requestName, candidate⟩ = .ok true ∧
        ∀ longer, isStrictSubdomain input.requestName longer = true →
          isStrictSubdomain longer candidate = true →
          verifier.validateNameError input.material
            ⟨denialRecords input.response, input.requestName, longer⟩ = .ok false := by
  rw [resolveSecureNameError, guard_eq_ok_iff, closestEncloserCandidates_eq below]
  dsimp only
  rw [tryCandidates_eq_ok_iff, not_or, List.isEmpty_iff, List.isEmpty_iff]
  refine and_congr_right fun _ => and_congr_right fun _ => ?_
  constructor
  · rintro ⟨position, positive, upper, accepted, refused⟩
    have inside : position ≤ input.requestName.labels.length := by omega
    refine ⟨ancestor input.requestName position,
      ⟨isStrictSubdomain_of_ancestor positive inside, ?_⟩, accepted, ?_⟩
    · apply List.suffix_of_suffix_length_le ((isStrictSubdomain_iff _ _).mp below).1
        (List.drop_suffix _ _)
      rw [List.length_drop]
      omega
    · intro longer strict longerStrict
      obtain ⟨earlier, earlierPositive, length_eq, rfl⟩ :=
        exists_ancestor_of_isStrictSubdomain strict
      apply refused earlier earlierPositive
      simp only [isStrictSubdomain, ancestor, List.length_drop, Bool.and_eq_true,
        decide_eq_true_eq] at longerStrict
      omega
  · rintro ⟨candidate, ⟨strict, inZone⟩, accepted, refused⟩
    obtain ⟨start, positive, length_eq, rfl⟩ := exists_ancestor_of_isStrictSubdomain strict
    have zoneLength := inZone.length_le
    refine ⟨start, positive, by omega, accepted, ?_⟩
    intro earlier earlierPositive before
    apply refused
    · exact isStrictSubdomain_of_ancestor earlierPositive (by omega)
    · exact isStrictSubdomain_ancestor before (by omega)

/-- With no error at any candidate, one accepted candidate is enough. -/
theorem tryCandidates_of_total (answer : ResolutionAnswer) {candidates : List DnsName}
    (total : ∀ candidate ∈ candidates, ∃ accepted, validate candidate = .ok accepted)
    {candidate : DnsName} (mem : candidate ∈ candidates)
    (accepted : validate candidate = .ok true) :
    tryCandidates validate answer candidates = .ok answer := by
  induction candidates with
  | nil => contradiction
  | cons first rest ih =>
    rw [List.forall_mem_cons] at total
    obtain ⟨⟨firstAccepted, first_ok⟩, restTotal⟩ := total
    rw [tryCandidates, first_ok]
    cases firstAccepted with
    | true => rfl
    | false =>
      rcases List.mem_cons.mp mem with rfl | restMem
      · rw [accepted] at first_ok
        contradiction
      · exact ih restTotal restMem

theorem resolveSecureNameError_of_total
    (below : isStrictSubdomain input.requestName input.delegation.owner = true)
    (dnskeys : input.dnskeyRrset ≠ [] ∧ input.dnskeyRrsigRrset ≠ [])
    (total : ∀ candidate, isStrictSubdomain input.requestName candidate = true →
      ∃ accepted, verifier.validateNameError input.material
        ⟨denialRecords input.response, input.requestName, candidate⟩ = .ok accepted)
    {candidate : DnsName}
    (isCandidate : IsCandidate input.requestName input.delegation.owner candidate)
    (accepted : verifier.validateNameError input.material
      ⟨denialRecords input.response, input.requestName, candidate⟩ = .ok true) :
    resolveSecureNameError verifier input = .ok ⟨input.requestName, input.prefixRecords, true⟩ := by
  have present : ¬ (input.dnskeyRrset.isEmpty = true ∨ input.dnskeyRrsigRrset.isEmpty = true) := by
    rw [List.isEmpty_iff, List.isEmpty_iff]
    exact not_or.mpr dnskeys
  rw [resolveSecureNameError, if_neg present, closestEncloserCandidates_eq below]
  apply tryCandidates_of_total _ _ _ accepted
  · intro other mem
    obtain ⟨start, inRange, rfl⟩ := List.mem_map.mp mem
    have bounds := List.mem_range'_1.mp inRange
    exact total _ (isStrictSubdomain_of_ancestor bounds.1 (by omega))
  · obtain ⟨start, positive, length_eq, rfl⟩ := exists_ancestor_of_isStrictSubdomain isCandidate.1
    have zoneLength := isCandidate.2.length_le
    apply List.mem_map_of_mem
    rw [List.mem_range'_1]
    omega

/-- An NSEC3 set without a secure signature decides nothing. -/
theorem validateNsec3NameError_of_not_secure {crypto : Crypto}
    {input : Nsec3NameErrorValidationInput}
    {status : Except DnssecError DnssecStatus} (some_record : input.closestEncloserNsec3Rrset ≠ [])
    (strict : isStrictSubdomain input.queryName input.closestEncloser = true)
    (signature_eq : validateRrsetSignature crypto input.signerName input.dnskeyRrset
      input.closestEncloserNsec3Rrset input.closestEncloserNsec3RrsigRrset input.now = status)
    (notSecure : status ≠ .ok .secure) :
    validateNsec3NameError crypto input = status := by
  have signature : validateNsec3RrsetSignature crypto input.signerName input.dnskeyRrset
      input.closestEncloserNsec3Rrset input.closestEncloserNsec3RrsigRrset input.now = status := by
    rw [validateNsec3RrsetSignature, if_neg (by simpa using some_record), signature_eq]
  simp only [validateNsec3NameError, validateNsec3ClosestEncloserProof, strict, signature,
    Bool.not_true, Bool.false_eq_true, if_false]
  cases status with
  | error error => rfl
  | ok status =>
    cases status with
    | secure => contradiction
    | insecureDelegation => rfl
    | bogus => rfl

end HnsDaneEngine.Browser.Resolver
