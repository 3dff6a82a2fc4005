import HnsDaneEngine.Browser.Dnssec.Revocation
import HnsDaneEngine.Browser.Resolver.ErrorPriority

/-!
# Secure answers are verified paths

A secure answer is read as a path through the names of one zone: alias records,
each to the next name, and at the end a set of the asked type or a denial.  The
keys of the zone are those of the delegation or of a child zone whose DS set they
signed.  A pass over a target follows aliases only within the zone, and chooses
only child zones above the name, but it never compares the name it was asked for
with the delegation.
-/

namespace HnsDaneEngine.Browser.Resolver

open Browser.Dnssec Control Wire

/-! ## Keys of a zone -/

/-- What the answers of a pass are verified with: the keys of the delegation, or
those of a child zone. -/
inductive ZoneKeys
  | parent (material : DnskeyMaterial)
  | child (material : ChildDnskeyMaterial)

/-- The DS set of the child is signed with the keys of the parent, and these are
signed with keys that the DS set of the parent authenticates. -/
structure SystemDnssecVerifier.VerifiesDs (system : SystemDnssecVerifier)
    (material : ChildDnskeyMaterial) (now : Nat) : Prop where
  time : system.now = some now
  parentKeys : ∃ keys, dsAuthenticatedDnskeys system.crypto material.parent.dnskeyOwner
      material.parent.dsRrset material.parent.dnskeyRrset = .ok (.secure, keys) ∧
    validateRrsetSignature system.crypto material.parent.dnskeyOwner keys
      material.parent.dnskeyRrset material.parent.dnskeyRrsigRrset now = .ok .secure
  childDs : validateRrsetSignature system.crypto material.parent.dnskeyOwner
    material.parent.dnskeyRrset material.child.dsRrset material.childDsRrsigRrset now = .ok .secure

namespace ZoneKeys

def zone : ZoneKeys → DnsName
  | .parent material => material.dnskeyOwner
  | .child material => material.child.dnskeyOwner

def validateRrset (verifier : DelegatedDnssecVerifier) :
    ZoneKeys → PositiveRrset → Except ResolverError Bool
  | .parent material => verifier.validatePositiveRrset material
  | .child material => verifier.validateChildPositiveRrset material

def validateNoData (verifier : DelegatedDnssecVerifier) :
    ZoneKeys → NoDataQuery → Except ResolverError Bool
  | .parent material => verifier.validateNoData material
  | .child material => verifier.validateChildNoData material

def validateNameError (verifier : DelegatedDnssecVerifier) :
    ZoneKeys → NameErrorQuery → Except ResolverError Bool
  | .parent material => verifier.validateNameError material
  | .child material => verifier.validateChildNameError material

variable (verifier : DelegatedDnssecVerifier) (keys : ZoneKeys)

/-- The verifier accepts the set with signatures of its owner. -/
def Accepts (owner : DnsName) (rrset : List ResourceRecord) : Prop :=
  ∃ rrsigRrset, rrsigRrset ≠ [] ∧
    (∀ record ∈ rrsigRrset, record.name = owner ∧ record.recordType = .rrsig) ∧
    keys.validateRrset verifier ⟨rrset, rrsigRrset⟩ = .ok true

/-- The verifier accepts a denial of the type or of the name. -/
def Denies (owner : DnsName) (qtype : RecordType) : Prop :=
  (∃ query, query.queryName = owner ∧ query.queryType = qtype ∧
    keys.validateNoData verifier query = .ok true) ∨
  ∃ query, query.queryName = owner ∧ keys.validateNameError verifier query = .ok true

/-- The zone of the keys is that of the delegation, or lies strictly below it and
at or above the asked name, with a DS set of its own. -/
def Placed (question : DelegatedQuestion) : ZoneKeys → Prop
  | .parent material =>
    material.dnskeyOwner = question.delegation.owner ∧ material.dsRrset = question.dsRrset
  | .child material =>
    material.parent.dnskeyOwner = question.delegation.owner ∧
    material.parent.dsRrset = question.dsRrset ∧
    material.child.dnskeyOwner ≠ question.delegation.owner ∧
    dnsNameIsSubdomainOrEqual material.child.dnskeyOwner question.delegation.owner = true ∧
    dnsNameIsSubdomainOrEqual question.requestName material.child.dnskeyOwner = true ∧
    material.child.dsRrset ≠ [] ∧
    ∀ record ∈ material.child.dsRrset,
      record.name = material.child.dnskeyOwner ∧ record.recordType = .ds

/-- Under the system verifier, the DS set of a child zone is verified by the keys
of the delegation. -/
def DsVerified : ZoneKeys → Prop
  | .parent _ => True
  | .child material =>
    ∀ system : SystemDnssecVerifier, verifier = system.toVerifier →
      ∃ now, system.VerifiesDs material now

end ZoneKeys

/-! ## Verified paths -/

/-- The records are aliases, one for each name of a path, and then a set of the
asked type or nothing.  Every name lies in the zone of the keys, and the verifier
accepts every set and the final denial. -/
inductive VerifiedPath (verifier : DelegatedDnssecVerifier) (keys : ZoneKeys)
    (qtype : RecordType) : DnsName → List ResourceRecord → Prop
  | answer {owner : DnsName} {rrset : List ResourceRecord}
      (inZone : dnsNameIsSubdomainOrEqual owner keys.zone = true) (nonempty : rrset ≠ [])
      (typed : ∀ record ∈ rrset, record.name = owner ∧ record.recordType = qtype)
      (accepted : keys.Accepts verifier owner rrset) : VerifiedPath verifier keys qtype owner rrset
  | denial {owner : DnsName} (inZone : dnsNameIsSubdomainOrEqual owner keys.zone = true)
      (denied : keys.Denies verifier owner qtype) : VerifiedPath verifier keys qtype owner []
  | cname {owner target : DnsName} {record : ResourceRecord} {rest : List ResourceRecord}
      (inZone : dnsNameIsSubdomainOrEqual owner keys.zone = true)
      (typed : record.name = owner ∧ record.recordType = .cname)
      (target_eq : recordNameRdata record = some target)
      (accepted : keys.Accepts verifier owner [record])
      (next : VerifiedPath verifier keys qtype target rest) :
      VerifiedPath verifier keys qtype owner (record :: rest)

/-- The records are a verified path from the asked name, under keys that belong
to the delegation. -/
def SecurePath (verifier : DelegatedDnssecVerifier) (question : DelegatedQuestion)
    (records : List ResourceRecord) : Prop :=
  ∃ keys : ZoneKeys, keys.Placed question ∧ keys.DsVerified verifier ∧
    VerifiedPath verifier keys question.qtype question.requestName records

variable {verifier : DelegatedDnssecVerifier} {keys : ZoneKeys} {records : List ResourceRecord}
  {requestName signer : DnsName} {delegation : HnsDelegation} {recordType : RecordType}
  {owner : DnsName} {qtype : RecordType}

theorem VerifiedPath.inZone (path : VerifiedPath verifier keys qtype owner records) :
    dnsNameIsSubdomainOrEqual owner keys.zone = true := by
  cases path with
  | answer inZone => exact inZone
  | denial inZone => exact inZone
  | cname inZone => exact inZone

theorem dnsNameIsSubdomainOrEqual_trans {name middle parent : DnsName}
    (lower : dnsNameIsSubdomainOrEqual name middle = true)
    (upper : dnsNameIsSubdomainOrEqual middle parent = true) :
    dnsNameIsSubdomainOrEqual name parent = true := by
  rw [dnsNameIsSubdomainOrEqual, List.isSuffixOf_iff_suffix] at *
  exact upper.trans lower

/-- The zone of placed keys is at or below the delegation. -/
theorem ZoneKeys.Placed.zone_below {question : DelegatedQuestion} (placed : keys.Placed question) :
    dnsNameIsSubdomainOrEqual keys.zone question.delegation.owner = true := by
  cases keys with
  | parent material =>
    rw [zone, placed.1, dnsNameIsSubdomainOrEqual, List.isSuffixOf_iff_suffix]
  | child material => exact placed.2.2.2.1

theorem SecurePath.requestName_below {question : DelegatedQuestion}
    (path : SecurePath verifier question records) :
    dnsNameIsSubdomainOrEqual question.requestName question.delegation.owner = true := by
  obtain ⟨keys, placed, -, path⟩ := path
  exact dnsNameIsSubdomainOrEqual_trans path.inZone placed.zone_below

/-! ## The DS set of a child zone -/

namespace SystemDnssecVerifier

variable {system : SystemDnssecVerifier} {material : ChildDnskeyMaterial}

theorem currentTime_eq_ok {now : Nat} (time : system.currentTime = .ok now) :
    system.now = some now := by
  unfold currentTime at time
  split at time
  next now now_eq => rw [now_eq, Except.ok.inj time]
  next => cases time

theorem orDnssecFailed_eq_ok {α : Type} {result : Except DnssecError α} {value : α}
    (mapped : orDnssecFailed result = .ok value) : result = .ok value := by
  cases result with
  | error error => cases mapped
  | ok value => rw [Except.ok.inj mapped]

/-- The keys of the parent in a secure chain that starts with them. -/
theorem parentKeys_of_chain {input : DnssecChainValidationInput} {crypto : Crypto}
    (secure : validateDnssecChain crypto input = .ok .secure) :
    ∃ keys, dsAuthenticatedDnskeys crypto input.initialDnskeyOwner input.initialDsRrset
        input.initialDnskeyRrset = .ok (.secure, keys) ∧
      validateRrsetSignature crypto input.initialDnskeyOwner keys input.initialDnskeyRrset
        input.initialDnskeyRrsigRrset input.now = .ok .secure := by
  obtain ⟨delegations, checks⟩ := DnssecChainValidationInput.validateDnssecChain_eq_secure secure
  obtain ⟨keys, keys_eq⟩ := delegations _ List.mem_cons_self
  have checked := checks _ List.mem_cons_self
  rw [Delegation.keys_eq keys_eq] at checked
  exact ⟨keys, keys_eq, checked⟩

theorem verifiesDs_of_positive {answer : PositiveRrset}
    (accepted : system.validateChildPositiveRrset material answer = .ok true) :
    ∃ now, system.VerifiesDs material now := by
  obtain ⟨now, time, accepted⟩ := of_bind_ok accepted
  obtain ⟨status, status_eq, accepted⟩ := of_bind_ok accepted
  obtain rfl : status = .secure := by simpa [pure, Except.pure] using accepted
  have secure := orDnssecFailed_eq_ok status_eq
  obtain ⟨-, checks⟩ := DnssecChainValidationInput.validateDnssecChain_eq_secure secure
  refine ⟨now, currentTime_eq_ok time, parentKeys_of_chain secure, ?_⟩
  exact checks ⟨material.parent.dnskeyOwner, material.parent.dnskeyRrset, material.child.dsRrset,
    material.childDsRrsigRrset⟩ (List.mem_cons_of_mem _ List.mem_cons_self)

theorem verifiesDs_of_denial {check : Nat → Except ResolverError Bool}
    (accepted : system.withChildDnskeys material check = .ok true) :
    ∃ now, system.VerifiesDs material now := by
  obtain ⟨now, time, accepted⟩ := of_bind_ok accepted
  obtain ⟨parentStatus, parent_eq, accepted⟩ := of_bind_ok accepted
  split at accepted
  next => cases accepted
  next parentSecure =>
    obtain rfl := not_not.mp parentSecure
    obtain ⟨dsStatus, ds_eq, accepted⟩ := of_bind_ok accepted
    split at accepted
    next => cases accepted
    next dsSecure =>
      obtain rfl := not_not.mp dsSecure
      have chained := orDnssecFailed_eq_ok parent_eq
      rw [dnskeyStatus, validateSignedRrset_eq_validateDnssecChain] at chained
      exact ⟨now, currentTime_eq_ok time, parentKeys_of_chain chained, orDnssecFailed_eq_ok ds_eq⟩

end SystemDnssecVerifier

variable {rrset : List ResourceRecord}

namespace ZoneKeys

theorem dsVerified_of_accepts
    (accepts : keys.Accepts verifier owner rrset) : keys.DsVerified verifier := by
  obtain ⟨rrsigRrset, -, -, accepted⟩ := accepts
  cases keys with
  | parent material => trivial
  | child material =>
    rintro system rfl
    exact SystemDnssecVerifier.verifiesDs_of_positive accepted

theorem dsVerified_of_denies
    (denies : keys.Denies verifier owner qtype) : keys.DsVerified verifier := by
  cases keys with
  | parent material => trivial
  | child material =>
    rintro system rfl
    rcases denies with ⟨query, -, -, accepted⟩ | ⟨query, -, accepted⟩
    · exact SystemDnssecVerifier.verifiesDs_of_denial accepted
    · exact SystemDnssecVerifier.verifiesDs_of_denial accepted

end ZoneKeys

theorem VerifiedPath.dsVerified
    (path : VerifiedPath verifier keys qtype owner records) : keys.DsVerified verifier := by
  cases path with
  | answer _ _ _ accepted => exact ZoneKeys.dsVerified_of_accepts accepted
  | denial _ denied => exact ZoneKeys.dsVerified_of_denies denied
  | cname _ _ _ accepted => exact ZoneKeys.dsVerified_of_accepts accepted

/-! ## Following aliases -/

theorem requireSecure_eq_ok {verdict : Except ResolverError Bool} {value : Unit}
    (required : requireSecure verdict = .ok value) : verdict = .ok true := by
  match verdict, required with
  | .ok true, _ => rfl

theorem cnameTarget_eq_ok {cnameRrset : List ResourceRecord} {target : DnsName}
    (target_eq : cnameTarget cnameRrset = .ok target) :
    ∃ record, cnameRrset = [record] ∧ recordNameRdata record = some target := by
  unfold cnameTarget at target_eq
  split at target_eq
  next record =>
    split at target_eq
    next => cases target_eq
    next =>
      split at target_eq
      next name name_eq =>
        obtain rfl := Except.ok.inj target_eq
        exact ⟨record, rfl, name_eq⟩
      next => cases target_eq
  next => cases target_eq

/-- The rules of a loop verify with the keys of one zone. -/
structure AnswerRules.Verify {σ : Type} (rules : AnswerRules σ)
    (verifier : DelegatedDnssecVerifier) (keys : ZoneKeys) : Prop where
  zone_eq : rules.zoneOwner = keys.zone
  validateRrset_eq : rules.validateRrset = keys.validateRrset verifier
  nameError_denies : ∀ {owner response cnameRecords answer},
    rules.nameError owner response cnameRecords = .ok answer →
      answer.records = cnameRecords ∧ keys.Denies verifier owner rules.qtype
  noData_denies : ∀ {owner response cnameRecords answer},
    rules.noData owner response cnameRecords = .ok answer →
      answer.records = cnameRecords ∧ keys.Denies verifier owner rules.qtype

section

variable {σ : Type} {rules : AnswerRules σ}

theorem AnswerRules.Verify.accepts (verify : rules.Verify verifier keys) {response : DnsMessage}
    {value : Unit}
    (validated : rules.validateSecureRrset owner rrset response = .ok value) :
    keys.Accepts verifier owner rrset := by
  obtain ⟨signed, required⟩ := of_guard_ok validated
  refine ⟨_, by simpa using signed, ?_, ?_⟩
  · intro record recordMem
    exact (mem_recordsFor.mp recordMem).2
  · rw [← verify.validateRrset_eq]
    exact requireSecure_eq_ok required

/-- From a name in the zone on, the loop extends the records so far by a verified
path. -/
theorem followAnswers_ensures (verify : rules.Verify verifier keys) (rounds : Nat)
    (response : DnsMessage) (owner : DnsName) (cnameRecords : List ResourceRecord)
    (inZone : dnsNameIsSubdomainOrEqual owner keys.zone = true) :
    Effect.Ensures (fun answer => ∃ records, answer.records = cnameRecords ++ records ∧
        VerifiedPath verifier keys rules.qtype owner records)
      (followAnswers rules rounds response owner cnameRecords) := by
  induction rounds generalizing response owner cnameRecords with
  | zero => exact Effect.Ensures.throw _
  | succ rounds ih =>
    have cnameTyped : ∀ record ∈ (if rules.qtype = .cname then []
        else recordsFor response.answers owner .cname),
        record.name = owner ∧ record.recordType = .cname := by
      intro record recordMem
      split at recordMem
      next => cases recordMem
      next => exact (mem_recordsFor.mp recordMem).2
    rw [followAnswers]
    generalize (if rules.qtype = .cname then [] else recordsFor response.answers owner .cname) =
      cnameRrset at cnameTyped ⊢
    split
    next => exact Effect.Ensures.throw _
    split
    next nonempty =>
      refine Effect.Ensures.bind (Effect.Ensures.ofExcept fun _ => verify.accepts) ?_
      intro _ accepted
      refine Effect.Ensures.pure ⟨_, rfl, .answer inZone (by simpa using nonempty) ?_ accepted⟩
      exact fun record recordMem => (mem_recordsFor.mp recordMem).2
    split
    next =>
      refine Effect.Ensures.bind (Effect.Ensures.ofExcept fun _ => verify.accepts) ?_
      intro _ accepted
      refine Effect.Ensures.bind (Effect.Ensures.ofExcept fun _ => cnameTarget_eq_ok) ?_
      rintro target ⟨record, rfl, target_eq⟩
      have typed := cnameTyped record List.mem_cons_self
      split
      next => exact Effect.Ensures.throw _
      next targetInZone =>
        rw [verify.zone_eq] at targetInZone
        intro state answer returned
        obtain ⟨rest, records_eq, next⟩ :=
          ih response target (cnameRecords ++ [record]) (by simpa using targetInZone) state
            answer returned
        refine ⟨record :: rest, ?_, .cname inZone typed target_eq accepted next⟩
        rw [records_eq, List.append_assoc, List.singleton_append]
    split
    next =>
      refine Effect.Ensures.bind (Effect.Ensures.trivial _) ?_
      intro response _
      exact ih response owner cnameRecords inZone
    -- The path ends with a denial, which adds no records.
    have denial {answer : ResolutionAnswer} (denied : answer.records = cnameRecords ∧
        keys.Denies verifier owner rules.qtype) :
        ∃ records, answer.records = cnameRecords ++ records ∧
          VerifiedPath verifier keys rules.qtype owner records :=
      ⟨[], by rw [denied.1, List.append_nil], .denial inZone denied.2⟩
    split
    next => exact Effect.Ensures.ofExcept fun _ returned => denial (verify.nameError_denies returned)
    next => exact Effect.Ensures.ofExcept fun _ returned => denial (verify.noData_denies returned)

end

/-! ## Denials -/

theorem tryCandidates_eq_ok {validate : DnsName → Except ResolverError Bool}
    {answer result : ResolutionAnswer} {candidates : List DnsName}
    (found : tryCandidates validate answer candidates = .ok result) :
    answer = result ∧ ∃ candidate, validate candidate = .ok true := by
  induction candidates with
  | nil => cases found
  | cons candidate rest ih =>
    rw [tryCandidates] at found
    split at found
    next => cases found
    next accepted => exact ⟨Except.ok.inj found, candidate, accepted⟩
    next => exact ih found

section

variable {answer : ResolutionAnswer}

theorem resolveSecureNoData_denies {input : NoDataResolutionInput}
    (resolved : resolveSecureNoData verifier input = .ok answer) :
    answer.records = input.prefixRecords ∧
      (ZoneKeys.parent input.material).Denies verifier input.requestName input.qtype := by
  obtain ⟨-, resolved⟩ := of_guard_ok resolved
  split at resolved
  next => cases resolved
  next => cases resolved
  next accepted =>
    obtain rfl := Except.ok.inj resolved
    exact ⟨rfl, .inl ⟨input.query, rfl, rfl, accepted⟩⟩

theorem resolveSecureNameError_denies {input : NameErrorResolutionInput} (qtype : RecordType)
    (resolved : resolveSecureNameError verifier input = .ok answer) :
    answer.records = input.prefixRecords ∧
      (ZoneKeys.parent input.material).Denies verifier input.requestName qtype := by
  obtain ⟨-, resolved⟩ := of_guard_ok resolved
  split at resolved
  next => cases resolved
  next =>
    obtain ⟨rfl, candidate, accepted⟩ := tryCandidates_eq_ok resolved
    exact ⟨rfl, .inr ⟨_, rfl, accepted⟩⟩

variable {material : ChildDnskeyMaterial} {response : DnsMessage}
  {prefixRecords : List ResourceRecord}

theorem resolveSecureChildNoData_denies
    (resolved : resolveSecureChildNoData verifier material qtype owner response prefixRecords =
      .ok answer) :
    answer.records = prefixRecords ∧ (ZoneKeys.child material).Denies verifier owner qtype := by
  obtain ⟨_, required, resolved⟩ := of_bind_ok resolved
  obtain rfl := Except.ok.inj resolved
  exact ⟨rfl, .inl ⟨noDataQuery response owner qtype, rfl, rfl, requireSecure_eq_ok required⟩⟩

theorem resolveSecureChildNameError_denies (qtype : RecordType)
    (resolved : resolveSecureChildNameError verifier material owner response prefixRecords =
      .ok answer) :
    answer.records = prefixRecords ∧ (ZoneKeys.child material).Denies verifier owner qtype := by
  obtain ⟨-, resolved⟩ := of_guard_ok resolved
  obtain ⟨candidates, -, resolved⟩ := of_bind_ok resolved
  obtain ⟨rfl, candidate, accepted⟩ := tryCandidates_eq_ok resolved
  exact ⟨rfl, .inr ⟨_, rfl, accepted⟩⟩

end

/-! ## Choosing a child zone -/

theorem mem_of_longestName {names : List DnsName} {longest : DnsName}
    (found : longestName names = some longest) : longest ∈ names := by
  -- The fold returns its start or one of the names.
  have chosen (start : Option DnsName) :
      names.foldl (fun longest name =>
        if longest.all fun longest => longest.labels.length ≤ name.labels.length then some name
        else longest) start = some longest → start = some longest ∨ longest ∈ names := by
    clear found
    induction names generalizing start with
    | nil => exact .inl
    | cons name rest ih =>
      intro folded
      rw [List.foldl_cons] at folded
      rcases ih _ folded with started | later
      · split at started
        next => exact .inr (Option.some.inj started ▸ List.mem_cons_self)
        next => exact .inl started
      · exact .inr (List.mem_cons_of_mem _ later)
  rcases chosen none found with absent | mem
  · cases absent
  · exact mem

theorem childReferral_eq_some {response : DnsMessage} {parentOwner : DnsName}
    {referral : ChildReferral}
    (found : childReferral response parentOwner requestName = some referral) :
    referral.owner ≠ parentOwner ∧ dnsNameIsSubdomainOrEqual referral.owner parentOwner = true ∧
      dnsNameIsSubdomainOrEqual requestName referral.owner = true ∧ referral.dsRrset ≠ [] ∧
      ∀ record ∈ referral.dsRrset, record.name = referral.owner ∧ record.recordType = .ds := by
  unfold childReferral at found
  dsimp only at found
  split at found
  next => cases found
  next owner longest =>
    have chosen := List.of_mem_filter (mem_of_longestName longest)
    simp only [decide_eq_true_eq] at chosen
    split at found
    next => cases found
    next nonempty =>
      obtain rfl := Option.some.inj found
      refine ⟨chosen.1, chosen.2.1, chosen.2.2, ?_, ?_⟩
      · intro empty
        exact nonempty (.inr (.inl (List.isEmpty_iff.mpr empty)))
      · intro record recordMem
        exact (mem_recordsFor.mp recordMem).2

theorem isChildSigner_answerSignerFrom
    (found : answerSignerFrom delegation requestName recordType records = some signer) :
    isChildSigner delegation requestName signer = true := by
  induction records with
  | nil => cases found
  | cons record rest ih =>
    rw [answerSignerFrom] at found
    split at found
    next => cases found
    next rrsig _ =>
      split at found
      next chosen => exact Option.some.inj found ▸ chosen.2
      next => exact ih found

theorem isChildSigner_inlineChildAnswerSigner {rrsigRrset : List ResourceRecord}
    (found : inlineChildAnswerSigner delegation requestName rrset rrsigRrset recordType =
      some signer) : isChildSigner delegation requestName signer = true := by
  unfold inlineChildAnswerSigner at found
  split at found
  next => cases found
  next => exact isChildSigner_answerSignerFrom found

theorem isChildSigner_inlineChildDenialSigner {proofRecords : List ResourceRecord}
    (found : inlineChildDenialSigner delegation requestName proofRecords = some signer) :
    isChildSigner delegation requestName signer = true := by
  obtain ⟨record, -, chosen⟩ := List.mem_filterMap.mp (mem_of_longestName found)
  split at chosen
  next => cases chosen
  next rrsig _ =>
    split at chosen
    next child => exact Option.some.inj chosen ▸ child.2
    next => cases chosen

/-! ## One pass over a target -/

section

variable {σ : Type} {transport : DnsTransport σ} {question : DelegatedQuestion}

/-- A loop that starts at the asked name with rules of placed keys. -/
theorem followAnswers_securePath {rules : AnswerRules σ} (placed : keys.Placed question)
    (verify : rules.Verify verifier keys)
    (qtype_eq : rules.qtype = question.qtype)
    (inZone : dnsNameIsSubdomainOrEqual question.requestName keys.zone = true) (rounds : Nat)
    (response : DnsMessage) :
    Effect.Ensures (fun answer => SecurePath verifier question answer.records)
      (followAnswers rules rounds response question.requestName []) := by
  intro state answer returned
  obtain ⟨records, records_eq, path⟩ := followAnswers_ensures verify rounds response _ [] inZone
    state answer returned
  rw [qtype_eq] at path
  rw [records_eq, List.nil_append]
  exact ⟨keys, placed, path.dsVerified, path⟩

variable {target : DnsQueryTarget} {dnskeyRrset dnskeyRrsigRrset : List ResourceRecord}
  {response : DnsMessage} {input : ChildReferralResolutionInput} {childOwner : DnsName}

theorem resolveSecureAnswerRecords_securePath
    {initialResponse : DnsMessage}
    (below : dnsNameIsSubdomainOrEqual question.requestName question.delegation.owner = true) :
    Effect.Ensures (fun answer => SecurePath verifier question answer.records)
      (resolveSecureAnswerRecords transport verifier target question dnskeyRrset dnskeyRrsigRrset
        initialResponse) := by
  have placed : (ZoneKeys.parent ⟨question.delegation.owner, question.dsRrset, dnskeyRrset,
    dnskeyRrsigRrset⟩).Placed question := ⟨rfl, rfl⟩
  apply followAnswers_securePath placed
  · exact ⟨rfl, rfl, resolveSecureNameError_denies question.qtype, resolveSecureNoData_denies⟩
  · rfl
  · exact below

/-- A followed referral gives placed keys. -/
theorem ChildReferralResolutionInput.placed {referral : ChildReferral}
    (found : childReferral response question.delegation.owner question.requestName = some referral)
    (parentDnskeyRrset parentDnskeyRrsigRrset childDnskeyRrset childDnskeyRrsigRrset :
      List ResourceRecord) :
    (ZoneKeys.child (ChildReferralResolutionInput.material ⟨question.delegation, referral,
      question.requestName, question.qtype, question.dsRrset, parentDnskeyRrset,
      parentDnskeyRrsigRrset⟩ childDnskeyRrset childDnskeyRrsigRrset)).Placed question := by
  obtain ⟨strict, inParent, above, nonempty, typed⟩ := childReferral_eq_some found
  exact ⟨rfl, rfl, strict, inParent, above, nonempty, typed⟩

section

variable (requestName_eq : input.requestName = question.requestName)
  (qtype_eq : input.qtype = question.qtype)
  (placed : ∀ childDnskeyRrset childDnskeyRrsigRrset,
    (ZoneKeys.child (input.material childDnskeyRrset childDnskeyRrsigRrset)).Placed question)

include requestName_eq qtype_eq placed

theorem resolveSecureChildFromServer_securePath {server : SocketAddr} :
    Effect.Ensures (fun answer => SecurePath verifier question answer.records)
      (resolveSecureChildFromServer transport verifier server input) := by
  refine Effect.Ensures.bind (Effect.Ensures.trivial _) ?_
  intro dnskeyResponse _
  dsimp only
  split
  next => exact Effect.Ensures.throw _
  refine Effect.Ensures.bind (Effect.Ensures.trivial _) ?_
  intro targetResponse _
  unfold resolveSecureChildAnswerRecords
  rw [requestName_eq]
  apply followAnswers_securePath (placed _ _)
  · exact ⟨rfl, rfl, resolveSecureChildNameError_denies input.qtype,
      resolveSecureChildNoData_denies⟩
  · exact qtype_eq
  · exact (placed _ _).2.2.2.2.1

theorem tryChildServers_securePath (errors : List ResolverError) (servers : List SocketAddr) :
    Effect.Ensures (fun answer => SecurePath verifier question answer.records)
      (tryChildServers transport verifier input errors servers) := by
  induction servers generalizing errors with
  | nil =>
    refine Effect.Ensures.bind (Effect.Ensures.trivial _) ?_
    exact fun _ _ => Effect.Ensures.throw _
  | cons server rest ih =>
    refine Effect.Ensures.bind_outcome
      (resolveSecureChildFromServer_securePath requestName_eq qtype_eq placed) ?_ ?_
    · intro answer path
      refine Effect.Ensures.bind (Effect.Ensures.trivial _) ?_
      exact fun _ _ => Effect.Ensures.pure path
    · exact fun _ => ih _

theorem resolveSecureChildReferral_securePath :
    Effect.Ensures (fun answer => SecurePath verifier question answer.records)
      (resolveSecureChildReferral transport verifier input) := by
  unfold resolveSecureChildReferral
  split
  next => exact Effect.Ensures.throw _
  split
  next => exact Effect.Ensures.throw _
  split
  next =>
    split
    next => exact Effect.Ensures.throw _
    next => exact tryChildServers_securePath requestName_eq qtype_eq placed _ _
  next => exact tryChildServers_securePath requestName_eq qtype_eq placed _ _

end

variable {server : SocketAddr}

theorem fetchInlineChildDnssecMaterial_placed
    (signer : isChildSigner question.delegation question.requestName childOwner = true)
    (dnskeyRrset dnskeyRrsigRrset : List ResourceRecord) :
    Effect.Ensures (fun material => (ZoneKeys.child (InlineChildDnssecMaterial.under material
        ⟨question.delegation.owner, question.dsRrset, dnskeyRrset, dnskeyRrsigRrset⟩
        childOwner)).Placed question)
      (fetchInlineChildDnssecMaterial transport server childOwner) := by
  simp only [isChildSigner, Bool.and_eq_true, decide_eq_true_eq] at signer
  refine Effect.Ensures.bind (Effect.Ensures.trivial _) ?_
  intro dsResponse _
  refine Effect.Ensures.bind (Effect.Ensures.trivial _) ?_
  intro dnskeyResponse _
  dsimp only
  split
  next => exact Effect.Ensures.throw _
  next nonempty =>
    refine Effect.Ensures.pure ⟨rfl, rfl, signer.1.1, signer.1.2, signer.2, ?_, ?_⟩
    · intro empty
      exact nonempty (.inl (List.isEmpty_iff.mpr empty))
    · intro record recordMem
      exact (mem_recordsFor.mp recordMem).2

theorem resolveSecureInlineChildAnswer_securePath
    (signer : isChildSigner question.delegation question.requestName childOwner = true) :
    Effect.Ensures (fun answer => SecurePath verifier question answer.records)
      (resolveSecureInlineChildAnswer transport verifier
        ⟨question.delegation.owner, question.dsRrset, dnskeyRrset, dnskeyRrsigRrset⟩ childOwner
        server question.requestName
        (recordsFor response.answers question.requestName question.qtype)
        (recordsFor response.answers question.requestName .rrsig)) := by
  unfold resolveSecureInlineChildAnswer
  split
  next => exact Effect.Ensures.throw _
  next nonempty =>
    refine Effect.Ensures.bind (fetchInlineChildDnssecMaterial_placed signer dnskeyRrset
      dnskeyRrsigRrset) ?_
    intro material placed
    refine Effect.Ensures.bind (Effect.Ensures.ofExcept fun _ => requireSecure_eq_ok) ?_
    intro _ validated
    have accepted : (ZoneKeys.child (material.under ⟨question.delegation.owner, question.dsRrset,
        dnskeyRrset, dnskeyRrsigRrset⟩ childOwner)).Accepts verifier question.requestName
        (recordsFor response.answers question.requestName question.qtype) := by
      refine ⟨_, ?_, ?_, validated⟩
      · intro empty
        exact nonempty (.inr (.inr (.inr (List.isEmpty_iff.mpr empty))))
      · exact fun record recordMem => (mem_recordsFor.mp recordMem).2
    refine Effect.Ensures.pure ⟨_, placed, ZoneKeys.dsVerified_of_accepts accepted, ?_⟩
    refine .answer placed.2.2.2.2.1 ?_ ?_ accepted
    · intro empty
      exact nonempty (.inr (.inr (.inl (List.isEmpty_iff.mpr empty))))
    · exact fun record recordMem => (mem_recordsFor.mp recordMem).2

theorem resolveSecureInlineChildNoData_securePath
    (signer : isChildSigner question.delegation question.requestName childOwner = true) :
    Effect.Ensures (fun answer => SecurePath verifier question answer.records)
      (resolveSecureInlineChildNoData transport verifier
        ⟨question.delegation.owner, question.dsRrset, dnskeyRrset, dnskeyRrsigRrset⟩ childOwner
        server question.requestName question.qtype response []) := by
  unfold resolveSecureInlineChildNoData
  split
  next => exact Effect.Ensures.throw _
  refine Effect.Ensures.bind (fetchInlineChildDnssecMaterial_placed signer dnskeyRrset
      dnskeyRrsigRrset) ?_
  intro material placed
  refine Effect.Ensures.bind (Effect.Ensures.ofExcept fun _ => requireSecure_eq_ok) ?_
  intro _ validated
  have denied : (ZoneKeys.child (material.under ⟨question.delegation.owner, question.dsRrset,
      dnskeyRrset, dnskeyRrsigRrset⟩ childOwner)).Denies verifier question.requestName
      question.qtype :=
    .inl ⟨_, rfl, rfl, validated⟩
  exact Effect.Ensures.pure ⟨_, placed, ZoneKeys.dsVerified_of_denies denied,
    .denial placed.2.2.2.2.1 denied⟩

/-- Both responses have arrived, and the asked name is in the delegation. -/
theorem resolveFromResponses_securePath {targetResponse dnskeyResponse : DnsMessage}
    (below : dnsNameIsSubdomainOrEqual question.requestName question.delegation.owner = true) :
    Effect.Ensures (fun answer => SecurePath verifier question answer.records)
      (resolveFromResponses transport verifier server target question targetResponse
        dnskeyResponse) := by
  -- A denial by the keys of the delegation.
  have denial {answer : ResolutionAnswer} {dnskeyRrset dnskeyRrsigRrset : List ResourceRecord}
      (denied : answer.records = [] ∧ (ZoneKeys.parent ⟨question.delegation.owner,
        question.dsRrset, dnskeyRrset, dnskeyRrsigRrset⟩).Denies verifier question.requestName
        question.qtype) : SecurePath verifier question answer.records := by
    rw [denied.1]
    exact ⟨.parent ⟨question.delegation.owner, question.dsRrset, dnskeyRrset, dnskeyRrsigRrset⟩,
      ⟨rfl, rfl⟩, trivial, .denial below denied.2⟩
  unfold resolveFromResponses
  dsimp only
  split
  next =>
    apply Effect.Ensures.ofExcept
    exact fun _ resolved => denial (resolveSecureNameError_denies question.qtype resolved)
  split
  next referral found =>
    apply resolveSecureChildReferral_securePath rfl rfl
    exact ChildReferralResolutionInput.placed found _ _
  split
  next childOwner found =>
    exact resolveSecureInlineChildAnswer_securePath (isChildSigner_inlineChildAnswerSigner found)
  split
  next =>
    split
    next childOwner found =>
      exact resolveSecureInlineChildNoData_securePath (isChildSigner_inlineChildDenialSigner found)
    next =>
      apply Effect.Ensures.ofExcept
      exact fun _ resolved => denial (resolveSecureNoData_denies resolved)
  split
  next => exact Effect.Ensures.throw _
  next => exact resolveSecureAnswerRecords_securePath below

theorem resolveFromTarget_ensures
    (below : dnsNameIsSubdomainOrEqual question.requestName question.delegation.owner = true) :
    Effect.Ensures
      (fun answer => answer.secure = true → SecurePath verifier question answer.records)
      (resolveFromTarget transport verifier server target question) := by
  refine Effect.Ensures.bind (Effect.Ensures.trivial _) ?_
  intro targetResponse _
  split
  next => exact Effect.Ensures.pure (fun secure => by cases secure)
  refine Effect.Ensures.bind (Effect.Ensures.trivial _) ?_
  intro dnskeyResponse _ state answer returned _
  exact resolveFromResponses_securePath below state answer returned

/-- A secure answer of a pass is a verified path exactly when the asked name is at
or below the owner of the delegation. -/
theorem securePath_iff_requestName_below {server : SocketAddr} {target : DnsQueryTarget}
    {question : DelegatedQuestion} {state : RunState σ} {answer : ResolutionAnswer}
    (returned : (resolveDelegatedFromServerTarget transport verifier server target question
      state).1 = .ok answer) (secure : answer.secure = true) :
    SecurePath verifier question answer.records ↔
      dnsNameIsSubdomainOrEqual question.requestName question.delegation.owner = true := by
  constructor
  · exact SecurePath.requestName_below
  · exact fun below => resolveFromTarget_ensures below state answer returned secure

end

/-! ## Service bindings of nameservers -/

namespace ServiceRun

open ExampleKey ReferralRun

/-- `ns.example.` -/
def insideHost : DnsName :=
  ⟨[110, 115] :: apex.labels, by decide⟩

/-- `_dns.ns.example.` with the signature by `example.` -/
def insideService : Signed where
  record := ⟨⟨[95, 100, 110, 115] :: insideHost.labels, by decide⟩, .svcb, 1, 300, [0, 1, 0]⟩
  signature := [86, 177, 240, 108, 68, 202, 214, 192, 49, 15, 57, 61, 5, 196, 160, 15, 109, 57, 53,
    199, 77, 217, 214, 201, 148, 85, 146, 205, 206, 151, 116, 249, 109, 217, 186, 186, 61, 230,
    147, 191, 207, 251, 208, 223, 174, 151, 226, 198, 104, 52, 30, 195, 193, 69, 224, 132, 207, 36,
    190, 90, 108, 154, 118, 3]

/-- `ns.other.` -/
def outsideHost : DnsName :=
  ⟨[[110, 115], [111, 116, 104, 101, 114]], by decide⟩

/-- `_dns.ns.other.` with the signature by `example.` -/
def outsideService : Signed where
  record := ⟨⟨[95, 100, 110, 115] :: outsideHost.labels, by decide⟩, .svcb, 1, 300, [0, 1, 0]⟩
  signature := [251, 114, 109, 87, 58, 130, 158, 152, 107, 31, 222, 71, 23, 170, 175, 135, 142, 243,
    163, 241, 252, 172, 84, 148, 40, 151, 213, 14, 38, 116, 205, 104, 25, 118, 45, 40, 20, 84, 217,
    140, 74, 13, 40, 10, 112, 154, 238, 26, 61, 192, 178, 6, 99, 252, 64, 175, 165, 133, 148, 14,
    231, 99, 204, 4]

/-- The delegation of `example.` to one nameserver. -/
def delegationTo (host : DnsName) : HnsDelegation :=
  ⟨"example".toList, apex, [ds, nsRecord apex host, glue host 1]⟩

/-- What discovery asks about the nameserver of a delegation. -/
def question (host : DnsName) (service : Signed) : DelegatedQuestion :=
  ⟨delegationTo host, service.record.name, .svcb, recordsFor (delegationTo host).records apex .ds⟩

def systemVerifier (service : Signed) : DelegatedDnssecVerifier :=
  (ExampleKey.verifier (fun _ => List.replicate 20 0) [service]).toVerifier

def server : SocketAddr :=
  ⟨.v4 ⟨9, 9, 9, 1⟩, 53⟩

/-- The nameserver answers with the service binding and with the keys. -/
def pass (host : DnsName) (service : Signed) : Except ResolverError ResolutionAnswer :=
  (resolveDelegatedFromServerTarget scripted (systemVerifier service) server (.server server)
    (question host service)
    (.start [reply 1 ⟨service.record.name, .svcb, 1⟩ [service.record, service.rrsig] [] [],
      reply 2 ⟨apex, .dnskey, 1⟩ [dnskey, signedDnskey.rrsig] [] []] 0 fun _ => none)).1

theorem pass_insideHost : pass insideHost insideService =
    .ok ⟨insideService.record.name, [insideService.record], true⟩ := by
  decide +kernel

theorem pass_outsideHost : pass outsideHost outsideService =
    .ok ⟨outsideService.record.name, [outsideService.record], true⟩ := by
  decide +kernel

end ServiceRun

open ServiceRun in
theorem securePath_insideService :
    pass insideHost insideService =
        .ok ⟨insideService.record.name, [insideService.record], true⟩ ∧
      SecurePath (systemVerifier insideService) (question insideHost insideService)
        [insideService.record] := by
  refine ⟨pass_insideHost, ?_⟩
  rw [securePath_iff_requestName_below pass_insideHost rfl]
  decide

open ServiceRun in
/-- Discovery asks a nameserver `ns.other.` of `example.` for its service binding,
and takes the answer that `example.` signs for secure. -/
theorem not_securePath_outsideService :
    nameserverIpAddresses (delegationTo outsideHost) = [(outsideHost, server.ip)] ∧
      dnsServiceBindingName outsideHost = .ok outsideService.record.name ∧
      pass outsideHost outsideService =
        .ok ⟨outsideService.record.name, [outsideService.record], true⟩ ∧
      ¬ SecurePath (systemVerifier outsideService) (question outsideHost outsideService)
        [outsideService.record] := by
  refine ⟨rfl, rfl, pass_outsideHost, ?_⟩
  intro path
  exact absurd path.requestName_below (by decide)

end HnsDaneEngine.Browser.Resolver
