import HnsDaneEngine.Browser.Dnssec.Signature

/-!
# NSEC denial in the browser validator

A name error is checked against one ancestor that the caller proposes as the
closest encloser: some record has to cover the query name and some record the
wildcard child of that ancestor.  Nothing relates the proposed ancestor to the
records.
-/

namespace HnsDaneEngine.Browser.Dnssec

open HnsDaneEngine.Order TypeBitmap Wire

def canonicalNameCmp (left right : DnsName) : Ordering :=
  lexCmp bytesCmp left.labels.reverse right.labels.reverse

theorem canonicalNameCmp_compares (left right : DnsName) :
    (canonicalNameCmp left right).Compares left.labels.reverse right.labels.reverse :=
  lexCmp_compares bytesCmp_compares _ _

def nsecCoversName (owner next queryName : DnsName) : Bool :=
  if queryName = owner then false
  else
    match canonicalNameCmp owner next with
    | .lt => canonicalNameCmp owner queryName = .lt && canonicalNameCmp queryName next = .lt
    | .gt => canonicalNameCmp owner queryName = .lt || canonicalNameCmp queryName next = .lt
    | .eq => true

@[simp]
theorem nsecCoversName_iff (owner next queryName : DnsName) :
    nsecCoversName owner next queryName = true ↔
      Zone.Covers owner.labels next.labels queryName.labels := by
  by_cases equal : queryName = owner
  · subst equal
    simp only [nsecCoversName, if_true, Bool.false_eq_true, false_iff]
    exact not_cyclicBetween_self _ _
  · have ne : queryName.labels.reverse ≠ owner.labels.reverse := by
      rwa [Ne, List.reverse_inj, DnsName.labels_inj]
    rw [nsecCoversName, if_neg equal]
    exact betweenByComparison_iff (canonicalNameCmp_compares owner next)
      (canonicalNameCmp_compares owner queryName) (canonicalNameCmp_compares queryName next) ne

def isStrictSubdomain (name parent : DnsName) : Bool :=
  parent.labels.length < name.labels.length && parent.labels.isSuffixOf name.labels

theorem isStrictSubdomain_iff (name parent : DnsName) :
    isStrictSubdomain name parent = true ↔
      parent.labels <:+ name.labels ∧ parent.labels ≠ name.labels := by
  simp only [isStrictSubdomain, Bool.and_eq_true, decide_eq_true_eq, List.isSuffixOf_iff_suffix]
  constructor
  · rintro ⟨shorter, suffix⟩
    exact ⟨suffix, fun equal => absurd (congrArg List.length equal) shorter.ne⟩
  · rintro ⟨suffix, ne⟩
    refine ⟨lt_of_le_of_ne suffix.length_le fun equal => ne (suffix.eq_of_length equal), suffix⟩

variable {label : Label} {records : List ResourceRecord}

theorem isStrictSubdomain_of_nextCloser {name parent : DnsName}
    (nextCloser : label :: parent.labels <:+ name.labels) :
    isStrictSubdomain name parent = true := by
  rw [isStrictSubdomain_iff]
  constructor
  · exact (List.suffix_cons label _).trans nextCloser
  · intro equal
    have length := nextCloser.length_le
    rw [List.length_cons, equal] at length
    exact absurd length (Nat.not_succ_le_self _)

/-- `wildcard_child`, through the text of the name. -/
def wildcardChild (closestEncloser : DnsName) : Except DnssecError DnsName :=
  let text :=
    if closestEncloser.labels.isEmpty then ['*'] else '*' :: '.' :: closestEncloser.toText
  match DnsName.fromAscii text with
  | .ok name => .ok name
  | .error _ => .error .nameEncoding

/-- The wildcard child of a strict ancestor is within the name bounds: it is no
longer than the name it stands above. -/
theorem validDnsLabels_star_cons {name : DnsName} {encloser : List Label}
    (nextCloser : label :: encloser <:+ name.labels) : ValidDnsLabels (star :: encloser) := by
  have valid := name.valid.of_suffix nextCloser
  have labelNonempty : 0 < label.length :=
    List.length_pos_iff.mpr (valid.nonempty label List.mem_cons_self)
  have length := valid.wireLen_le
  have encloserValid := valid.of_suffix (List.suffix_cons label encloser)
  have starLength : star.length = 1 := rfl
  constructor
  · rw [List.forall_mem_cons]
    exact ⟨by decide, encloserValid.nonempty⟩
  · rw [List.forall_mem_cons]
    exact ⟨by decide, encloserValid.bounded⟩
  · rw [List.forall_mem_cons]
    exact ⟨by decide, encloserValid.wellFormed⟩
  · rw [List.forall_mem_cons]
    exact ⟨by decide, encloserValid.lowercase⟩
  · rw [wireLen_cons] at length ⊢
    omega

theorem wildcardChild_of_valid {encloser : DnsName}
    (valid : ValidDnsLabels (star :: encloser.labels)) :
    wildcardChild encloser = .ok ⟨star :: encloser.labels, valid⟩ := by
  have text_eq : (if encloser.labels.isEmpty then ['*'] else '*' :: '.' :: encloser.toText) =
      joinLabels (star :: encloser.labels) := by
    cases labels_eq : encloser.labels with
    | nil => rfl
    | cons label rest => simp [DnsName.toText, labels_eq, joinLabels, labelText, star]
  unfold wildcardChild
  dsimp only
  rw [text_eq, DnsName.fromAscii_joinLabels valid]

/-- A query and its NSEC record. -/
structure NsecNoDataValidationInput where
  signerName : DnsName
  dnskeyRrset : List ResourceRecord
  queryName : DnsName
  queryType : RecordType
  nsecRrset : List ResourceRecord
  nsecRrsigRrset : List ResourceRecord
  now : Nat

/-- A name and its NSEC record. -/
structure NsecNameRangeValidationInput where
  signerName : DnsName
  dnskeyRrset : List ResourceRecord
  queryName : DnsName
  nsecRrset : List ResourceRecord
  nsecRrsigRrset : List ResourceRecord
  now : Nat

/-- A name and the two NSEC records. -/
structure NsecNameErrorValidationInput where
  signerName : DnsName
  dnskeyRrset : List ResourceRecord
  queryName : DnsName
  closestEncloser : DnsName
  coveringNsecRrset : List ResourceRecord
  coveringNsecRrsigRrset : List ResourceRecord
  wildcardNsecRrset : List ResourceRecord
  wildcardNsecRrsigRrset : List ResourceRecord
  now : Nat

/-- The records of one type with the owner and class of a record. -/
def ownedLike (record : ResourceRecord) (recordType : RecordType)
    (records : List ResourceRecord) : List ResourceRecord :=
  records.filter fun candidate =>
    candidate.recordType = recordType ∧ candidate.name = record.name ∧
      candidate.class_ = record.class_

/-- The bitmap tests of the no-data loops: both types are absent. -/
def lacksTypes (hasType : RecordType → Except DnssecError Bool) (queryType : RecordType) :
    Except DnssecError Bool :=
  match hasType queryType with
  | .error error => .error error
  | .ok true => .ok false
  | .ok false =>
    match hasType .cname with
    | .error error => .error error
    | .ok present => .ok !present

/-- Absence of the query type and of CNAME in a set of types. -/
def deniesType (types : UInt16 → Bool) (queryType : RecordType) : Bool :=
  !types queryType.code && !types RecordType.cname.code

@[simp]
theorem lacksTypes_of_hasType {hasType : RecordType → Except DnssecError Bool}
    {types : UInt16 → Bool}
    (hasType_eq : ∀ recordType, hasType recordType = .ok (types recordType.code))
    (queryType : RecordType) :
    lacksTypes hasType queryType = .ok (deniesType types queryType) := by
  rw [lacksTypes, hasType_eq, hasType_eq, deniesType]
  cases types queryType.code <;> rfl

section

variable (crypto : Crypto)

/-- The record loop of `validate_nsec_no_data`. -/
def nsecNoDataFrom (queryName : DnsName) (queryType : RecordType) :
    List ResourceRecord → Except DnssecError DnssecStatus
  | [] => .ok .bogus
  | record :: rest =>
    if record.recordType = .nsec ∧ record.name = queryName then
      match NsecRecord.fromRecord record with
      | .error error => .error error
      | .ok nsec =>
        match lacksTypes nsec.hasType queryType with
        | .error error => .error error
        | .ok true => .ok .secure
        | .ok false => nsecNoDataFrom queryName queryType rest
    else nsecNoDataFrom queryName queryType rest

def validateNsecNoData (input : NsecNoDataValidationInput) : Except DnssecError DnssecStatus :=
  match validateRrsetSignature crypto input.signerName input.dnskeyRrset input.nsecRrset
      input.nsecRrsigRrset input.now with
  | .error error => .error error
  | .ok .secure => nsecNoDataFrom input.queryName input.queryType input.nsecRrset
  | .ok status => .ok status

/-- The record loop of `validate_nsec_name_range`: a malformed record ends it,
while the first signature error is kept until no further record is left. -/
def nsecNameRangeFrom (input : NsecNameRangeValidationInput) :
    Option DnssecError → List ResourceRecord → Except DnssecError DnssecStatus
  | some error, [] => .error error
  | none, [] => .ok .bogus
  | deferred, record :: rest =>
    if record.recordType = .nsec then
      match NsecRecord.fromRecord record with
      | .error error => .error error
      | .ok nsec =>
        if nsecCoversName record.name nsec.nextDomainName input.queryName then
          match validateRrsetSignature crypto input.signerName input.dnskeyRrset
              (ownedLike record .nsec input.nsecRrset)
              (ownedLike record .rrsig input.nsecRrsigRrset) input.now with
          | .ok .secure => .ok .secure
          | .ok _ => nsecNameRangeFrom input deferred rest
          | .error error => nsecNameRangeFrom input (deferred.or (some error)) rest
        else nsecNameRangeFrom input deferred rest
    else nsecNameRangeFrom input deferred rest

def validateNsecNameRange (input : NsecNameRangeValidationInput) :
    Except DnssecError DnssecStatus :=
  nsecNameRangeFrom crypto input none input.nsecRrset

def validateNsecNameError (input : NsecNameErrorValidationInput) :
    Except DnssecError DnssecStatus :=
  if !isStrictSubdomain input.queryName input.closestEncloser then .ok .bogus
  else if input.coveringNsecRrset.isEmpty ∨ input.wildcardNsecRrset.isEmpty then .ok .bogus
  else
    match validateNsecNameRange crypto ⟨input.signerName, input.dnskeyRrset, input.queryName,
        input.coveringNsecRrset, input.coveringNsecRrsigRrset, input.now⟩ with
    | .error error => .error error
    | .ok .secure =>
      match wildcardChild input.closestEncloser with
      | .error error => .error error
      | .ok wildcardName =>
        validateNsecNameRange crypto ⟨input.signerName, input.dnskeyRrset, wildcardName,
          input.wildcardNsecRrset, input.wildcardNsecRrsigRrset, input.now⟩
    | .ok status => .ok status

end

/-- An NSEC record of the zone: its data leads to the next owner and lists the
types present at its own. -/
def IsNsecRecord (zone : Zone Label) (record : ResourceRecord) : Prop :=
  record.recordType = .nsec ∧ record.class_ = 1 ∧ ∃ nsec, NsecRecord.fromRecord record = .ok nsec ∧
      zone.IsNextOwner record.name.labels nsec.nextDomainName.labels ∧
      ∃ blocks : Blocks, nsec.typeBitMaps = blocks.encode ∧
        blocks.has = zone.types record.name.labels

/-- A name lies in the canonical interval of a record. -/
def RecordCovers (record : ResourceRecord) (name : List Label) : Prop :=
  ∃ nsec, NsecRecord.fromRecord record = .ok nsec ∧
    Zone.Covers record.name.labels nsec.nextDomainName.labels name

/-- A record passes over a name and leads below it. -/
def RecordSkips (record : ResourceRecord) (name : List Label) : Prop :=
  ∃ nsec, NsecRecord.fromRecord record = .ok nsec ∧
    Zone.Covers record.name.labels nsec.nextDomainName.labels name ∧
    name <:+ nsec.nextDomainName.labels

variable {zone : Zone Label} {record : ResourceRecord}

/-- A covered name exists exactly when the record leads below it. -/
theorem IsNsecRecord.occurs_iff (genuine : IsNsecRecord zone record) {name : List Label}
    (covers : RecordCovers record name) :
    zone.Occurs name ↔ RecordSkips record name := by
  obtain ⟨_, _, nsec, parsed, isNext, _⟩ := genuine
  obtain ⟨other, other_parsed, covered⟩ := covers
  obtain rfl := Except.ok.inj (parsed.symm.trans other_parsed)
  rw [Zone.occurs_iff_suffix_next isNext covered]
  constructor
  · exact fun below => ⟨nsec, parsed, covered, below⟩
  · rintro ⟨other, other_parsed, _, below⟩
    obtain rfl := Except.ok.inj (parsed.symm.trans other_parsed)
    exact below

theorem IsNsecRecord.notMem (genuine : IsNsecRecord zone record) {name : List Label}
    (covers : RecordCovers record name) :
    name ∉ zone.owners := by
  obtain ⟨_, _, nsec, parsed, isNext, _⟩ := genuine
  obtain ⟨other, other_parsed, covered⟩ := covers
  obtain rfl := Except.ok.inj (parsed.symm.trans other_parsed)
  exact Zone.notMem_of_covers isNext covered

/-- Over the records of the query name in the chain, the no-data loop looks at
the types of the zone. -/
theorem nsecNoDataFrom_of_genuine {queryName : DnsName} (some_record : records ≠ [])
    (genuine : ∀ record ∈ records, IsNsecRecord zone record ∧ record.name = queryName)
    (queryType : RecordType) :
    nsecNoDataFrom queryName queryType records =
      .ok (if deniesType (zone.types queryName.labels) queryType then .secure else .bogus) := by
  induction records with
  | nil => exact absurd rfl some_record
  | cons record rest ih =>
    rw [List.forall_mem_cons] at genuine
    obtain ⟨⟨⟨type_eq, _, nsec, parsed, _, blocks, bitmap_eq, has_eq⟩, name_eq⟩, rest_genuine⟩ :=
      genuine
    have hasType_eq : ∀ recordType, nsec.hasType recordType =
        .ok (zone.types queryName.labels recordType.code) := by
      intro recordType
      rw [NsecRecord.hasType, bitmap_eq, nsecTypeBitMapsContain_encode, has_eq, name_eq]
    rw [nsecNoDataFrom, if_pos ⟨type_eq, name_eq⟩, parsed]
    simp only [lacksTypes_of_hasType hasType_eq]
    cases denied : deniesType (zone.types queryName.labels) queryType with
    | true => rfl
    | false =>
      cases rest with
      | nil => rfl
      | cons next rest => simpa [denied] using ih (by simp) rest_genuine

/-- Denial records of one response with what their signatures are checked
against. -/
structure SignedRecords where
  signerName : DnsName
  dnskeyRrset : List ResourceRecord
  records : List ResourceRecord
  rrsigs : List ResourceRecord
  now : Nat

namespace SignedRecords

variable (crypto : Crypto) (signed : SignedRecords)

/-- The signature status of the NSEC set that a record belongs to. -/
def status (record : ResourceRecord) : Except DnssecError DnssecStatus :=
  validateRrsetSignature crypto signed.signerName signed.dnskeyRrset
    (ownedLike record .nsec signed.records) (ownedLike record .rrsig signed.rrsigs) signed.now

/-- A record with a secure status covers the name. -/
def Covered (name : List Label) : Prop :=
  ∃ record ∈ signed.records, RecordCovers record name ∧ signed.status crypto record = .ok .secure

/-- The signature check of a covering record ends in an error, and none of them
is secure. -/
def Fails (name : List Label) : Prop :=
  ¬ signed.Covered crypto name ∧ ∃ record ∈ signed.records, RecordCovers record name ∧
    ∃ error, signed.status crypto record = .error error

/-- The input of a range check over the records. -/
def rangeInput (queryName : DnsName) : NsecNameRangeValidationInput :=
  ⟨signed.signerName, signed.dnskeyRrset, queryName, signed.records, signed.rrsigs, signed.now⟩

variable {signed}

/-- Over well-formed records the loop ends with `Secure` at a covering record
with a secure status, and with an error when there is none but an error is
known or met. -/
theorem nsecNameRangeFrom_spec (queryName : DnsName)
    (wellFormed : ∀ record ∈ records, ∃ nsec, NsecRecord.fromRecord record = .ok nsec)
    (deferred : Option DnssecError) :
    (nsecNameRangeFrom crypto (signed.rangeInput queryName) deferred records = .ok .secure ↔
      ∃ record ∈ records, RecordCovers record queryName.labels ∧
        signed.status crypto record = .ok .secure) ∧
    ((∃ error, nsecNameRangeFrom crypto (signed.rangeInput queryName) deferred records =
        .error error) ↔
      (¬ ∃ record ∈ records, RecordCovers record queryName.labels ∧
        signed.status crypto record = .ok .secure) ∧
      (deferred.isSome ∨ ∃ record ∈ records, RecordCovers record queryName.labels ∧
        ∃ error, signed.status crypto record = .error error)) := by
  induction records generalizing deferred with
  | nil => cases deferred <;> simp [nsecNameRangeFrom]
  | cons record rest ih =>
    rw [List.forall_mem_cons] at wellFormed
    obtain ⟨⟨nsec, parsed⟩, restWellFormed⟩ := wellFormed
    have tail := ih restWellFormed
    have type_eq : record.recordType = .nsec := by
      by_contra ne
      simp [NsecRecord.fromRecord, ne] at parsed
    have covers_iff : RecordCovers record queryName.labels ↔
        nsecCoversName record.name nsec.nextDomainName queryName = true := by
      simp [RecordCovers, parsed]
    have round : nsecNameRangeFrom crypto (signed.rangeInput queryName) deferred
          (record :: rest) =
        if nsecCoversName record.name nsec.nextDomainName queryName then
          match signed.status crypto record with
          | .ok .secure => .ok .secure
          | .ok _ => nsecNameRangeFrom crypto (signed.rangeInput queryName) deferred rest
          | .error error =>
            nsecNameRangeFrom crypto (signed.rangeInput queryName) (deferred.or (some error)) rest
        else nsecNameRangeFrom crypto (signed.rangeInput queryName) deferred rest := by
      rw [nsecNameRangeFrom, if_pos type_eq, parsed]
      rfl
    simp only [round, List.exists_mem_cons_iff, covers_iff]
    cases covers : nsecCoversName record.name nsec.nextDomainName queryName with
    | false => simpa using tail deferred
    | true =>
      cases checked : signed.status crypto record with
      | error error => simpa using tail (deferred.or (some error))
      | ok checkedStatus =>
        cases checkedStatus with
        | secure => simp
        | insecureDelegation => simpa using tail deferred
        | bogus => simpa using tail deferred

theorem validateNsecNameRange_eq_secure_iff
    (wellFormed : ∀ record ∈ signed.records, ∃ nsec, NsecRecord.fromRecord record = .ok nsec)
    (queryName : DnsName) :
    validateNsecNameRange crypto (signed.rangeInput queryName) = .ok .secure ↔
      signed.Covered crypto queryName.labels :=
  (nsecNameRangeFrom_spec crypto queryName wellFormed none).1

theorem validateNsecNameRange_eq_error_iff
    (wellFormed : ∀ record ∈ signed.records, ∃ nsec, NsecRecord.fromRecord record = .ok nsec)
    (queryName : DnsName) :
    (∃ error, validateNsecNameRange crypto (signed.rangeInput queryName) = .error error) ↔
      signed.Fails crypto queryName.labels :=
  (nsecNameRangeFrom_spec crypto queryName wellFormed none).2.trans (by simp [Fails, Covered])

/-- The input of a name-error check over the records, which serve both parts. -/
def nameErrorInput (signed : SignedRecords) (queryName closestEncloser : DnsName) :
    NsecNameErrorValidationInput :=
  ⟨signed.signerName, signed.dnskeyRrset, queryName, closestEncloser, signed.records,
    signed.rrsigs, signed.records, signed.rrsigs, signed.now⟩

/-- A name error for a proposed ancestor comes down to the range checks of the
name and of the wildcard child of that ancestor. -/
theorem validateNsecNameError_eq {queryName closestEncloser wildcard : DnsName}
    (nextCloser : label :: closestEncloser.labels <:+ queryName.labels)
    (wildcard_eq : wildcard.labels = star :: closestEncloser.labels) :
    validateNsecNameError crypto (signed.nameErrorInput queryName closestEncloser) =
      match validateNsecNameRange crypto (signed.rangeInput queryName) with
      | .error error => .error error
      | .ok .secure => validateNsecNameRange crypto (signed.rangeInput wildcard)
      | .ok status => .ok status := by
  have strict := isStrictSubdomain_of_nextCloser nextCloser
  have wildcard_ok : wildcardChild closestEncloser = .ok wildcard := by
    rw [wildcardChild_of_valid (validDnsLabels_star_cons nextCloser), Except.ok.injEq]
    exact DnsName.ext_labels wildcard_eq.symm
  rw [validateNsecNameError]
  simp only [nameErrorInput, strict, Bool.not_true, Bool.false_eq_true, if_false, or_self,
    wildcard_ok]
  by_cases empty : signed.records.isEmpty = true
  · rw [if_pos empty]
    simp [validateNsecNameRange, rangeInput, List.isEmpty_iff.mp empty, nsecNameRangeFrom]
  · rw [if_neg empty]
    rfl

theorem validateNsecNameError_spec {queryName closestEncloser : DnsName}
    (wellFormed : ∀ record ∈ signed.records, ∃ nsec, NsecRecord.fromRecord record = .ok nsec)
    (nextCloser : label :: closestEncloser.labels <:+ queryName.labels) :
    (validateNsecNameError crypto (signed.nameErrorInput queryName closestEncloser) = .ok .secure ↔
      signed.Covered crypto queryName.labels ∧
        signed.Covered crypto (star :: closestEncloser.labels)) ∧
    ((∃ error, validateNsecNameError crypto (signed.nameErrorInput queryName closestEncloser) =
        .error error) ↔
      signed.Fails crypto queryName.labels ∨ signed.Covered crypto queryName.labels ∧
        signed.Fails crypto (star :: closestEncloser.labels)) := by
  let wildcard : DnsName := ⟨star :: closestEncloser.labels, validDnsLabels_star_cons nextCloser⟩
  have wildcard_eq : wildcard.labels = star :: closestEncloser.labels := rfl
  have covered_iff := validateNsecNameRange_eq_secure_iff crypto wellFormed
  have fails_iff := validateNsecNameRange_eq_error_iff crypto wellFormed
  rw [validateNsecNameError_eq crypto nextCloser wildcard_eq, ← wildcard_eq, ← covered_iff,
    ← covered_iff, ← fails_iff, ← fails_iff]
  cases checked : validateNsecNameRange crypto (signed.rangeInput queryName) with
  | error error => simp
  | ok status => cases status <;> simp

end SignedRecords

end HnsDaneEngine.Browser.Dnssec
