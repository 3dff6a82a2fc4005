import HnsDaneEngine.Dnssec.Core

/-!
# NSEC denial in the strict validator

`verify_nsec_denial` receives signature-authenticated NSEC records.  For a name
error it searches the longest proper ancestor of the query name that owns a
supplied record, and then asks for one record that covers the name one label
longer and one that covers the wildcard child of the ancestor.

Covering the longer name shows that it is no owner, but not that it does not
exist: when the covering record leads to a name below it, the longer name is an
empty non-terminal and owners below it are still there.  The main theorem of
this file determines when an accepted name error is nevertheless a denial.
-/

namespace HnsDaneEngine.Dnssec

open TypeBitmap Wire

def validNsec (record : ResourceRecord) : Option (ResourceRecord × Nsec) :=
  if record.class_ ≠ classIn ∨ record.recordType ≠ .nsec then none
  else
    match record.rdata with
    | .nsec nsec => some (record, nsec)
    | _ => none

/-- The first loop of `verify_nsec_denial`: a record at the query name whose
bitmap denies the query type. -/
def nsecNoData (qname : Name) (qtype : RecordType) (responseIsNameError : Bool)
    (nsecs : List (ResourceRecord × Nsec)) :
    Except DnssecError (Option (ResourceRecord × Nsec)) :=
  findNoData (fun entry => entry.1.name = qname && !responseIsNameError)
    (fun entry => entry.2.typeBitmaps) qtype nsecs

/-- The start of the longest proper ancestor that owns a supplied record. -/
def nsecClosestStart (qname : Name) (nsecs : List (ResourceRecord × Nsec)) : Option Nat :=
  (List.range' 1 qname.labels.length).find? fun start =>
    match ancestor qname start with
    | some candidate => nsecs.any fun entry => entry.1.name = candidate
    | none => false

/-- Is a name covered by one of the supplied records? -/
def nsecsCover (nsecs : List (ResourceRecord × Nsec)) (candidate : Name) : Bool :=
  nsecs.any fun entry =>
    canonicalIntervalContains entry.1.name entry.2.nextDomain candidate

/-- The name-error part of `verify_nsec_denial`. -/
def nsecNameError (qname : Name) (nsecs : List (ResourceRecord × Nsec)) :
    Except DnssecError Denial :=
  match nsecClosestStart qname nsecs with
  | none => .error .denialMismatch
  | some closestStart =>
    match ancestor qname (closestStart - 1), ancestor qname closestStart with
    | some nextCloser, some closest =>
      match wildcardOf closest with
      | .error error => .error error
      | .ok wildcard =>
        if nsecsCover nsecs nextCloser && nsecsCover nsecs wildcard then .ok .nameError
        else .error .denialMismatch
    | _, _ => .error .denialMismatch

/-- Verify an already signature-authenticated NSEC proof. -/
def verifyNsecDenial (qname : Name) (qtype : RecordType) (records : List ResourceRecord)
    (responseIsNameError : Bool) (limits : DnssecLimits) : Except DnssecError Denial :=
  if limits.maxDenialRecords < records.length then .error .limit
  else
    let nsecs := records.filterMap validNsec
    match nsecNoData qname qtype responseIsNameError nsecs with
    | .error error => .error error
    | .ok (some _) => .ok .noData
    | .ok none =>
      if !responseIsNameError then .error .denialMismatch
      else nsecNameError qname nsecs

/-- A name owns one of the supplied records. -/
def NsecsOwn (nsecs : List (ResourceRecord × Nsec)) (name : List Label) : Prop :=
  ∃ entry ∈ nsecs, entry.1.name.labels = name

/-- A name is covered by one of the supplied records. -/
def NsecsCover (nsecs : List (ResourceRecord × Nsec)) (name : List Label) : Prop :=
  ∃ entry ∈ nsecs, Zone.Covers entry.1.name.labels entry.2.nextDomain.labels name

theorem nsecsCover_iff (nsecs : List (ResourceRecord × Nsec)) (candidate : Name) :
    nsecsCover nsecs candidate = true ↔ NsecsCover nsecs candidate.labels := by
  simp [nsecsCover, NsecsCover]

private theorem nsecClosestStart_test (qname : Name) (nsecs : List (ResourceRecord × Nsec))
    (start : Nat) (inside : start ≤ qname.labels.length) :
    (match ancestor qname start with
      | some candidate => nsecs.any fun entry => entry.1.name = candidate
      | none => false) = true ↔ NsecsOwn nsecs (qname.labels.drop start) := by
  rw [ancestor_of_le inside]
  simp [NsecsOwn, ← Name.labels_inj]

/-- A name error is accepted exactly when the name below the longest supplied
ancestor and the wildcard child of that ancestor are both covered. -/
theorem nsecNameError_eq_ok_iff (qname : Name) (nsecs : List (ResourceRecord × Nsec)) :
    nsecNameError qname nsecs = .ok .nameError ↔
      ∃ label encloser, Zone.IsLongestAncestor (NsecsOwn nsecs) qname.labels encloser ∧
        label :: encloser <:+ qname.labels ∧ NsecsCover nsecs (label :: encloser) ∧
        NsecsCover nsecs (star :: encloser) := by
  have search := Zone.find_ancestor_eq_some_iff (nsecClosestStart_test qname nsecs)
  constructor
  · intro accepted
    unfold nsecNameError at accepted
    cases found : nsecClosestStart qname nsecs with
    | none => simp [found] at accepted
    | some start =>
      obtain ⟨positive, inside, owned⟩ := (search start).mp found
      have longest := (Zone.isLongestAncestor_drop_iff positive inside).mpr owned
      obtain ⟨label, nextCloser⟩ := Zone.exists_nextCloser longest.1 longest.2.1
      have nextCloser_eq := Zone.cons_drop_suffix positive inside nextCloser
      refine ⟨label, qname.labels.drop start, longest, nextCloser, ?_⟩
      simp only [found, ancestor_of_le inside,
        ancestor_of_le (show start - 1 ≤ qname.labels.length by omega), wildcardOf,
        Name.fromLabels_of_valid (validLabels_star_cons nextCloser)] at accepted
      split at accepted
      · rename_i covered
        rw [Bool.and_eq_true, nsecsCover_iff, nsecsCover_iff] at covered
        simpa only [nextCloser_eq] using covered
      · contradiction
  · rintro ⟨label, encloser, longest, nextCloser, nextCovered, wildcardCovered⟩
    obtain ⟨start, positive, inside, rfl⟩ :=
      Zone.exists_drop_of_suffix longest.1 longest.2.1
    have owned := (Zone.isLongestAncestor_drop_iff positive inside).mp longest
    have found : nsecClosestStart qname nsecs = some start :=
      (search start).mpr ⟨positive, inside, owned⟩
    have nextCloser_eq := Zone.cons_drop_suffix positive inside nextCloser
    unfold nsecNameError
    simp only [found, ancestor_of_le inside,
      ancestor_of_le (show start - 1 ≤ qname.labels.length by omega), wildcardOf,
      Name.fromLabels_of_valid (validLabels_star_cons nextCloser)]
    rw [if_pos]
    rw [Bool.and_eq_true, nsecsCover_iff, nsecsCover_iff]
    exact ⟨by simpa only [nextCloser_eq] using nextCovered, wildcardCovered⟩

/-- In a name-error response the no-data loop matches nothing. -/
theorem nsecNoData_nameError (qname : Name) (qtype : RecordType)
    (nsecs : List (ResourceRecord × Nsec)) :
    nsecNoData qname qtype true nsecs = .ok none :=
  findNoData_of_noMatch (by simp)

theorem verifyNsecDenial_nameError_iff (qname : Name) (qtype : RecordType)
    (records : List ResourceRecord) (limits : DnssecLimits) :
    verifyNsecDenial qname qtype records true limits = .ok .nameError ↔
      records.length ≤ limits.maxDenialRecords ∧
        nsecNameError qname (records.filterMap validNsec) = .ok .nameError := by
  unfold verifyNsecDenial
  simp only [nsecNoData_nameError, Bool.not_true, Bool.false_eq_true, if_false]
  split
  · rename_i tooMany
    simp only [reduceCtorEq, false_iff, not_and]
    intro fits
    omega
  · rename_i fits
    simp [Nat.le_of_not_lt fits]

/-- The NSEC record that the zone publishes for one of its owners. -/
def IsNsecRecord (zone : Zone Label) (record : ResourceRecord) : Prop :=
  record.class_ = classIn ∧ record.recordType = .nsec ∧ ∃ nsec, record.rdata = .nsec nsec ∧
      zone.IsNextOwner record.name.labels nsec.nextDomain.labels ∧
      ∃ blocks : Blocks, nsec.typeBitmaps = blocks.encode ∧
        blocks.has = zone.types record.name.labels

/-- A name owns one of the records. -/
def RecordsOwn (records : List ResourceRecord) (name : List Label) : Prop :=
  ∃ record ∈ records, record.name.labels = name

/-- One of the records is an NSEC record from `owner` to `next`. -/
def RecordsLink (records : List ResourceRecord) (owner next : List Label) : Prop :=
  ∃ record ∈ records, record.name.labels = owner ∧
    ∃ nsec, record.rdata = .nsec nsec ∧ nsec.nextDomain.labels = next

section

variable {zone : Zone Label} {records : List ResourceRecord}
  (genuine : ∀ record ∈ records, IsNsecRecord zone record)

include genuine

theorem validNsec_of_genuine {record : ResourceRecord} (mem : record ∈ records) :
    ∃ nsec, record.rdata = .nsec nsec ∧ validNsec record = some (record, nsec) := by
  obtain ⟨class_eq, type_eq, nsec, rdata_eq, _⟩ := genuine record mem
  exact ⟨nsec, rdata_eq, by simp [validNsec, class_eq, type_eq, rdata_eq]⟩

theorem mem_filterMap_validNsec_iff (record : ResourceRecord) (nsec : Nsec) :
    (record, nsec) ∈ records.filterMap validNsec ↔
      record ∈ records ∧ record.rdata = .nsec nsec := by
  rw [List.mem_filterMap]
  constructor
  · rintro ⟨source, mem, valid⟩
    obtain ⟨sourceNsec, rdata_eq, source_eq⟩ := validNsec_of_genuine genuine mem
    rw [source_eq, Option.some.injEq, Prod.mk.injEq] at valid
    obtain ⟨rfl, rfl⟩ := valid
    exact ⟨mem, rdata_eq⟩
  · rintro ⟨mem, rdata_eq⟩
    obtain ⟨sourceNsec, source_rdata, valid⟩ := validNsec_of_genuine genuine mem
    rw [rdata_eq, Rdata.nsec.injEq] at source_rdata
    exact ⟨record, mem, source_rdata ▸ valid⟩

theorem nsecsOwn_iff (name : List Label) :
    NsecsOwn (records.filterMap validNsec) name ↔ RecordsOwn records name := by
  constructor
  · rintro ⟨⟨record, nsec⟩, mem, owner_eq⟩
    exact ⟨record, ((mem_filterMap_validNsec_iff genuine record nsec).mp mem).1, owner_eq⟩
  · rintro ⟨record, mem, owner_eq⟩
    obtain ⟨nsec, rdata_eq, _⟩ := validNsec_of_genuine genuine mem
    exact ⟨(record, nsec), (mem_filterMap_validNsec_iff genuine record nsec).mpr
      ⟨mem, rdata_eq⟩, owner_eq⟩

theorem nsecsCover_filterMap_iff (name : List Label) :
    NsecsCover (records.filterMap validNsec) name ↔
      ∃ owner next, RecordsLink records owner next ∧ Zone.Covers owner next name := by
  constructor
  · rintro ⟨⟨record, nsec⟩, mem, covered⟩
    obtain ⟨recordMem, rdata_eq⟩ := (mem_filterMap_validNsec_iff genuine record nsec).mp mem
    exact ⟨_, _, ⟨record, recordMem, rfl, nsec, rdata_eq, rfl⟩, covered⟩
  · rintro ⟨_, _, ⟨record, recordMem, rfl, nsec, rdata_eq, rfl⟩, covered⟩
    exact ⟨(record, nsec), (mem_filterMap_validNsec_iff genuine record nsec).mpr
      ⟨recordMem, rdata_eq⟩, covered⟩

/-- Supplied links are links of the zone's owner chain. -/
theorem isNextOwner_of_recordsLink {owner next : List Label}
    (link : RecordsLink records owner next) : zone.IsNextOwner owner next := by
  obtain ⟨record, mem, rfl, nsec, rdata_eq, rfl⟩ := link
  obtain ⟨_, _, genuineNsec, genuineRdata, next_eq, _⟩ := genuine record mem
  rw [rdata_eq, Rdata.nsec.injEq] at genuineRdata
  exact genuineRdata ▸ next_eq

theorem mem_owners_of_recordsOwn {name : List Label} (owned : RecordsOwn records name) :
    name ∈ zone.owners := by
  obtain ⟨record, mem, rfl⟩ := owned
  obtain ⟨_, _, _, _, link, _⟩ := genuine record mem
  exact link.1

end

/-- The supplied records skip an empty non-terminal on the way to the name: the
name one label below the longest supplied ancestor is covered by a record that
leads below it, the wildcard child of that ancestor is covered too, and the
zone has an owner at or below the name, or a wildcard under the skipped name
that answers for it. -/
def SkipsEmptyNonTerminal (zone : Zone Label) (records : List ResourceRecord)
    (name : List Label) : Prop :=
  ∃ label encloser, Zone.IsLongestAncestor (RecordsOwn records) name encloser ∧
    label :: encloser <:+ name ∧
    (∃ owner next, RecordsLink records owner next ∧
      Zone.Covers owner next (label :: encloser) ∧ label :: encloser <:+ next) ∧
    (∃ owner next, RecordsLink records owner next ∧ Zone.Covers owner next (star :: encloser)) ∧
    ((∃ owner ∈ zone.owners, name <:+ owner) ∨
      ∃ deeper, label :: encloser <:+ deeper ∧ zone.IsClosestEncloser name deeper ∧
        star :: deeper ∈ zone.owners)

theorem verifyNsecDenial_genuine_iff {zone : Zone Label} {records : List ResourceRecord}
    (genuine : ∀ record ∈ records, IsNsecRecord zone record)
    (qname : Name) (qtype : RecordType) (limits : DnssecLimits) :
    verifyNsecDenial qname qtype records true limits = .ok .nameError ↔
      records.length ≤ limits.maxDenialRecords ∧ ∃ label encloser,
          Zone.IsLongestAncestor (RecordsOwn records) qname.labels encloser ∧
          label :: encloser <:+ qname.labels ∧
          (∃ owner next, RecordsLink records owner next ∧
            Zone.Covers owner next (label :: encloser)) ∧
          ∃ owner next, RecordsLink records owner next ∧
            Zone.Covers owner next (star :: encloser) := by
  rw [verifyNsecDenial_nameError_iff, nsecNameError_eq_ok_iff]
  have own_eq : NsecsOwn (records.filterMap validNsec) = RecordsOwn records :=
    funext fun name => propext (nsecsOwn_iff genuine name)
  simp only [own_eq, nsecsCover_filterMap_iff genuine]

/-- An accepted name error over genuine records is a denial of the query name
exactly when the records do not skip an empty non-terminal under which the name
or a wildcard for it is present. -/
theorem verifyNsecDenial_nameError_denies_iff (zone : Zone Label) (records : List ResourceRecord)
    (genuine : ∀ record ∈ records, IsNsecRecord zone record)
    (qname : Name) (qtype : RecordType) (limits : DnssecLimits) :
    (verifyNsecDenial qname qtype records true limits = .ok .nameError →
        zone.Denies star qname.labels) ↔
      ¬ (records.length ≤ limits.maxDenialRecords ∧
        SkipsEmptyNonTerminal zone records qname.labels) := by
  rw [verifyNsecDenial_genuine_iff genuine]
  constructor
  · rintro denies ⟨fits, label, encloser, longest, nextCloser,
      ⟨owner, next, link, covered, _⟩, wildcardCovered, present⟩
    have denied := denies ⟨fits, label, encloser, longest, nextCloser,
      ⟨owner, next, link, covered⟩, wildcardCovered⟩
    obtain ⟨absent, noWildcard⟩ := (zone.denies_iff star qname.labels).mp denied
    rcases present with occurs | ⟨deeper, _, closest, wildcardMem⟩
    · exact absent occurs
    · exact noWildcard deeper closest wildcardMem
  · rintro noSkip ⟨fits, label, encloser, longest, nextCloser,
      ⟨owner, next, link, covered⟩, wildcardCovered⟩
    by_contra notDenied
    apply noSkip
    have chainLink := isNextOwner_of_recordsLink genuine link
    have encloserOccurs : zone.Occurs encloser :=
      Zone.occurs_of_mem (mem_owners_of_recordsOwn genuine longest.2.2.1)
    have nextCloserOccurs : zone.Occurs (label :: encloser) := by
      by_contra absent
      apply notDenied
      rw [Zone.denies_iff]
      refine ⟨fun occurs => absent (occurs.of_suffix nextCloser), ?_⟩
      intro closest isClosest wildcardMem
      have closest_eq := isClosest.unique
        (Zone.isClosestEncloser_of_nextCloser encloserOccurs absent nextCloser)
      subst closest_eq
      obtain ⟨wildcardOwner, wildcardNext, wildcardLink, covers⟩ := wildcardCovered
      exact Zone.notMem_of_covers (isNextOwner_of_recordsLink genuine wildcardLink)
        covers wildcardMem
    refine ⟨fits, label, encloser, longest, nextCloser, ⟨owner, next, link, covered,
      (Zone.occurs_iff_suffix_next chainLink covered).mp nextCloserOccurs⟩,
      wildcardCovered, ?_⟩
    by_cases occurs : zone.Occurs qname.labels
    · exact .inl occurs
    · right
      rw [Zone.denies_iff] at notDenied
      push Not at notDenied
      obtain ⟨deeper, closest, wildcardMem⟩ := notDenied occurs
      exact ⟨deeper, closest.2.2 _ nextCloser nextCloserOccurs, closest, wildcardMem⟩

namespace ServiceZone

def apexLabels : List Label :=
  [[101, 120, 97, 109, 112, 108, 101]]

/-- `example.` -/
def apex : Name :=
  ⟨apexLabels, by decide⟩

/-- `_443._tcp.example.` -/
def service : Name :=
  ⟨[95, 52, 52, 51] :: [95, 116, 99, 112] :: apexLabels, by decide⟩

/-- NS, SOA, RRSIG, NSEC and DNSKEY. -/
def apexTypes : Blocks :=
  ⟨[⟨0, [0x22, 0, 0, 0, 0, 0x03, 0x80], by decide, by decide⟩], by simp⟩

/-- RRSIG, NSEC and TLSA. -/
def serviceTypes : Blocks :=
  ⟨[⟨0, [0, 0, 0, 0, 0, 0x03, 0x08], by decide, by decide⟩], by simp⟩

/-- A zone with TLSA records at `_443._tcp.example.` and nothing at
`_tcp.example.` -/
def zone : Zone Label where
  apex := apex.labels
  owners := {apex.labels, service.labels}
  types name code :=
    (name == apex.labels && apexTypes.has code) || (name == service.labels && serviceTypes.has code)
  apex_mem := by decide
  apex_suffix := by decide
  types_mem _ _ := Zone.mem_pair_of_types

theorem types_apex : zone.types apex.labels = apexTypes.has := by
  have ne : (apex.labels == service.labels) = false := by decide
  funext code
  simp [zone, ne]

/-- The apex record of the chain, which leads to the TLSA owner. -/
def apexNsec : ResourceRecord where
  name := apex
  recordType := .nsec
  class_ := classIn
  ttl := 300
  rdata := .nsec ⟨service, apexTypes.encode⟩

theorem isNsecRecord_apexNsec : IsNsecRecord zone apexNsec :=
  ⟨rfl, rfl, _, rfl, by decide, apexTypes, rfl, types_apex.symm⟩

end ServiceZone

open ServiceZone in
theorem verifyNsecDenial_nameError_denies_iff_service :
    (∀ record ∈ [apexNsec], IsNsecRecord zone record) ∧
      ((verifyNsecDenial service .tlsa [apexNsec] true .default = .ok .nameError →
          zone.Denies star service.labels) ↔
        ¬ ([apexNsec].length ≤ DnssecLimits.default.maxDenialRecords ∧
          SkipsEmptyNonTerminal zone [apexNsec] service.labels)) := by
  have genuine : ∀ record ∈ [apexNsec], IsNsecRecord zone record := by
    simpa using isNsecRecord_apexNsec
  exact ⟨genuine, verifyNsecDenial_nameError_denies_iff zone _ genuine service .tlsa .default⟩

open ServiceZone in
/-- The apex record alone is accepted as a name error for the TLSA owner. -/
theorem verifyNsecDenial_nameError_service :
    (∀ record ∈ [apexNsec], IsNsecRecord zone record) ∧ zone.apex <:+ service.labels ∧
      zone.Authoritative service.labels ∧
      verifyNsecDenial service .tlsa [apexNsec] true .default = .ok .nameError ∧
      ¬ zone.Denies star service.labels := by
  refine ⟨by simpa using isNsecRecord_apexNsec, by decide, by decide, rfl, ?_⟩
  intro denied
  exact denied.1 service.labels (by decide) List.suffix_rfl

end HnsDaneEngine.Dnssec
