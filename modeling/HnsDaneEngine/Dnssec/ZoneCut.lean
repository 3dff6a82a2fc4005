import HnsDaneEngine.Dnssec.Nsec
import HnsDaneEngine.Dnssec.Nsec3

/-!
# No-data proofs at a zone cut

The records of a delegation point belong to the parent side of the cut, and
their bitmaps say nothing about the types that the child zone has at the same
name.  Neither no-data loop of the strict validator looks at NS and SOA, so both
accept such records: exactly those whose bitmaps lack the query type and CNAME.
-/

namespace HnsDaneEngine.Dnssec

open TypeBitmap Wire

variable {qtype : RecordType}

section

variable {zone : Zone Label} {records : List ResourceRecord}
  (genuine : ∀ record ∈ records, IsNsecRecord zone record)

include genuine

/-- The types in the bitmap of a genuine record are those of its owner. -/
theorem bitmapTypes_of_genuine {record : ResourceRecord} {nsec : Nsec}
    (mem : (record, nsec) ∈ records.filterMap validNsec) :
    (∃ blocks : Blocks, nsec.typeBitmaps = blocks.encode) ∧
      bitmapTypes nsec.typeBitmaps = zone.types record.name.labels := by
  obtain ⟨recordMem, rdata_eq⟩ := (mem_filterMap_validNsec_iff genuine record nsec).mp mem
  obtain ⟨_, _, genuineNsec, genuineRdata, _, blocks, bitmap_eq, has_eq⟩ :=
    genuine record recordMem
  rw [rdata_eq, Rdata.nsec.injEq] at genuineRdata
  subst genuineRdata
  exact ⟨⟨blocks, bitmap_eq⟩, by rw [bitmap_eq, bitmapTypes_encode, has_eq]⟩

theorem nsecNoData_eq_find (qname : Name) (qtype : RecordType) :
    nsecNoData qname qtype false (records.filterMap validNsec) =
      .ok ((records.filterMap validNsec).find? fun entry =>
        entry.1.name = qname && deniesType (bitmapTypes entry.2.typeBitmaps) qtype) := by
  rw [nsecNoData, findNoData_eq_find]
  · simp
  · rintro ⟨record, nsec⟩ mem
    exact (bitmapTypes_of_genuine genuine mem).1

/-- A matched record is the record of the query name. -/
theorem nsecNoData_eq_some {qname : Name} {record : ResourceRecord} {nsec : Nsec}
    (matched : nsecNoData qname qtype false (records.filterMap validNsec) =
      .ok (some (record, nsec))) :
    RecordsOwn records qname.labels ∧ bitmapTypes nsec.typeBitmaps = zone.types qname.labels ∧
      deniesType (zone.types qname.labels) qtype = true := by
  rw [nsecNoData_eq_find genuine, Except.ok.injEq] at matched
  have mem := List.mem_of_find?_eq_some matched
  have found := List.find?_some matched
  simp only [Bool.and_eq_true, decide_eq_true_eq] at found
  obtain ⟨rfl, denies⟩ := found
  have types_eq := (bitmapTypes_of_genuine genuine mem).2
  have recordMem := ((mem_filterMap_validNsec_iff genuine record nsec).mp mem).1
  exact ⟨⟨record, recordMem, rfl⟩, types_eq, types_eq ▸ denies⟩

/-- The record of the query name is matched when it lacks the query type and
CNAME. -/
theorem exists_nsecNoData_eq_some {qname : Name} (owned : RecordsOwn records qname.labels)
    (denies : deniesType (zone.types qname.labels) qtype = true) :
    ∃ record nsec, nsecNoData qname qtype false (records.filterMap validNsec) =
      .ok (some (record, nsec)) := by
  obtain ⟨record, recordMem, owner_eq⟩ := owned
  obtain ⟨nsec, rdata_eq, _⟩ := validNsec_of_genuine genuine recordMem
  have mem := (mem_filterMap_validNsec_iff genuine record nsec).mpr ⟨recordMem, rdata_eq⟩
  have found : ((records.filterMap validNsec).find? fun entry =>
      entry.1.name = qname && deniesType (bitmapTypes entry.2.typeBitmaps) qtype).isSome := by
    rw [List.find?_isSome]
    refine ⟨(record, nsec), mem, ?_⟩
    rw [(bitmapTypes_of_genuine genuine mem).2, owner_eq, denies]
    simp [Name.ext_labels owner_eq]
  obtain ⟨⟨matchedRecord, matchedNsec⟩, entry_eq⟩ := Option.isSome_iff_exists.mp found
  exact ⟨matchedRecord, matchedNsec, by rw [nsecNoData_eq_find genuine, entry_eq]⟩

end

theorem verifyNsecDenial_noData_iff (qname : Name) (qtype : RecordType)
    (records : List ResourceRecord) (limits : DnssecLimits) :
    verifyNsecDenial qname qtype records false limits = .ok .noData ↔
      records.length ≤ limits.maxDenialRecords ∧
        ∃ entry, nsecNoData qname qtype false (records.filterMap validNsec) = .ok (some entry) := by
  unfold verifyNsecDenial
  split
  · rename_i tooMany
    simp [Nat.not_le.mpr tooMany]
  · rename_i fits
    rw [Nat.not_lt] at fits
    dsimp only
    generalize nsecNoData qname qtype false (records.filterMap validNsec) = result
    rcases result with error | _ | entry <;> simp [fits]

/-- The bitmap of a record at a name says whether the name is a delegation
point. -/
theorem isZoneCut_iff_isDelegation {zone : Zone Label} {name : List Label}
    {bitmap : Octets} (types_eq : bitmapTypes bitmap = zone.types name) :
    IsZoneCut bitmap ↔ zone.IsDelegation name := by
  rw [IsZoneCut, types_eq]
  constructor
  · intro cut
    exact ⟨zone.types_mem name _ cut.1, cut⟩
  · intro delegation
    exact delegation.2

/-- The list contains the record of the query name, which is a delegation point
without the query type and without CNAME. -/
def SuppliesNsecCut (zone : Zone Label) (records : List ResourceRecord) (qname : Name)
    (qtype : RecordType) : Prop :=
  RecordsOwn records qname.labels ∧ zone.IsDelegation qname.labels ∧
    deniesType (zone.types qname.labels) qtype = true

theorem verifyNsecDenial_zoneCut_iff {zone : Zone Label} {records : List ResourceRecord}
    (genuine : ∀ record ∈ records, IsNsecRecord zone record) (qname : Name)
    (qtype : RecordType) (limits : DnssecLimits) :
    (verifyNsecDenial qname qtype records false limits = .ok .noData →
        ∀ record nsec, nsecNoData qname qtype false (records.filterMap validNsec) =
          .ok (some (record, nsec)) → ¬ IsZoneCut nsec.typeBitmaps) ↔
      ¬ (records.length ≤ limits.maxDenialRecords ∧
        SuppliesNsecCut zone records qname qtype) := by
  rw [verifyNsecDenial_noData_iff]
  constructor
  · rintro noCut ⟨fits, owned, delegation, denies⟩
    obtain ⟨record, nsec, matched⟩ := exists_nsecNoData_eq_some genuine owned denies
    apply noCut ⟨fits, _, matched⟩ record nsec matched
    exact (isZoneCut_iff_isDelegation (nsecNoData_eq_some genuine matched).2.1).mpr delegation
  · rintro notSupplied ⟨fits, _⟩ record nsec matched cut
    obtain ⟨owned, types_eq, denies⟩ := nsecNoData_eq_some genuine matched
    exact notSupplied ⟨fits, owned, (isZoneCut_iff_isDelegation types_eq).mp cut, denies⟩

section

variable {sha1 : Octets → Option Octets} {zone : Zone Label} {salt : Octets} {iterations : UInt16}
  {chain : zone.HashChain (hashOf sha1 salt iterations)} {name : List Label}

/-- The types in the bitmap of an entry are those of the listed name. -/
theorem PublishesNsec3.bitmapTypes_eq {owner : Octets} {nsec3 : Nsec3}
    (publishes : PublishesNsec3 chain name owner nsec3) :
    bitmapTypes nsec3.typeBitmaps = zone.types name := by
  obtain ⟨blocks, bitmap_eq, has_eq⟩ := publishes.types
  rw [bitmap_eq, bitmapTypes_encode, has_eq]

/-- Published data passes the record check when its parameters are within the
limits. -/
theorem PublishesNsec3.validateNsec3_eq {owner : Octets} {nsec3 : Nsec3}
    (publishes : PublishesNsec3 chain name owner nsec3) (limits : DnssecLimits) :
    validateNsec3 nsec3 limits = .ok () ↔
      iterations ≤ limits.maxNsec3Iterations ∧ salt.length ≤ 255 := by
  obtain ⟨optOut, flags_eq, link⟩ := publishes.link
  obtain ⟨next, _, next_eq⟩ := link.successor.next_mem
  have length := length_of_hashOf next_eq
  have flagBits : nsec3.flags &&& ~~~1 = 0 := by
    rw [flags_eq]
    cases optOut <;> decide
  unfold validateNsec3
  rw [publishes.hashAlgorithm_eq, publishes.salt_eq, publishes.iterations_eq, length, flagBits]
  simp [UInt16.not_lt]

/-- The list contains the record at a hash. -/
def RecordsHash (zone : Zone Label) (records : List ResourceRecord) (hash : Octets) : Prop :=
  ∃ record ∈ records, record.name.labels = Base32Hex.encode hash :: zone.apex

variable {apex : Name} {records : List ResourceRecord}
  (apex_eq : apex.labels = zone.apex)
  (genuine : ∀ record ∈ records, IsNsec3Record chain record)

include apex_eq genuine

theorem nsec3NoData_eq_find (hash : Octets) (qtype : RecordType) :
    nsec3NoData hash qtype false (records.filterMap (usableNsec3 apex)) =
      .ok ((records.filterMap (usableNsec3 apex)).find? fun entry =>
        entry.1 = hash && deniesType (bitmapTypes entry.2.typeBitmaps) qtype) := by
  rw [nsec3NoData, findNoData_eq_find]
  · simp
  · intro entry mem
    obtain ⟨name, publishes⟩ := publishes_of_mem_entries apex_eq genuine mem
    obtain ⟨blocks, bitmap_eq, _⟩ := publishes.types
    exact ⟨blocks, bitmap_eq⟩

/-- A matched entry is the data of the listed name with the query hash. -/
theorem nsec3NoData_eq_some {hash : Octets} {entry : Octets × Nsec3}
    (matched : nsec3NoData hash qtype false (records.filterMap (usableNsec3 apex)) =
      .ok (some entry)) :
    RecordsHash zone records hash ∧ ∃ name, PublishesNsec3 chain name hash entry.2 ∧
      deniesType (zone.types name) qtype = true := by
  rw [nsec3NoData_eq_find apex_eq genuine, Except.ok.injEq] at matched
  have mem := List.mem_of_find?_eq_some matched
  have found := List.find?_some matched
  simp only [Bool.and_eq_true, decide_eq_true_eq] at found
  obtain ⟨rfl, denies⟩ := found
  obtain ⟨record, recordMem, usable⟩ := List.mem_filterMap.mp mem
  obtain ⟨nsec3, name, owner, _, usable_eq, labels_eq, publishes⟩ :=
    usableNsec3_of_genuine apex_eq (genuine record recordMem)
  rw [usable_eq, Option.some.injEq] at usable
  subst usable
  exact ⟨⟨record, recordMem, labels_eq⟩, name, publishes, publishes.bitmapTypes_eq ▸ denies⟩

/-- The record at the query hash is matched when the listed name with that hash
lacks the query type and CNAME. -/
theorem exists_nsec3NoData_eq_some {hash : Octets}
    (supplied : RecordsHash zone records hash) (listed : name ∈ chain.names)
    (name_eq : hashOf sha1 salt iterations name = some hash)
    (denies : deniesType (zone.types name) qtype = true) :
    ∃ entry, nsec3NoData hash qtype false (records.filterMap (usableNsec3 apex)) =
      .ok (some entry) := by
  obtain ⟨record, recordMem, owner_eq⟩ := supplied
  obtain ⟨nsec3, member, owner, _, usable, labels_eq, publishes⟩ :=
    usableNsec3_of_genuine apex_eq (genuine record recordMem)
  obtain ⟨_, _, link⟩ := publishes.link
  have encoded_eq := (List.cons.inj (labels_eq.symm.trans owner_eq)).1
  have hash_eq : owner = hash := by
    have decoded := congrArg decodeBase32hex encoded_eq
    rw [decodeBase32hex_encode, decodeBase32hex_encode] at decoded
    exact Option.some.inj decoded
  subst hash_eq
  have member_eq := chain.hash_inj member link.name_mem name listed owner link.owner_eq name_eq
  subst member_eq
  have found : ((records.filterMap (usableNsec3 apex)).find? fun entry =>
      entry.1 = owner && deniesType (bitmapTypes entry.2.typeBitmaps) qtype).isSome := by
    rw [List.find?_isSome]
    refine ⟨(owner, nsec3), List.mem_filterMap.mpr ⟨record, recordMem, usable⟩, ?_⟩
    rw [publishes.bitmapTypes_eq, denies]
    simp
  obtain ⟨entry, entry_eq⟩ := Option.isSome_iff_exists.mp found
  exact ⟨entry, by rw [nsec3NoData_eq_find apex_eq genuine, entry_eq]⟩

/-- The entry loop over genuine records succeeds when their parameters are
within the limits, and only then if there is a record at all. -/
theorem nsec3Entries_of_genuine (limits : DnssecLimits) (nonempty : records ≠ [])
    (entries : List (Octets × Nsec3)) :
    nsec3Entries apex limits records = .ok entries ↔
      (iterations ≤ limits.maxNsec3Iterations ∧ salt.length ≤ 255) ∧
        entries = records.filterMap (usableNsec3 apex) := by
  rw [nsec3Entries_eq_ok_iff]
  apply and_congr_left'
  constructor
  · intro all
    obtain ⟨record, mem⟩ := List.exists_mem_of_ne_nil records nonempty
    obtain ⟨nsec3, _, _, valid, _, _, publishes⟩ :=
      usableNsec3_of_genuine apex_eq (genuine record mem)
    exact (publishes.validateNsec3_eq limits).mp (all record mem nsec3 valid)
  · intro within record mem nsec3 valid
    obtain ⟨genuineNsec3, _, _, genuineValid, _, _, publishes⟩ :=
      usableNsec3_of_genuine apex_eq (genuine record mem)
    rw [genuineValid, Option.some.injEq] at valid
    exact (valid ▸ publishes).validateNsec3_eq limits |>.mpr within

theorem verifyNsec3Denial_noData_iff (qname : Name) (qtype : RecordType) (limits : DnssecLimits) :
    verifyNsec3Denial sha1 apex qname qtype records false limits = .ok .noData ↔
      records.length ≤ limits.maxDenialRecords ∧ zone.apex <:+ qname.labels ∧
      (iterations ≤ limits.maxNsec3Iterations ∧ salt.length ≤ 255) ∧
      ∃ hash, hashOf sha1 salt iterations qname.labels = some hash ∧
        ∃ entry, nsec3NoData hash qtype false (records.filterMap (usableNsec3 apex)) =
          .ok (some entry) := by
  rw [verifyNsec3Denial_eq_ok_iff, apex_eq]
  apply and_congr_right'
  apply and_congr_right'
  constructor
  · rintro ⟨first, others, entries_ok, _, denialOf⟩
    have entries_eq := ((nsec3Entries_eq_ok_iff apex limits records _).mp entries_ok).2
    obtain ⟨_, publishes⟩ := publishes_of_mem_entries apex_eq genuine
      (entries_eq ▸ List.mem_cons_self)
    rw [publishes.salt_eq, publishes.iterations_eq, entries_eq] at denialOf
    exact (nsec3DenialOf_noData_iff _ _ _ _ _ _ _).mp denialOf
  · rintro ⟨within, hash, hash_eq, entry, matched⟩
    have entryMem : entry ∈ records.filterMap (usableNsec3 apex) := by
      rw [nsec3NoData_eq_find apex_eq genuine, Except.ok.injEq] at matched
      exact List.mem_of_find?_eq_some matched
    have nonempty : records ≠ [] := by
      rintro rfl
      simp at entryMem
    have entries_ok := (nsec3Entries_of_genuine apex_eq genuine limits nonempty _).mpr ⟨within, rfl⟩
    have denialOf := (nsec3DenialOf_noData_iff apex qname qtype salt iterations limits _).mpr
      ⟨within, hash, hash_eq, entry, matched⟩
    have published : ∀ other ∈ records.filterMap (usableNsec3 apex),
        ∃ name, PublishesNsec3 chain name other.1 other.2 := fun other otherMem =>
      publishes_of_mem_entries apex_eq genuine otherMem
    generalize records.filterMap (usableNsec3 apex) = entries at *
    cases entries with
    | nil => simp at entryMem
    | cons first others =>
      obtain ⟨_, firstPublishes⟩ := published first List.mem_cons_self
      refine ⟨first, others, entries_ok, ?_, ?_⟩
      · intro other mem
        obtain ⟨_, publishes⟩ := published other mem
        rw [publishes.hashAlgorithm_eq, publishes.iterations_eq, publishes.salt_eq,
          firstPublishes.hashAlgorithm_eq, firstPublishes.iterations_eq,
          firstPublishes.salt_eq]
        simp
      · rw [firstPublishes.iterations_eq, firstPublishes.salt_eq]
        exact denialOf

end

/-- The list contains the record at the query hash, and the listed name with
that hash is a delegation point without the query type and without CNAME. -/
def SuppliesNsec3Cut {sha1 : Octets → Option Octets} {zone : Zone Label}
    {salt : Octets} {iterations : UInt16}
    (chain : zone.HashChain (hashOf sha1 salt iterations)) (records : List ResourceRecord)
    (qname : Name) (qtype : RecordType) : Prop :=
  ∃ name hash, hashOf sha1 salt iterations qname.labels = some hash ∧
    RecordsHash zone records hash ∧ name ∈ chain.names ∧
    hashOf sha1 salt iterations name = some hash ∧ zone.IsDelegation name ∧
    deniesType (zone.types name) qtype = true

theorem verifyNsec3Denial_zoneCut_iff {sha1 : Octets → Option Octets}
    {zone : Zone Label} {salt : Octets} {iterations : UInt16}
    {chain : zone.HashChain (hashOf sha1 salt iterations)} {apex : Name}
    {records : List ResourceRecord} (apex_eq : apex.labels = zone.apex)
    (genuine : ∀ record ∈ records, IsNsec3Record chain record) (qname : Name)
    (qtype : RecordType) (limits : DnssecLimits) :
    (verifyNsec3Denial sha1 apex qname qtype records false limits = .ok .noData →
        ∀ hash entry, hashOf sha1 salt iterations qname.labels = some hash →
          nsec3NoData hash qtype false (records.filterMap (usableNsec3 apex)) =
            .ok (some entry) → ¬ IsZoneCut entry.2.typeBitmaps) ↔
      ¬ (records.length ≤ limits.maxDenialRecords ∧ zone.apex <:+ qname.labels ∧
        (iterations ≤ limits.maxNsec3Iterations ∧ salt.length ≤ 255) ∧
        SuppliesNsec3Cut chain records qname qtype) := by
  rw [verifyNsec3Denial_noData_iff apex_eq genuine]
  constructor
  · rintro noCut ⟨fits, below, within, name, hash, hash_eq, supplied, listed, name_eq,
      delegation, denies⟩
    obtain ⟨entry, matched⟩ :=
      exists_nsec3NoData_eq_some apex_eq genuine supplied listed name_eq denies
    apply noCut ⟨fits, below, within, hash, hash_eq, entry, matched⟩ hash entry hash_eq matched
    obtain ⟨_, member, publishes, _⟩ := nsec3NoData_eq_some apex_eq genuine matched
    obtain ⟨_, _, link⟩ := publishes.link
    have member_eq := chain.hash_inj member link.name_mem name listed hash link.owner_eq name_eq
    exact (isZoneCut_iff_isDelegation (member_eq ▸ publishes.bitmapTypes_eq)).mpr delegation
  · rintro notSupplied ⟨fits, below, within, _⟩ hash entry hash_eq matched cut
    obtain ⟨supplied, name, publishes, denies⟩ := nsec3NoData_eq_some apex_eq genuine matched
    obtain ⟨_, _, link⟩ := publishes.link
    exact notSupplied ⟨fits, below, within, name, hash, hash_eq, supplied, link.name_mem,
      link.owner_eq, (isZoneCut_iff_isDelegation publishes.bitmapTypes_eq).mp cut, denies⟩

/-- For every query type, a no-data result never rests on the record of
a delegation point exactly when no such record, without the query type and
without CNAME, is supplied at the query name. -/
theorem noData_not_zoneCut_iff (zone : Zone Label) (qname : Name) (qtype : RecordType)
    (limits : DnssecLimits) :
    (∀ records : List ResourceRecord, (∀ record ∈ records, IsNsecRecord zone record) →
      ((verifyNsecDenial qname qtype records false limits = .ok .noData →
          ∀ record nsec, nsecNoData qname qtype false (records.filterMap validNsec) =
            .ok (some (record, nsec)) → ¬ IsZoneCut nsec.typeBitmaps) ↔
        ¬ (records.length ≤ limits.maxDenialRecords ∧
          SuppliesNsecCut zone records qname qtype))) ∧
    ∀ (sha1 : Octets → Option Octets) (salt : Octets) (iterations : UInt16)
      (chain : zone.HashChain (hashOf sha1 salt iterations)) (apex : Name)
      (records : List ResourceRecord), apex.labels = zone.apex →
      (∀ record ∈ records, IsNsec3Record chain record) →
      ((verifyNsec3Denial sha1 apex qname qtype records false limits = .ok .noData →
          ∀ hash entry, hashOf sha1 salt iterations qname.labels = some hash →
            nsec3NoData hash qtype false (records.filterMap (usableNsec3 apex)) =
              .ok (some entry) → ¬ IsZoneCut entry.2.typeBitmaps) ↔
        ¬ (records.length ≤ limits.maxDenialRecords ∧ zone.apex <:+ qname.labels ∧
          (iterations ≤ limits.maxNsec3Iterations ∧ salt.length ≤ 255) ∧
          SuppliesNsec3Cut chain records qname qtype)) := by
  constructor
  · intro records genuine
    exact verifyNsecDenial_zoneCut_iff genuine qname qtype limits
  · intro sha1 salt iterations chain apex records apex_eq genuine
    exact verifyNsec3Denial_zoneCut_iff apex_eq genuine qname qtype limits

namespace CutZone

def subNsecBits : Octets :=
  [0x20, 0, 0, 0, 0, 0x03]

/-- NS, RRSIG and NSEC. -/
def subNsecTypes : Blocks :=
  ⟨[⟨0, subNsecBits, by decide, by decide⟩], by simp⟩

/-- The zone with NSEC records. -/
def nsecZone : Zone Label :=
  zoneWith ServiceZone.apexTypes subNsecTypes

/-- The NSEC record of the delegation, which closes the chain. -/
def subNsec : ResourceRecord where
  name := sub
  recordType := .nsec
  class_ := classIn
  ttl := 300
  rdata := .nsec ⟨apex, subNsecTypes.encode⟩

theorem isNsecRecord_subNsec : IsNsecRecord nsecZone subNsec :=
  ⟨rfl, rfl, _, rfl, by decide, subNsecTypes, rfl, (types_sub _ _).symm⟩

end CutZone

open CutZone in
theorem noData_not_zoneCut_iff_sub :
    ((verifyNsecDenial sub .a [subNsec] false .default = .ok .noData →
        ∀ record nsec, nsecNoData sub .a false ([subNsec].filterMap validNsec) =
          .ok (some (record, nsec)) → ¬ IsZoneCut nsec.typeBitmaps) ↔
      ¬ ([subNsec].length ≤ DnssecLimits.default.maxDenialRecords ∧
        SuppliesNsecCut nsecZone [subNsec] sub .a)) ∧
    ((verifyNsec3Denial sha1 apex sub .a [subNsec3, apexNsec3] false .default = .ok .noData →
        ∀ hash entry, hashOf sha1 [] 0 sub.labels = some hash →
          nsec3NoData hash .a false ([subNsec3, apexNsec3].filterMap (usableNsec3 apex)) =
            .ok (some entry) → ¬ IsZoneCut entry.2.typeBitmaps) ↔
      ¬ ([subNsec3, apexNsec3].length ≤ DnssecLimits.default.maxDenialRecords ∧
        zone.apex <:+ sub.labels ∧
        ((0 : UInt16) ≤ DnssecLimits.default.maxNsec3Iterations ∧ ([] : Octets).length ≤ 255) ∧
        SuppliesNsec3Cut chain [subNsec3, apexNsec3] sub .a)) := by
  have nsecGenuine : ∀ record ∈ [subNsec], IsNsecRecord nsecZone record := by
    simpa using isNsecRecord_subNsec
  exact ⟨(noData_not_zoneCut_iff nsecZone sub .a .default).1 _ nsecGenuine,
    (noData_not_zoneCut_iff zone sub .a .default).2 sha1 [] 0 chain apex _ rfl genuine⟩

open CutZone in
/-- The parent's record of the delegation is accepted as absence of A records. -/
theorem noData_zoneCut_sub :
    (∀ record ∈ [subNsec], IsNsecRecord nsecZone record) ∧
      verifyNsecDenial sub .a [subNsec] false .default = .ok .noData ∧
      (∃ record nsec, nsecNoData sub .a false ([subNsec].filterMap validNsec) =
        .ok (some (record, nsec)) ∧ IsZoneCut nsec.typeBitmaps) ∧
      nsecZone.IsDelegation sub.labels ∧
    (∀ record ∈ [subNsec3, apexNsec3], IsNsec3Record chain record) ∧
      verifyNsec3Denial sha1 apex sub .a [subNsec3, apexNsec3] false .default = .ok .noData ∧
      (∃ entry, nsec3NoData subHash .a false
        ([subNsec3, apexNsec3].filterMap (usableNsec3 apex)) = .ok (some entry) ∧
        IsZoneCut entry.2.typeBitmaps) ∧
      zone.IsDelegation sub.labels := by
  refine ⟨by simpa using isNsecRecord_subNsec, rfl, ⟨subNsec, _, rfl, ?_⟩, ?_,
    genuine, rfl, ⟨(subHash, _), rfl, ?_⟩, ?_⟩
  · constructor <;> rfl
  · decide
  · constructor <;> decide
  · decide

end HnsDaneEngine.Dnssec
