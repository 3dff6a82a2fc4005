import HnsDaneEngine.Dnssec.Canonical
import HnsDaneEngine.Dnssec.Rdata

/-!
# The signed form of an RRset

RFC 4034 section 3.1.8.1 signs the RRSIG RDATA without the signature, followed by the canonical
records in the order of their canonical RDATA (section 6.3).  The form is stated from the fields
of the records and compared with what `rrsig_signed_data` writes.
-/

namespace HnsDaneEngine.Dnssec

open Control HnsDaneEngine.Frame Wire

/-- The RRSIG RDATA in front of the signature. -/
def signedFields (signature : Rrsig) : List RdataField :=
  [.number 2 signature.typeCovered.code.toNat, .number 1 signature.algorithm.toNat,
    .number 1 signature.labels.toNat, .number 4 signature.originalTtl.toNat,
    .number 4 signature.expiration.toNat, .number 4 signature.inception.toNat,
    .number 2 signature.keyTag.toNat, .name signature.signer.labels]

/-- The owner in signed data: the name itself when the RRSIG counts all its labels, and
otherwise the wildcard above the labels that it counts. -/
def signedOwner (owner : List Label) (count : Nat) : Option (List Label) :=
  if owner.length = count then some owner
  else if count < owner.length then some (star :: owner.drop (owner.length - count))
  else none

/-- A record with its canonical owner and RDATA under a signature. -/
structure CanonicalRecord (signature : Rrsig) where
  record : ResourceRecord
  owner : List Label
  rdata : Octets
  owner_eq : signedOwner record.name.labels signature.labels.toNat = some owner
  rdata_canonical : HasCanonicalRdata record rdata
  rdata_fits : rdata.length < 65536

namespace CanonicalRecord

variable {signature : Rrsig}

/-- The canonical record: owner, type, class, original TTL, RDATA length and RDATA. -/
def fields (canonical : CanonicalRecord signature) : List RdataField :=
  [.name canonical.owner, .number 2 canonical.record.recordType.code.toNat,
    .number 2 canonical.record.class_.toNat, .number 4 signature.originalTtl.toNat,
    .number 2 canonical.rdata.length, .octets canonical.rdata]

def wire (canonical : CanonicalRecord signature) : Octets :=
  canonical.fields.flatMap fun field => field.canonical.wire

end CanonicalRecord

/-- The RRSIG RDATA without the signature, followed by the canonical form of each record in the
order of the canonical RDATA. -/
def IsRfcSignedData (records : List ResourceRecord) (signature : Rrsig) (output : Octets) : Prop :=
  ∃ ordered : List (CanonicalRecord signature),
    (ordered.map CanonicalRecord.record).Perm records ∧
      (ordered.map CanonicalRecord.rdata).Pairwise (· ≤ ·) ∧
        output = (signedFields signature).flatMap (fun field => field.canonical.wire) ++
          ordered.flatMap CanonicalRecord.wire

/-- No RDATA of the list sorts after a longer one. -/
def LengthsAgree (records : List ResourceRecord) : Prop :=
  ∀ shorter ∈ records, ∀ longer ∈ records, ∀ shorterRdata longerRdata,
    HasRdata shorter shorterRdata → HasRdata longer longerRdata →
      shorterRdata.length < longerRdata.length → shorterRdata < longerRdata

@[simp]
theorem wire_number_two (value : Nat) : (RdataField.number 2 value).wire = u16 value := by
  simp only [RdataField.wire, Codec.leOctets, u16, List.reverse_cons, List.reverse_nil,
    List.nil_append, List.cons_append, List.cons.injEq, ← UInt8.toNat_inj]
  simp

@[simp]
theorem wire_u8 (value : UInt8) : (RdataField.number 1 value.toNat).wire = [value] := by
  simp [RdataField.wire, Codec.leOctets]

@[simp]
theorem wire_u32 (value : UInt32) : (RdataField.number 4 value.toNat).wire = writeU32 value := by
  have value_lt := value.toNat_lt
  simp only [RdataField.wire, Codec.leOctets, writeU32, List.reverse_cons, List.reverse_nil,
    List.nil_append, List.cons_append, List.cons.injEq, ← UInt8.toNat_inj]
  simp [UInt32.toNat_shiftRight, Nat.shiftRight_eq_div_pow]
  omega

@[simp]
theorem canonical_labels (name : Name) :
    (RdataField.name name.labels).canonical = .name name.labels :=
  RdataField.canonical_name name.valid.canonical

theorem signedFields_wire (signature : Rrsig) :
    (signedFields signature).flatMap (fun field => field.canonical.wire) =
      rrsigFields signature ++ wireOf signature.signer.labels := by
  simp [signedFields, rrsigFields, writeU16]

variable {record : ResourceRecord} {records : List ResourceRecord} {signature : Rrsig}
  {fields : List RdataField} {header raw : Octets} {ordered : List (CanonicalRecord signature)}

theorem encodeCounted_eq_ok {octets encoded : Octets}
    (encoded_ok : encodeCounted octets = .ok encoded) :
    (RdataField.text octets).wire = encoded := by
  unfold encodeCounted at encoded_ok
  split_ifs at encoded_ok
  exact Except.ok.inj encoded_ok

theorem encodeStrings_eq_ok {strings : List Octets} {encoded : Octets}
    (encoded_ok : encodeStrings strings = .ok encoded) :
    (strings.map RdataField.text).flatMap RdataField.wire = encoded := by
  induction strings generalizing encoded with
  | nil => exact Except.ok.inj encoded_ok
  | cons string rest ih =>
    rcases of_bind_ok encoded_ok with ⟨head, head_ok, tail_ok⟩
    rcases of_bind_ok tail_ok with ⟨tail, tail_ok, result_ok⟩
    rw [List.map_cons, List.flatMap_cons, ih tail_ok, encodeCounted_eq_ok head_ok]
    exact Except.ok.inj result_ok

/-- The RDATA that the source writes is that of the fields. -/
theorem flatMap_wire_of_canonicalRdata (rdata_ok : canonicalRdata record = .ok raw)
    (hasFields : HasFields record fields) : fields.flatMap RdataField.wire = raw := by
  cases hasFields with
  | raw octets rdata_eq fits wire_eq =>
    rw [wire_eq]
    unfold canonicalRdata at rdata_ok
    rw [rdata_eq] at rdata_ok
    split at rdata_ok <;> simp_all
  | decoded fields_eq =>
    unfold decodedFields at fields_eq
    split at fields_eq
    case h_15 => cases fields_eq
    all_goals
      rename_i type_eq rdata_eq
      cases fields_eq
      simp only [canonicalRdata, encodeRrsig, type_eq, rdata_eq, encodeName_eq] at rdata_ok
    case h_7 => exact encodeStrings_eq_ok rdata_ok
    case h_13 =>
      rcases of_bind_ok rdata_ok with ⟨salt, salt_ok, rest_ok⟩
      rcases of_bind_ok rest_ok with ⟨next, next_ok, result_ok⟩
      cases result_ok
      simp [encodeCounted_eq_ok salt_ok, encodeCounted_eq_ok next_ok, writeU16]
    all_goals
      cases rdata_ok
      simp [encodeDs, encodeDnskey, rrsigFields, writeU16]

/-- Decoded RDATA has its names in lower case. -/
theorem canonical_of_decoded {type : RecordType} {rdata : Rdata}
    (fields_eq : decodedFields type rdata = some fields) :
    ∀ field ∈ fields, field.canonical = field := by
  unfold decodedFields at fields_eq
  split at fields_eq
  case h_15 => cases fields_eq
  all_goals
    cases fields_eq
    simp

/-- RDATA without capitals in the names is its own canonical form. -/
theorem hasCanonicalRdata_of_ok (rdata_ok : canonicalRdata record = .ok raw)
    (lower : ∀ octets, record.rdata = .opaqueData octets → InLowerCase record) :
    HasCanonicalRdata record raw := by
  cases decoded : decodedFields record.recordType record.rdata with
  | some fields =>
    refine ⟨fields, .decoded decoded, ?_⟩
    rw [← flatMap_wire_of_canonicalRdata rdata_ok (.decoded decoded), List.flatMap_def,
      List.flatMap_def]
    congr 1
    apply List.map_congr_left
    intro field mem
    rw [canonical_of_decoded decoded field mem]
  | none =>
    have raw_eq : record.rdata = .opaqueData raw := by
      unfold canonicalRdata at rdata_ok
      split at rdata_ok <;> simp_all [decodedFields]
    rcases (lower raw raw_eq).hasCanonicalRdata with ⟨rdata, ⟨fields, hasFields, rfl⟩, canonical⟩
    rwa [flatMap_wire_of_canonicalRdata rdata_ok hasFields] at canonical

/-- The labels that a signature counts are written as they are. -/
theorem encodeStrings_labels {labels : List Label}
    (bounded : ∀ label ∈ labels, label.length ≤ maxLabelLen) :
    ∃ encoded, encodeStrings labels = .ok encoded ∧ wireOf labels = encoded ++ [0] := by
  induction labels with
  | nil => exact ⟨[], rfl, rfl⟩
  | cons label rest ih =>
    rw [List.forall_mem_cons] at bounded
    rcases ih bounded.2 with ⟨encoded, rest_ok, wire_eq⟩
    refine ⟨UInt8.ofNat label.length :: label ++ encoded, ?_, by simp [wireOf, wire_eq]⟩
    have fits : label.length < 256 := lt_of_le_of_lt bounded.1 (by decide)
    simp only [encodeStrings, encodeCounted, if_pos fits, rest_ok]
    rfl

theorem canonicalOwner_eq (name : Name) (count : Nat) :
    canonicalOwner name count =
      match signedOwner name.labels count with
      | some owner => .ok (wireOf owner)
      | none => .error .rrsetMismatch := by
  have bounded : ∀ label ∈ name.labels.drop (name.labels.length - count),
      label.length ≤ maxLabelLen := fun label mem =>
    name.valid.bounded label (List.mem_of_mem_drop mem)
  rcases encodeStrings_labels bounded with ⟨encoded, encoded_ok, wire_eq⟩
  rcases lt_trichotomy name.labels.length count with more | rfl | fewer
  · simp [canonicalOwner, signedOwner, more, more.ne, more.le.not_gt]
  · simp_all [canonicalOwner, signedOwner]
  · simp [canonicalOwner, signedOwner, fewer, fewer.ne', fewer.le.not_gt, encoded_ok, wireOf,
      wire_eq, star]

/-- The labels of the owner in signed data are in lower case. -/
theorem lower_of_signedOwner {name : Name} {count : Nat} {owner : List Label}
    (owner_eq : signedOwner name.labels count = some owner) :
    ∀ label ∈ owner, canonicalLabel label = label := by
  unfold signedOwner at owner_eq
  split_ifs at owner_eq
  · cases owner_eq
    exact name.valid.canonical
  · cases owner_eq
    rw [List.forall_mem_cons]
    exact ⟨rfl, fun label mem => name.valid.canonical label (List.mem_of_mem_drop mem)⟩

/-- A record of the form is the frame of its RDATA behind the header of the RRset. -/
theorem CanonicalRecord.wire_eq_frame (canonical : CanonicalRecord signature)
    (encoded_ok : canonicalRecord canonical.record signature =
      .ok (frame header (rdataOf canonical.record))) :
    canonical.wire = frame header canonical.rdata := by
  rcases canonicalRecord_eq_ok encoded_ok with ⟨-, -, rdata_ok, fits⟩
  rw [canonicalRecord, canonicalOwner_eq, canonical.owner_eq, rdata_ok] at encoded_ok
  simp only [if_pos fits, Except.ok.injEq, frame, ← List.append_assoc,
    List.append_cancel_right_eq] at encoded_ok
  simp [CanonicalRecord.wire, fields, frame, writeU16, ← encoded_ok,
    RdataField.canonical_name (lower_of_signedOwner canonical.owner_eq)]

/-- Each record whose names are in lower case is a record of the form, with its RDATA as it was
supplied. -/
theorem exists_canonicalRecords (encode : EncodeBehind signature header records)
    (lower : ∀ record ∈ records, ∀ raw, record.rdata = .opaqueData raw → InLowerCase record) :
    ∃ ordered : List (CanonicalRecord signature), ordered.map CanonicalRecord.record = records ∧
      ordered.map CanonicalRecord.rdata = records.map rdataOf := by
  induction records with
  | nil => exact ⟨[], rfl, rfl⟩
  | cons record rest ih =>
    rw [List.forall_mem_cons] at lower
    rcases List.forall_mem_cons.mp encode with ⟨⟨rdata_ok, fits, encoded_ok⟩, rest_encode⟩
    rcases ih rest_encode lower.2 with ⟨ordered, record_eq, rdata_eq⟩
    have owner_eq : ∃ owner,
        signedOwner record.name.labels signature.labels.toNat = some owner := by
      rcases canonicalRecord_eq_ok encoded_ok with ⟨owner, owner_ok, -⟩
      rw [canonicalOwner_eq] at owner_ok
      split at owner_ok
      · exact ⟨_, by assumption⟩
      · cases owner_ok
    rcases owner_eq with ⟨owner, owner_eq⟩
    exact ⟨⟨record, owner, rdataOf record, owner_eq, hasCanonicalRdata_of_ok rdata_ok lower.1,
      fits⟩ :: ordered, by rw [List.map_cons, record_eq], by rw [List.map_cons, rdata_eq]; rfl⟩

theorem flatMap_wire_of_encodeBehind
    (encode : EncodeBehind signature header (ordered.map CanonicalRecord.record)) :
    ordered.flatMap CanonicalRecord.wire =
      (ordered.map CanonicalRecord.rdata).flatMap (frame header) := by
  rw [List.flatMap_map, List.flatMap_def, List.flatMap_def]
  congr 1
  apply List.map_congr_left
  intro canonical mem
  exact canonical.wire_eq_frame (encode _ (List.mem_map_of_mem mem)).2.2

theorem HasFields.hasRdata (hasFields : HasFields record fields)
    (rdata_ok : canonicalRdata record = .ok raw) : HasRdata record raw :=
  ⟨fields, hasFields, (flatMap_wire_of_canonicalRdata rdata_ok hasFields).symm⟩

/-- The supplied RDATA of a record is the one that the source writes. -/
theorem hasRdata_eq {rdata : Octets} (rdata_ok : canonicalRdata record = .ok raw)
    (hasRdata : HasRdata record rdata) : rdata = raw := by
  rcases hasRdata with ⟨fields, hasFields, rfl⟩
  exact flatMap_wire_of_canonicalRdata rdata_ok hasFields

/-- Octets of one sum on both sides: the names of every record are in lower case. -/
theorem inLowerCase_of_perm
    (encode : EncodeBehind signature header (ordered.map CanonicalRecord.record))
    (perm : (ordered.map CanonicalRecord.rdata).Perm
      ((ordered.map CanonicalRecord.record).map rdataOf)) :
    ∀ record ∈ ordered.map CanonicalRecord.record, InLowerCase record := by
  have fields_of : ∀ canonical ∈ ordered, ∃ fields, HasFields canonical.record fields ∧
      canonical.rdata = fields.flatMap (fun field => field.canonical.wire) ∧
      fields.flatMap RdataField.wire = rdataOf canonical.record := by
    intro canonical mem
    rcases canonical.rdata_canonical with ⟨fields, hasFields, rdata_eq⟩
    exact ⟨fields, hasFields, rdata_eq,
      flatMap_wire_of_canonicalRdata (encode _ (List.mem_map_of_mem mem)).1 hasFields⟩
  have sum_eq := (perm.map octetSum).sum_eq
  rw [List.map_map, List.map_map, List.map_map] at sum_eq
  have each := eq_of_sum_eq (fun canonical mem => by
    rcases fields_of canonical mem with ⟨fields, -, rdata_eq, wire_eq⟩
    simpa [rdata_eq, ← wire_eq] using octetSum_le_of_fields fields) sum_eq.symm
  rw [List.forall_mem_map]
  intro canonical mem
  rcases fields_of canonical mem with ⟨fields, hasFields, rdata_eq, wire_eq⟩
  apply inLowerCase_of_octetSum hasFields
  rw [wire_eq, ← rdata_eq]
  exact each canonical mem

/-- The RDATA that the source carries undecoded has its names in lower case. -/
def NamesInLowerCase (records : List ResourceRecord) : Prop :=
  ∀ record ∈ records, ∀ raw, record.rdata = .opaqueData raw → InLowerCase record

/-- The RDATA in the order of the frames is sorted exactly when lengths agree with the octet
order. -/
theorem frameOrder_sorted_iff (encode : EncodeBehind signature header records)
    (hasRdata : ∀ record ∈ records, HasRdata record (rdataOf record)) :
    ((frameOrder header records).map rdataOf).Pairwise (· ≤ ·) ↔ LengthsAgree records := by
  have framePerm := frameOrder_perm header records
  have small : ∀ body ∈ (frameOrder header records).map rdataOf, body.length < 65536 := by
    simpa using fun record mem => (encode record (framePerm.mem_iff.mp mem)).2.1
  rw [pairwise_le_iff_of_frames_sorted header small
    (List.pairwise_map.mpr (frameOrder_pairwise header records))]
  simp only [List.forall_mem_map, framePerm.mem_iff]
  constructor
  · intro agrees shorter shorterMem longer longerMem shorterRdata longerRdata has hasLonger
    rw [hasRdata_eq (encode shorter shorterMem).1 has,
      hasRdata_eq (encode longer longerMem).1 hasLonger]
    exact agrees shorter shorterMem longer longerMem
  · intro agrees shorter shorterMem longer longerMem
    exact agrees shorter shorterMem longer longerMem _ _ (hasRdata shorter shorterMem)
      (hasRdata longer longerMem)

/-- What the source writes for an RRset has the form exactly when the names are in lower case
and no RDATA sorts after a longer one. -/
theorem isRfcSignedData_frameOrder_iff (encode : EncodeBehind signature header records) :
    IsRfcSignedData records signature
        (rrsigFields signature ++ wireOf signature.signer.labels ++
          ((frameOrder header records).map fun record => frame header (rdataOf record)).flatten) ↔
      NamesInLowerCase records ∧ LengthsAgree records := by
  have framePerm := frameOrder_perm header records
  have flatten_eq : ((frameOrder header records).map fun record =>
      frame header (rdataOf record)).flatten =
      ((frameOrder header records).map rdataOf).flatMap (frame header) := by
    simp [List.flatMap_def, Function.comp_def]
  rw [flatten_eq]
  constructor
  · rintro ⟨ordered, orderedPerm, sorted, output_eq⟩
    have orderedEncode := encode.of_perm orderedPerm
    rw [signedFields_wire, List.append_cancel_left_eq,
      flatMap_wire_of_encodeBehind orderedEncode] at output_eq
    have bodies_eq : (frameOrder header records).map rdataOf =
        ordered.map CanonicalRecord.rdata := by
      apply flatMap_frame_inj header _ _ output_eq
      · simpa using fun record mem => (encode record (framePerm.mem_iff.mp mem)).2.1
      · simpa using fun canonical _ => canonical.rdata_fits
    have lower : ∀ record ∈ records, InLowerCase record := by
      intro record mem
      apply inLowerCase_of_perm orderedEncode _ record (orderedPerm.mem_iff.mpr mem)
      rw [← bodies_eq]
      exact (framePerm.trans orderedPerm.symm).map rdataOf
    refine ⟨fun record mem _ _ => lower record mem, ?_⟩
    rw [← frameOrder_sorted_iff encode, bodies_eq]
    · exact sorted
    · intro record mem
      rcases lower record mem with ⟨fields, hasFields, -⟩
      exact hasFields.hasRdata (encode record mem).1
  · rintro ⟨lower, agrees⟩
    rcases exists_canonicalRecords (encode.of_perm framePerm)
      (fun record mem => lower record (framePerm.mem_iff.mp mem)) with
      ⟨ordered, record_eq, rdata_eq⟩
    refine ⟨ordered, record_eq ▸ framePerm, ?_, ?_⟩
    · rw [rdata_eq, frameOrder_sorted_iff encode]
      · exact agrees
      · intro record mem
        have rdata_ok := (encode record mem).1
        rcases hasCanonicalRdata_of_ok rdata_ok (lower record mem) with ⟨fields, hasFields, -⟩
        exact hasFields.hasRdata rdata_ok
    · rw [signedFields_wire, flatMap_wire_of_encodeBehind, rdata_eq]
      rw [record_eq]
      exact encode.of_perm framePerm

/-- Signed data of an RRset has the form exactly when the names are in lower case and no RDATA
sorts after a longer one. -/
theorem isRfcSignedData_iff (rrset : IsRrset records) {maximum : Nat} {output : Octets}
    (succeeds : rrsigSignedData records signature maximum = .ok output) :
    IsRfcSignedData records signature output ↔
      NamesInLowerCase records ∧ LengthsAgree records := by
  rcases rrsigSignedData_eq_ok rrset succeeds with ⟨header, encode, rfl⟩
  exact isRfcSignedData_frameOrder_iff encode

/-- When signed data is produced for an RRset, it has the RFC form, whatever the order of the
records, exactly when the names in undecoded RDATA are in lower case and no RDATA sorts after a
longer one. -/
theorem rrsigSignedData_isRfc_iff (records : List ResourceRecord) (rrset : IsRrset records)
    (signature : Rrsig) (maximum : Nat) (output : Octets)
    (succeeds : rrsigSignedData records signature maximum = .ok output) :
    (IsRfcSignedData records signature output ∧
      ∀ other, other.Perm records → rrsigSignedData other signature maximum = .ok output) ↔
    NamesInLowerCase records ∧ LengthsAgree records := by
  rw [isRfcSignedData_iff rrset succeeds, and_iff_left]
  intro other perm
  rcases rrsigSignedData_eq_ok rrset succeeds with ⟨header, encode, -⟩
  rw [rrsigSignedData_of_encodeBehind (encode.of_perm perm), map_frameOrder_of_perm perm,
    ← rrsigSignedData_of_encodeBehind encode]
  exact succeeds

namespace TlsaSet

/-- `_443._tcp.example.` -/
def owner : Name :=
  ⟨[[95, 52, 52, 51], [95, 116, 99, 112], [101, 120, 97, 109, 112, 108, 101]], by decide⟩

def association (usage matchingType : UInt8) (digest : Octets) : ResourceRecord where
  name := owner
  recordType := .tlsa
  class_ := classIn
  ttl := 300
  rdata := .tlsa ⟨usage, 1, matchingType, digest⟩

/-- A SHA-256 association of the end entity: 3 1 1. -/
def endEntity : ResourceRecord :=
  association 3 1 (List.replicate 32 0xaa)

/-- A SHA-512 association of the trust anchor: 2 1 2. -/
def trustAnchor : ResourceRecord :=
  association 2 2 (List.replicate 64 0xbb)

/-- A SHA-256 association of the trust anchor: 2 1 1. -/
def shortAnchor : ResourceRecord :=
  association 2 1 (List.replicate 32 0xbb)

/-- A DNAME record to `A.`, which is carried undecoded. -/
def dname : ResourceRecord where
  name := owner
  recordType := .unknown 39
  class_ := classIn
  ttl := 300
  rdata := .opaqueData [1, 0x41, 0]

/-- An RRSIG of the zone `example.` over records of a type. -/
def covering (type : RecordType) : Rrsig where
  typeCovered := type
  algorithm := 15
  labels := 3
  originalTtl := 300
  expiration := 1800000000
  inception := 1700000000
  keyTag := 4242
  signer := ⟨[[101, 120, 97, 109, 112, 108, 101]], by decide⟩
  signature := List.replicate 64 0

theorem isRrset_pair {first second : ResourceRecord} (name_eq : first.name = second.name)
    (type_eq : first.recordType = second.recordType) (class_eq : first.class_ = second.class_) :
    IsRrset [first, second] := by
  intro left leftMem right rightMem
  simp only [List.mem_cons, List.not_mem_nil, or_false] at leftMem rightMem
  rcases leftMem with rfl | rfl <;> rcases rightMem with rfl | rfl <;> simp_all

theorem exists_of_isSome (records : List ResourceRecord) (signature : Rrsig)
    (produced : (rrsigSignedData records signature 4096).toOption.isSome) :
    ∃ output, rrsigSignedData records signature 4096 = .ok output := by
  cases result : rrsigSignedData records signature 4096 with
  | error error => simp [result, Except.toOption] at produced
  | ok output => exact ⟨output, rfl⟩

end TlsaSet

open TlsaSet in
/-- Two associations of one length are in the form in either order. -/
theorem rrsigSignedData_isRfc_iff_tlsaSet :
    ∃ output, rrsigSignedData [endEntity, shortAnchor] (covering .tlsa) 4096 = .ok output ∧
      IsRfcSignedData [endEntity, shortAnchor] (covering .tlsa) output ∧
      ∀ other, other.Perm [endEntity, shortAnchor] →
        rrsigSignedData other (covering .tlsa) 4096 = .ok output := by
  have rrset : IsRrset [endEntity, shortAnchor] := isRrset_pair rfl rfl rfl
  rcases exists_of_isSome [endEntity, shortAnchor] (covering .tlsa) rfl with ⟨output, succeeds⟩
  refine ⟨output, succeeds, (rrsigSignedData_isRfc_iff _ rrset _ 4096 output succeeds).mpr ⟨?_, ?_⟩⟩
  · simp [NamesInLowerCase, endEntity, shortAnchor, association]
  intro shorter shorterMem longer longerMem shorterRdata longerRdata has hasLonger less
  have length_eq : ∀ record ∈ [endEntity, shortAnchor], ∀ rdata, HasRdata record rdata →
      rdata.length = 35 := by
    simp only [List.forall_mem_cons, List.not_mem_nil, false_imp_iff, implies_true, and_true]
    constructor
    · intro rdata has
      rw [@hasRdata_eq endEntity (rdataOf endEntity) rdata rfl has]
      rfl
    · intro rdata has
      rw [@hasRdata_eq shortAnchor (rdataOf shortAnchor) rdata rfl has]
      rfl
  rw [length_eq shorter shorterMem _ has, length_eq longer longerMem _ hasLonger] at less
  exact absurd less (lt_irrefl _)

open TlsaSet in
/-- The shorter association is written first although it sorts second, and the name in a DNAME
record keeps its capital. -/
theorem rrsigSignedData_not_isRfc_tlsaSet :
    (IsRrset [endEntity, trustAnchor] ∧
      ∃ output, rrsigSignedData [endEntity, trustAnchor] (covering .tlsa) 4096 = .ok output ∧
        ¬ IsRfcSignedData [endEntity, trustAnchor] (covering .tlsa) output) ∧
    IsRrset [dname] ∧
      ∃ output, rrsigSignedData [dname] (covering (.unknown 39)) 4096 = .ok output ∧
        ¬ IsRfcSignedData [dname] (covering (.unknown 39)) output := by
  have pair : IsRrset [endEntity, trustAnchor] := isRrset_pair rfl rfl rfl
  have single : IsRrset [dname] := by simp [IsRrset]
  rcases exists_of_isSome [endEntity, trustAnchor] (covering .tlsa) rfl with ⟨output, succeeds⟩
  rcases exists_of_isSome [dname] (covering (.unknown 39)) rfl with ⟨dnameOutput, dname_ok⟩
  refine ⟨⟨pair, output, succeeds, ?_⟩, single, dnameOutput, dname_ok, ?_⟩
  · rw [isRfcSignedData_iff pair succeeds]
    rintro ⟨-, agrees⟩
    have hasRdata : ∀ {record raw fields}, decodedFields record.recordType record.rdata =
        some fields → canonicalRdata record = .ok raw → HasRdata record raw :=
      fun decoded => HasFields.hasRdata (.decoded decoded)
    have less := agrees endEntity (by simp) trustAnchor (by simp) (rdataOf endEntity)
      (rdataOf trustAnchor) (hasRdata rfl rfl) (hasRdata rfl rfl) (by decide)
    exact absurd less (by decide)
  · rw [isRfcSignedData_iff single dname_ok]
    rintro ⟨lower, -⟩
    rcases lower dname (by simp) _ rfl with ⟨fields, hasFields, lower⟩
    cases hasFields with
    | decoded fields_eq => cases fields_eq
    | raw raw rdata_eq fits wire_eq =>
      cases rdata_eq
      rcases fits with _ | ⟨admits, ⟨⟩⟩
      rename_i field
      cases field with
      | name labels =>
        rw [List.flatMap_cons, List.flatMap_nil, List.append_nil, RdataField.wire_name] at wire_eq
        obtain rfl : labels = [[0x41]] := wireOf_inj admits.1 (by decide) wire_eq
        exact absurd (lower _ List.mem_cons_self [0x41] List.mem_cons_self) (by decide)
      | number | text | octets => exact admits

end HnsDaneEngine.Dnssec
