import HnsDaneEngine.Encoding.Codec
import HnsDaneEngine.Wire.Message
import Mathlib.Algebra.Order.BigOperators.Group.List
import Mathlib.Algebra.Order.Group.Nat

/-!
# Canonical RDATA

RFC 4034 section 6.2 lists the types whose RDATA holds names, and writes these names in lower
case.  The fields of an RDATA are stated here type by type; octets that a record carries
undecoded are read by the layout of its type code.
-/

namespace HnsDaneEngine.Dnssec

open Wire

/-- A field of an RDATA. -/
inductive RdataField
  /-- A number in network order. -/
  | number (width value : Nat)
  /-- A character string behind its length octet. -/
  | text (string : Octets)
  /-- An uncompressed name. -/
  | name (labels : List Label)
  | octets (raw : Octets)

namespace RdataField

/-- The field on the wire. -/
def wire : RdataField → Octets
  | number width value => (Codec.leOctets width value).reverse
  | text string => UInt8.ofNat string.length :: string
  | name labels => wireOf labels
  | octets raw => raw

/-- The field with names in lower case. -/
def canonical : RdataField → RdataField
  | name labels => name (labels.map canonicalLabel)
  | field => field

@[simp]
theorem wire_name (labels : List Label) : (name labels).wire = wireOf labels := rfl

@[simp]
theorem wire_octets (raw : Octets) : (octets raw).wire = raw := rfl

@[simp]
theorem canonical_number (width value : Nat) :
    (number width value).canonical = number width value := rfl

@[simp]
theorem canonical_text (string : Octets) : (text string).canonical = text string := rfl

@[simp]
theorem canonical_octets (raw : Octets) : (octets raw).canonical = octets raw := rfl

/-- Names in lower case stay. -/
theorem canonical_name {labels : List Label}
    (lower : ∀ label ∈ labels, canonicalLabel label = label) :
    (name labels).canonical = name labels := by
  rw [canonical, List.map_congr_left lower, List.map_id']

end RdataField

/-- What stands at a place of a layout. -/
inductive FieldKind
  | fixed (length : Nat)
  | text
  | name
  | rest

/-- The fields that may stand at a place. -/
def FieldKind.Admits : FieldKind → RdataField → Prop
  | fixed length, .octets raw => raw.length = length
  | text, .text string => string.length < 256
  | name, .name labels => (∀ label ∈ labels, label ≠ [] ∧ label.length ≤ maxLabelLen) ∧
      wireLen labels ≤ maxWireNameLen
  | rest, .octets _ => True
  | _, _ => False

/-- The layouts of the types with names, by type code.  An A6 record has its prefix length in
front, and no name when the prefix is empty. -/
def layout (raw : Octets) : Nat → List FieldKind
  | 2 | 3 | 4 | 5 | 7 | 8 | 9 | 12 | 39 => [.name]
  | 6 => [.name, .name, .fixed 20]
  | 14 | 17 => [.name, .name]
  | 15 | 18 | 21 | 36 => [.fixed 2, .name]
  | 24 | 46 => [.fixed 18, .name, .rest]
  | 26 => [.fixed 2, .name, .name]
  | 30 | 47 => [.name, .rest]
  | 33 => [.fixed 6, .name]
  | 35 => [.fixed 4, .text, .text, .text, .name]
  | 38 =>
    let length := (raw.headD 0).toNat
    .fixed (1 + (135 - length) / 8) :: if length = 0 then [] else [.name]
  | _ => [.rest]

/-- The fields of decoded RDATA. -/
def decodedFields : RecordType → Rdata → Option (List RdataField)
  | .a, .a address => some [.octets address.toList]
  | .aaaa, .aaaa address => some [.octets address.toList]
  | .ns, .ns name => some [.name name.labels]
  | .cname, .cname name => some [.name name.labels]
  | .soa, .soa soa => some [.name soa.mname.labels, .name soa.rname.labels,
      .number 4 soa.serial.toNat, .number 4 soa.refresh.toNat, .number 4 soa.retry.toNat,
      .number 4 soa.expire.toNat, .number 4 soa.minimum.toNat]
  | .mx, .mx mx => some [.number 2 mx.preference.toNat, .name mx.exchange.labels]
  | .txt, .txt strings => some (strings.map .text)
  | .srv, .srv srv => some [.number 2 srv.priority.toNat, .number 2 srv.weight.toNat,
      .number 2 srv.port.toNat, .name srv.target.labels]
  | .ds, .ds ds => some [.number 2 ds.keyTag.toNat, .number 1 ds.algorithm.toNat,
      .number 1 ds.digestType.toNat, .octets ds.digest]
  | .dnskey, .dnskey key => some [.number 2 key.flags.toNat, .number 1 key.protocol.toNat,
      .number 1 key.algorithm.toNat, .octets key.publicKey]
  | .rrsig, .rrsig signature => some [.number 2 signature.typeCovered.code.toNat,
      .number 1 signature.algorithm.toNat, .number 1 signature.labels.toNat,
      .number 4 signature.originalTtl.toNat, .number 4 signature.expiration.toNat,
      .number 4 signature.inception.toNat, .number 2 signature.keyTag.toNat,
      .name signature.signer.labels, .octets signature.signature]
  | .nsec, .nsec nsec => some [.name nsec.nextDomain.labels, .octets nsec.typeBitmaps]
  | .nsec3, .nsec3 nsec3 => some [.number 1 nsec3.hashAlgorithm.toNat,
      .number 1 nsec3.flags.toNat, .number 2 nsec3.iterations.toNat, .text nsec3.salt,
      .text nsec3.nextHashedOwner, .octets nsec3.typeBitmaps]
  | .tlsa, .tlsa tlsa => some [.number 1 tlsa.usage.toNat, .number 1 tlsa.selector.toNat,
      .number 1 tlsa.matchingType.toNat, .octets tlsa.associationData]
  | _, _ => none

/-- The fields of the RDATA of a record. -/
inductive HasFields (record : ResourceRecord) (fields : List RdataField) : Prop
  | decoded (fields_eq : decodedFields record.recordType record.rdata = some fields)
  | raw (raw : Octets) (rdata_eq : record.rdata = .opaqueData raw)
      (fits : List.Forall₂ FieldKind.Admits (layout raw record.recordType.code.toNat) fields)
      (wire_eq : fields.flatMap RdataField.wire = raw)

/-- The RDATA of a record, as it was supplied. -/
def HasRdata (record : ResourceRecord) (rdata : Octets) : Prop :=
  ∃ fields, HasFields record fields ∧ rdata = fields.flatMap RdataField.wire

/-- The canonical RDATA of a record. -/
def HasCanonicalRdata (record : ResourceRecord) (rdata : Octets) : Prop :=
  ∃ fields, HasFields record fields ∧ rdata = fields.flatMap fun field => field.canonical.wire

/-- The RDATA of a record reads as its type lays it out, with every name in lower case. -/
def InLowerCase (record : ResourceRecord) : Prop :=
  ∃ fields, HasFields record fields ∧
    ∀ labels, .name labels ∈ fields → ∀ label ∈ labels, canonicalLabel label = label

/-- The sum of the octets; lower case only raises it. -/
def octetSum (octets : Octets) : Nat :=
  (octets.map UInt8.toNat).sum

/-- Summands that are bounded by others with the same sum are equal to these. -/
theorem eq_of_sum_eq {α : Type} {members : List α} {low high : α → Nat}
    (bounded : ∀ member ∈ members, low member ≤ high member)
    (sum_eq : (members.map low).sum = (members.map high).sum) :
    ∀ member ∈ members, low member = high member := by
  intro member mem
  by_contra differs
  have less := List.sum_lt_sum low high bounded
    ⟨member, mem, lt_of_le_of_ne (bounded member mem) differs⟩
  exact absurd sum_eq less.ne

@[simp]
theorem octetSum_flatMap {α : Type} (members : List α) (write : α → Octets) :
    octetSum (members.flatMap write) = (members.map fun member => octetSum (write member)).sum := by
  induction members with
  | nil => rfl
  | cons member rest ih =>
    rw [List.flatMap_cons, octetSum, List.map_append, List.sum_append, List.map_cons,
      List.sum_cons, ← ih]
    rfl

theorem toNat_le_toAsciiLowercase (octet : UInt8) :
    octet.toNat ≤ (toAsciiLowercase octet).toNat := by
  unfold toAsciiLowercase
  split_ifs with upper
  · simp only [UInt8.le_iff_toNat_le, UInt8.toNat_add, UInt8.reduceToNat] at upper ⊢
    omega
  · exact le_rfl

theorem octetSum_le_canonicalLabel (label : Label) :
    octetSum label ≤ octetSum (canonicalLabel label) := by
  rw [octetSum, octetSum, canonicalLabel, List.map_map]
  exact List.sum_le_sum fun octet _ => toNat_le_toAsciiLowercase octet

theorem canonicalLabel_of_octetSum {label : Label}
    (sum_eq : octetSum label = octetSum (canonicalLabel label)) : canonicalLabel label = label := by
  rw [octetSum, octetSum, canonicalLabel, List.map_map] at sum_eq
  have octets_eq := eq_of_sum_eq (fun octet _ => toNat_le_toAsciiLowercase octet) sum_eq
  rw [canonicalLabel, List.map_congr_left fun octet mem =>
    (UInt8.toNat_inj.mp (octets_eq octet mem)).symm]
  exact List.map_id label

theorem octetSum_wireOf (labels : List Label) : octetSum (wireOf labels) =
    (labels.map fun label => (UInt8.ofNat label.length).toNat + octetSum label).sum := by
  induction labels with
  | nil => rfl
  | cons label rest ih =>
    rw [List.map_cons, List.sum_cons, ← ih]
    simp [octetSum, wireOf, Nat.add_assoc]

namespace RdataField

theorem octetSum_le_canonical (field : RdataField) :
    octetSum field.wire ≤ octetSum field.canonical.wire := by
  cases field with
  | name labels =>
    simp only [canonical, wire, octetSum_wireOf, List.map_map]
    apply List.sum_le_sum
    intro label _
    simpa using octetSum_le_canonicalLabel label
  | number | text | octets => exact le_rfl

/-- A name that the sum does not tell from its lower case is in lower case. -/
theorem lower_of_octetSum {labels : List Label}
    (sum_eq : octetSum (name labels).wire = octetSum (name labels).canonical.wire) :
    ∀ label ∈ labels, canonicalLabel label = label := by
  simp only [canonical, wire, octetSum_wireOf, List.map_map] at sum_eq
  intro label mem
  have label_eq := eq_of_sum_eq
    (fun label _ => by simpa using octetSum_le_canonicalLabel label) sum_eq label mem
  apply canonicalLabel_of_octetSum
  simpa using label_eq

theorem canonical_of_lower {field : RdataField}
    (lower : ∀ labels, field = name labels → ∀ label ∈ labels, canonicalLabel label = label) :
    field.canonical = field := by
  cases field with
  | name labels => exact canonical_name (lower labels rfl)
  | number | text | octets => rfl

end RdataField

variable {record : ResourceRecord} {fields : List RdataField}

/-- The sum of the octets does not fall from the supplied RDATA to the canonical one. -/
theorem octetSum_le_of_fields (fields : List RdataField) :
    octetSum (fields.flatMap RdataField.wire) ≤
      octetSum (fields.flatMap fun field => field.canonical.wire) := by
  rw [octetSum_flatMap, octetSum_flatMap]
  exact List.sum_le_sum fun field _ => field.octetSum_le_canonical

/-- It stays when the names are in lower case only. -/
theorem inLowerCase_of_octetSum (hasFields : HasFields record fields)
    (sum_eq : octetSum (fields.flatMap RdataField.wire) =
      octetSum (fields.flatMap fun field => field.canonical.wire)) : InLowerCase record := by
  rw [octetSum_flatMap, octetSum_flatMap] at sum_eq
  have field_eq := eq_of_sum_eq (fun field _ => field.octetSum_le_canonical) sum_eq
  exact ⟨fields, hasFields, fun labels mem => RdataField.lower_of_octetSum (field_eq _ mem)⟩

/-- RDATA in lower case is its own canonical form. -/
theorem InLowerCase.hasCanonicalRdata (lower : InLowerCase record) :
    ∃ rdata, HasRdata record rdata ∧ HasCanonicalRdata record rdata := by
  rcases lower with ⟨fields, hasFields, lower⟩
  refine ⟨_, ⟨fields, hasFields, rfl⟩, fields, hasFields, ?_⟩
  rw [List.flatMap_def, List.flatMap_def]
  congr 1
  apply List.map_congr_left
  intro field mem
  rw [RdataField.canonical_of_lower]
  rintro labels rfl
  exact lower labels mem

end HnsDaneEngine.Dnssec
