import HnsDaneEngine.Dnssec.Core
import HnsDaneEngine.Encoding.Frame
import Mathlib.Data.List.Sort

/-!
# Signed data of an RRset

`rrsig_signed_data` writes the RRSIG fields without the signature, followed by
the canonical encodings of the records.  The source sorts the whole encodings;
within one RRset these share everything up to the RDATA length, so that the
records come out by RDATA length first.
-/

namespace HnsDaneEngine.Dnssec

open HnsDaneEngine.Frame HnsDaneEngine.Order Wire

def writeU16 (value : UInt16) : Octets :=
  u16 value.toNat

def writeU32 (value : UInt32) : Octets :=
  [(value >>> 24).toUInt8, (value >>> 16).toUInt8, (value >>> 8).toUInt8, value.toUInt8]

def encodeName (name : Name) : Except DnssecError Octets :=
  match name.encode with
  | .ok encoded => .ok encoded
  | .error _ => .error .unsupportedRdata

@[simp]
theorem encodeName_eq (name : Name) : encodeName name = .ok (wireOf name.labels) := by
  rw [encodeName, name.encode_eq]

/-- A length octet followed by the octets, as in TXT strings and NSEC3 fields. -/
def encodeCounted (octets : Octets) : Except DnssecError Octets :=
  if octets.length < 256 then .ok (UInt8.ofNat octets.length :: octets)
  else .error .unsupportedRdata

def encodeDs (ds : Ds) : Octets :=
  writeU16 ds.keyTag ++ [ds.algorithm, ds.digestType] ++ ds.digest

def encodeDnskey (key : Dnskey) : Octets :=
  writeU16 key.flags ++ [key.protocol, key.algorithm] ++ key.publicKey

/-- The RRSIG fields before the signer name. -/
def rrsigFields (signature : Rrsig) : Octets :=
  writeU16 signature.typeCovered.code ++ [signature.algorithm, signature.labels] ++
    writeU32 signature.originalTtl ++ writeU32 signature.expiration ++
    writeU32 signature.inception ++ writeU16 signature.keyTag

def encodeRrsig (signature : Rrsig) : Except DnssecError Octets := do
  let signer ← encodeName signature.signer
  return rrsigFields signature ++ signer ++ signature.signature

def encodeStrings : List Octets → Except DnssecError Octets
  | [] => .ok []
  | string :: rest => do
    let head ← encodeCounted string
    let tail ← encodeStrings rest
    return head ++ tail

def canonicalRdata (record : ResourceRecord) : Except DnssecError Octets :=
  match record.recordType, record.rdata with
  | .a, .a address => .ok address.toList
  | .aaaa, .aaaa address => .ok address.toList
  | .ns, .ns name => encodeName name
  | .cname, .cname name => encodeName name
  | .soa, .soa soa => do
    let mname ← encodeName soa.mname
    let rname ← encodeName soa.rname
    return mname ++ rname ++ writeU32 soa.serial ++ writeU32 soa.refresh ++
      writeU32 soa.retry ++ writeU32 soa.expire ++ writeU32 soa.minimum
  | .mx, .mx mx => do
    let exchange ← encodeName mx.exchange
    return writeU16 mx.preference ++ exchange
  | .txt, .txt strings => encodeStrings strings
  | .srv, .srv srv => do
    let target ← encodeName srv.target
    return writeU16 srv.priority ++ writeU16 srv.weight ++ writeU16 srv.port ++ target
  | .ds, .ds ds => .ok (encodeDs ds)
  | .dnskey, .dnskey key => .ok (encodeDnskey key)
  | .rrsig, .rrsig signature => encodeRrsig signature
  | .nsec, .nsec nsec => do
    let next ← encodeName nsec.nextDomain
    return next ++ nsec.typeBitmaps
  | .nsec3, .nsec3 nsec3 => do
    let salt ← encodeCounted nsec3.salt
    let next ← encodeCounted nsec3.nextHashedOwner
    return [nsec3.hashAlgorithm, nsec3.flags] ++ writeU16 nsec3.iterations ++ salt ++ next ++
      nsec3.typeBitmaps
  | .tlsa, .tlsa tlsa =>
    .ok ([tlsa.usage, tlsa.selector, tlsa.matchingType] ++ tlsa.associationData)
  | .svcb, .opaqueData raw => .ok raw
  | .https, .opaqueData raw => .ok raw
  | .unknown _, .opaqueData raw => .ok raw
  | _, _ => .error .unsupportedRdata

/-- The owner field: the rightmost `labels` labels, below a wildcard label when
some labels are left out. -/
def canonicalOwner (owner : Name) (labels : Nat) : Except DnssecError Octets :=
  if owner.labels.length < labels then .error .rrsetMismatch
  else
    let wildcard := if labels < owner.labels.length then [1, 0x2a] else []
    match encodeStrings (owner.labels.drop (owner.labels.length - labels)) with
    | .ok encoded => .ok (wildcard ++ encoded ++ [0])
    | .error error => .error error

def canonicalRecord (record : ResourceRecord) (signature : Rrsig) : Except DnssecError Octets :=
  match canonicalOwner record.name signature.labels.toNat with
  | .error error => .error error
  | .ok owner =>
    match canonicalRdata record with
    | .error error => .error error
    | .ok rdata =>
      if rdata.length < 65536 then
        .ok (owner ++ writeU16 record.recordType.code ++ writeU16 record.class_ ++
          writeU32 signature.originalTtl ++ u16 rdata.length ++ rdata)
      else .error .limit

/-- The encodings of all records, or the first error. -/
def canonicalRecords (signature : Rrsig) :
    List ResourceRecord → Except DnssecError (List Octets)
  | [] => .ok []
  | record :: rest =>
    match canonicalRecord record signature with
    | .error error => .error error
    | .ok encoded =>
      match canonicalRecords signature rest with
      | .error error => .error error
      | .ok encodings => .ok (encoded :: encodings)

/-- The output loop: append each encoding within the length bound. -/
def appendBounded (maximum : Nat) (output : Octets) :
    List Octets → Except DnssecError Octets
  | [] => .ok output
  | record :: rest =>
    if maximum < output.length + record.length then .error .limit
    else appendBounded maximum (output ++ record) rest

def canonicalSignedData (records : List ResourceRecord) (signature : Rrsig) (maximum : Nat) :
    Except DnssecError Octets :=
  match encodeName signature.signer with
  | .error error => .error error
  | .ok signer =>
    match canonicalRecords signature records with
    | .error error => .error error
    | .ok canonical =>
      appendBounded maximum (rrsigFields signature ++ signer) (canonical.insertionSort (· ≤ ·))

/-- Produce RFC 4034 canonical bytes covered by an RRSIG. -/
def rrsigSignedData (records : List ResourceRecord) (signature : Rrsig) (maximum : Nat) :
    Except DnssecError Octets :=
  canonicalSignedData records signature maximum

/-- Records of one owner, type and class. -/
def IsRrset (records : List ResourceRecord) : Prop :=
  ∀ first ∈ records, ∀ second ∈ records, first.name = second.name ∧
    first.recordType = second.recordType ∧ first.class_ = second.class_

/-- The canonical RDATA of a record that has one. -/
def rdataOf (record : ResourceRecord) : Octets :=
  ((canonicalRdata record).toOption).getD []

variable {record : ResourceRecord} {records first second : List ResourceRecord}
  {encodings : List Octets} {header : Octets}

theorem rdataOf_eq {rdata : Octets} (rdata_ok : canonicalRdata record = .ok rdata) :
    rdataOf record = rdata := by
  simp [rdataOf, rdata_ok, Except.toOption]

theorem appendBounded_eq_ok {maximum : Nat} {output result : Octets}
    {records : List Octets} (appended : appendBounded maximum output records = .ok result) :
    result = output ++ records.flatten := by
  induction records generalizing output with
  | nil =>
    simp only [appendBounded, Except.ok.injEq] at appended
    simp [appended]
  | cons record rest ih =>
    unfold appendBounded at appended
    split at appended
    · contradiction
    · rw [ih appended, List.flatten_cons, List.append_assoc]

/-- All records of the list have canonical RDATA that fits the length field, and
their encodings are frames behind one header. -/
def EncodeBehind (signature : Rrsig) (header : Octets) (records : List ResourceRecord) : Prop :=
  ∀ record ∈ records, canonicalRdata record = .ok (rdataOf record) ∧
    (rdataOf record).length < 65536 ∧
    canonicalRecord record signature = .ok (frame header (rdataOf record))

variable {signature : Rrsig}

theorem canonicalRecord_eq_ok {encoded : Octets}
    (encoded_ok : canonicalRecord record signature = .ok encoded) :
    ∃ owner, canonicalOwner record.name signature.labels.toNat = .ok owner ∧
      canonicalRdata record = .ok (rdataOf record) ∧ (rdataOf record).length < 65536 := by
  unfold canonicalRecord at encoded_ok
  split at encoded_ok
  · contradiction
  rename_i owner owner_ok
  split at encoded_ok
  · contradiction
  rename_i rdata rdata_ok
  split at encoded_ok
  · rename_i fits
    rw [rdataOf_eq rdata_ok]
    exact ⟨owner, owner_ok, rdata_ok, fits⟩
  · contradiction

/-- The encodings are all there exactly when each record has one. -/
theorem canonicalRecords_eq_ok
    (encodings_ok : canonicalRecords signature records = .ok encodings) :
    ∀ record ∈ records, ∃ encoded, canonicalRecord record signature = .ok encoded := by
  induction records generalizing encodings with
  | nil => simp
  | cons record rest ih =>
    unfold canonicalRecords at encodings_ok
    split at encodings_ok
    · contradiction
    rename_i encoded encoded_ok
    split at encodings_ok
    · contradiction
    · rename_i tail_ok
      rw [List.forall_mem_cons]
      exact ⟨⟨encoded, encoded_ok⟩, ih tail_ok⟩

/-- Within an RRset the encodings share the header. -/
theorem exists_encodeBehind (rrset : IsRrset records)
    (encodings_ok : canonicalRecords signature records = .ok encodings) :
    ∃ header, EncodeBehind signature header records := by
  have each := canonicalRecords_eq_ok encodings_ok
  cases records with
  | nil => exact ⟨[], by simp [EncodeBehind]⟩
  | cons first rest =>
    obtain ⟨_, first_ok⟩ := each first List.mem_cons_self
    obtain ⟨owner, owner_ok, _⟩ := canonicalRecord_eq_ok first_ok
    refine ⟨owner ++ writeU16 first.recordType.code ++ writeU16 first.class_ ++
      writeU32 signature.originalTtl, ?_⟩
    intro record mem
    obtain ⟨encoded, encoded_ok⟩ := each record mem
    obtain ⟨_, _, rdata_ok, fits⟩ := canonicalRecord_eq_ok encoded_ok
    obtain ⟨name_eq, type_eq, class_eq⟩ := rrset record mem first List.mem_cons_self
    refine ⟨rdata_ok, fits, ?_⟩
    rw [canonicalRecord, name_eq, owner_ok, type_eq, class_eq]
    simp only [rdata_ok, if_pos fits, frame, List.append_assoc]

theorem canonicalRecords_of_encodeBehind (behind : EncodeBehind signature header records) :
    canonicalRecords signature records =
      .ok (records.map fun record => frame header (rdataOf record)) := by
  induction records with
  | nil => rfl
  | cons record rest ih =>
    have tail := ih fun other mem => behind other (List.mem_cons_of_mem record mem)
    simp [canonicalRecords, (behind record List.mem_cons_self).2.2, tail]

/-- The source puts the records in the order of their frames. -/
def frameOrder (header : Octets) (records : List ResourceRecord) : List ResourceRecord :=
  records.insertionSort fun first second =>
    frame header (rdataOf first) ≤ frame header (rdataOf second)

theorem map_frameOrder (header : Octets) (records : List ResourceRecord) :
    (frameOrder header records).map (fun record => frame header (rdataOf record)) =
      (records.map fun record => frame header (rdataOf record)).insertionSort (· ≤ ·) :=
  List.map_insertionSort _ _ (fun record => frame header (rdataOf record)) records (by simp)

theorem rrsigSignedData_of_encodeBehind
    (behind : EncodeBehind signature header records) (maximum : Nat) :
    rrsigSignedData records signature maximum =
      appendBounded maximum (rrsigFields signature ++ wireOf signature.signer.labels)
        ((frameOrder header records).map fun record => frame header (rdataOf record)) := by
  rw [rrsigSignedData, canonicalSignedData, encodeName_eq]
  simp only [canonicalRecords_of_encodeBehind behind]
  rw [map_frameOrder]

theorem frameOrder_perm (header : Octets) (records : List ResourceRecord) :
    (frameOrder header records).Perm records :=
  List.perm_insertionSort _ records

theorem frameOrder_pairwise (header : Octets) (records : List ResourceRecord) :
    (frameOrder header records).Pairwise fun first second =>
      frame header (rdataOf first) ≤ frame header (rdataOf second) := by
  have sorted := List.pairwise_insertionSort (· ≤ ·)
    (records.map fun record => frame header (rdataOf record))
  rw [← map_frameOrder] at sorted
  exact List.pairwise_map.mp sorted

/-- The frames come out in the same sequence whatever order the records were
supplied in. -/
theorem map_frameOrder_of_perm (perm : first.Perm second) :
    (frameOrder header first).map (fun record => frame header (rdataOf record)) =
      (frameOrder header second).map fun record => frame header (rdataOf record) := by
  have permuted := ((frameOrder_perm header first).trans perm).trans
    (frameOrder_perm header second).symm
  apply List.Perm.eq_of_pairwise' (r := (· ≤ ·)) _ _ (permuted.map _)
  · exact List.pairwise_map.mpr (frameOrder_pairwise header first)
  · exact List.pairwise_map.mpr (frameOrder_pairwise header second)

theorem EncodeBehind.of_perm (behind : EncodeBehind signature header first)
    (perm : second.Perm first) : EncodeBehind signature header second := by
  intro record mem
  exact behind record (perm.mem_iff.mp mem)

/-- Produced signed data of an RRset consists of the frames in their order. -/
theorem rrsigSignedData_eq_ok (rrset : IsRrset records) {maximum : Nat}
    {output : Octets} (succeeds : rrsigSignedData records signature maximum = .ok output) :
    ∃ header, EncodeBehind signature header records ∧
      output = rrsigFields signature ++ wireOf signature.signer.labels ++
        ((frameOrder header records).map fun record => frame header (rdataOf record)).flatten := by
  have encodings_ok : ∃ encodings, canonicalRecords signature records = .ok encodings := by
    rw [rrsigSignedData, canonicalSignedData, encodeName_eq] at succeeds
    cases encoded : canonicalRecords signature records with
    | error error => simp [encoded] at succeeds
    | ok encodings => exact ⟨encodings, rfl⟩
  obtain ⟨encodings, encodings_ok⟩ := encodings_ok
  obtain ⟨header, behind⟩ := exists_encodeBehind rrset encodings_ok
  rw [rrsigSignedData_of_encodeBehind behind maximum] at succeeds
  exact ⟨header, behind, appendBounded_eq_ok succeeds⟩

end HnsDaneEngine.Dnssec
