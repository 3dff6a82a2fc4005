import HnsDaneEngine.Wire.Encode

/-!
# Encoded messages are parsed back

What an encoder writes at a position of a message, the parser of the same item
reads back from there.  The encoder leaves some of the parser's checks out: a DS
digest, a DNSKEY public key and an RRSIG signature must not be empty, and the
covered type of a signature is read in its canonical form.  Every parsed record
passes these checks, so that parsing, encoding and parsing again changes nothing.
-/

namespace HnsDaneEngine.Wire

open Buffer Control

/-! ## Numbers and octets -/

section

variable {octets : Octets} {start : Nat}

theorem beU16_eq_ok {value : UInt16} (occurs : Occurs (writeU16 value) octets start) :
    beU16 octets start = .ok value := by
  have part : slice octets start (start + 2) = some (writeU16 value) := occurs.slice
  rw [beU16, part]
  exact congrArg _ (u16Of_u16Octets value)

theorem beU32_eq_ok {value : UInt32} (occurs : Occurs (writeU32 value) octets start) :
    beU32 octets start = .ok value := by
  have part : slice octets start (start + 4) = some (writeU32 value) := occurs.slice
  rw [beU32, part]
  exact congrArg _ (u32Of_u32Octets value)

theorem getOctet_eq_ok {octet : UInt8} {rest : Octets}
    (occurs : Occurs (octet :: rest) octets start) : getOctet octets start = .ok octet := by
  rw [getOctet, occurs.getElem?]

theorem getFrom_eq_ok_iff {part : Octets} :
    getFrom octets start = .ok part ↔
      Occurs part octets start ∧ octets.length = start + part.length :=
  getRange_eq_ok_iff

/-- What ends the octets is read to their end. -/
theorem getFrom_append (front part : Octets) : getFrom (front ++ part) front.length = .ok part := by
  rw [getFrom_eq_ok_iff, List.length_append]
  have occurs := (occurs_append_iff.mp (occurs_self (front ++ part))).2
  rw [Nat.zero_add] at occurs
  exact ⟨occurs, rfl⟩

theorem u16TryFrom_eq_ok_iff {value : Nat} {error : Error} {number : UInt16} :
    u16TryFrom value error = .ok number ↔ number.toNat = value := by
  have bound := number.toNat_lt
  unfold u16TryFrom
  split
  next small =>
    rw [Except.ok.injEq, ← UInt16.toNat_inj, UInt16.toNat_ofNat', Nat.mod_eq_of_lt small]
    exact eq_comm
  next large =>
    simp only [reduceCtorEq, false_iff]
    omega

theorem u8TryFrom_eq_ok_iff {value : Nat} {number : UInt8} :
    u8TryFrom value = .ok number ↔ number.toNat = value := by
  have bound := number.toNat_lt
  unfold u8TryFrom
  split
  next small =>
    rw [Except.ok.injEq, ← UInt8.toNat_inj, UInt8.toNat_ofNat', Nat.mod_eq_of_lt small]
    exact eq_comm
  next large =>
    simp only [reduceCtorEq, false_iff]
    omega

end

/-! ## Record data without names -/

theorem parseDs_encode {ds : Ds} (nonempty : ds.digest ≠ []) :
    parseDs (writeU16 ds.keyTag ++ [ds.algorithm, ds.digestType] ++ ds.digest) = .ok ds := by
  have positive := List.length_pos_iff.mpr nonempty
  have occurs := occurs_self (writeU16 ds.keyTag ++ [ds.algorithm, ds.digestType] ++ ds.digest)
  rw [occurs_append_iff, occurs_append_iff] at occurs
  obtain ⟨⟨keyTag, fields⟩, -⟩ := occurs
  refine guard_eq_ok_iff.mpr ⟨by simp [writeU16]; omega, ?_⟩
  refine bind_ok (beU16_eq_ok keyTag) ?_
  refine bind_ok (getOctet_eq_ok fields) ?_
  refine bind_ok (getOctet_eq_ok (occurs_cons_iff.mp fields).2) ?_
  exact bind_ok (getFrom_append _ ds.digest) rfl

theorem parseDnskey_encode {key : Dnskey} (nonempty : key.publicKey ≠ []) :
    parseDnskey (writeU16 key.flags ++ [key.protocol, key.algorithm] ++ key.publicKey) =
      .ok key := by
  have positive := List.length_pos_iff.mpr nonempty
  have occurs := occurs_self (writeU16 key.flags ++ [key.protocol, key.algorithm] ++ key.publicKey)
  rw [occurs_append_iff, occurs_append_iff] at occurs
  obtain ⟨⟨flags, fields⟩, -⟩ := occurs
  refine guard_eq_ok_iff.mpr ⟨by simp [writeU16]; omega, ?_⟩
  refine bind_ok (beU16_eq_ok flags) ?_
  refine bind_ok (getOctet_eq_ok fields) ?_
  refine bind_ok (getOctet_eq_ok (occurs_cons_iff.mp fields).2) ?_
  exact bind_ok (getFrom_append _ key.publicKey) rfl

theorem parseTlsa_encode {tlsa : Tlsa} (nonempty : tlsa.associationData ≠ []) :
    parseTlsa ([tlsa.usage, tlsa.selector, tlsa.matchingType] ++ tlsa.associationData) =
      .ok tlsa := by
  have positive := List.length_pos_iff.mpr nonempty
  have usage := occurs_self ([tlsa.usage, tlsa.selector, tlsa.matchingType] ++ tlsa.associationData)
  have selector := (occurs_cons_iff.mp usage).2
  have matchingType := (occurs_cons_iff.mp selector).2
  refine guard_eq_ok_iff.mpr ⟨by simp; omega, ?_⟩
  refine bind_ok (getOctet_eq_ok usage) ?_
  refine bind_ok (getOctet_eq_ok selector) ?_
  refine bind_ok (getOctet_eq_ok matchingType) ?_
  exact bind_ok (getFrom_append [tlsa.usage, tlsa.selector, tlsa.matchingType] _) rfl

variable {encoded : Octets} {strings : List Octets} {options : List EdnsOption}

/-- The string loop at the rest of the strings. -/
theorem parseStrings_encodeStrings {raw : Octets} {rounds cursor : Nat}
    (encoded_eq : encodeStrings strings = .ok encoded) (occurs : Occurs encoded raw cursor)
    (ends : raw.length = cursor + encoded.length) (enough : raw.length ≤ rounds + cursor) :
    parseStrings raw rounds cursor = .ok strings := by
  induction strings generalizing encoded rounds cursor with
  | nil =>
    obtain rfl := Except.ok.inj encoded_eq
    cases rounds with
    | zero => rfl
    | succ rounds => rw [parseStrings, if_pos (by rw [ends]; simp)]
  | cons string rest ih =>
    obtain ⟨length, length_eq, encoded_eq⟩ := of_bind_ok encoded_eq
    obtain ⟨encodedRest, rest_eq, encoded_eq⟩ := of_bind_ok encoded_eq
    obtain rfl := Except.ok.inj encoded_eq
    rw [u8TryFrom_eq_ok_iff] at length_eq
    rw [List.cons_append, List.length_cons, List.length_append] at ends
    cases rounds with
    | zero => omega
    | succ rounds =>
      rw [List.cons_append] at occurs
      obtain ⟨stringOccurs, restOccurs⟩ := occurs_append_iff.mp (occurs_cons_iff.mp occurs).2
      rw [← length_eq] at restOccurs
      rw [parseStrings, if_neg (by omega)]
      refine bind_ok (getOctet_eq_ok occurs) ?_
      refine bind_ok (getRange_eq_ok_iff.mpr ⟨stringOccurs, by omega⟩) ?_
      exact bind_ok (ih rest_eq restOccurs (by omega) (by omega)) rfl

theorem parseTxt_encode (encoded_eq : encodeStrings strings = .ok encoded)
    (nonempty : strings ≠ []) :
    parseTxt encoded = .ok strings := by
  have parsed : parseStrings encoded encoded.length 0 = .ok strings :=
    parseStrings_encodeStrings encoded_eq (occurs_self encoded) (by simp) (by simp)
  refine bind_eq_ok_iff.mpr ⟨strings, parsed, ?_⟩
  rw [if_neg (by simpa using nonempty)]

/-- The option loop at the rest of the options. -/
theorem parseOptions_encodeOptions {raw : Octets} {rounds cursor : Nat}
    (encoded_eq : encodeOptions options = .ok encoded) (occurs : Occurs encoded raw cursor)
    (ends : raw.length = cursor + encoded.length) (enough : raw.length ≤ rounds + cursor) :
    parseOptions raw rounds cursor = .ok options := by
  induction options generalizing encoded rounds cursor with
  | nil =>
    obtain rfl := Except.ok.inj encoded_eq
    cases rounds with
    | zero => rfl
    | succ rounds => rw [parseOptions, if_pos (by rw [ends]; simp)]
  | cons option rest ih =>
    obtain ⟨length, length_eq, encoded_eq⟩ := of_bind_ok encoded_eq
    obtain ⟨encodedRest, rest_eq, encoded_eq⟩ := of_bind_ok encoded_eq
    obtain rfl := Except.ok.inj encoded_eq
    rw [u16TryFrom_eq_ok_iff] at length_eq
    have code_eq : beU16 (writeU16 option.code ++ writeU16 length) 0 = .ok option.code :=
      beU16_eq_ok (occurs_append_iff.mp (occurs_self _)).1
    have written_eq : beU16 (writeU16 option.code ++ writeU16 length) 2 = .ok length :=
      beU16_eq_ok (occurs_append_iff.mp (occurs_self _)).2
    have ends_eq : raw.length = cursor + 4 + option.data.length + encodedRest.length := by
      simp only [List.length_append, writeU16, length_u16Octets] at ends
      omega
    cases rounds with
    | zero => omega
    | succ rounds =>
      obtain ⟨occurs, restOccurs⟩ := occurs_append_iff.mp occurs
      obtain ⟨header, data⟩ := occurs_append_iff.mp occurs
      have restOccurs : Occurs encodedRest raw (cursor + 4 + length.toNat) := by
        rw [List.length_append, ← Nat.add_assoc] at restOccurs
        rw [length_eq]
        exact restOccurs
      rw [parseOptions, if_neg (by omega)]
      refine bind_ok (getRange_eq_ok_iff.mpr ⟨header, rfl⟩) ?_
      rw [code_eq, written_eq]
      refine bind_ok (getRange_eq_ok_iff.mpr ⟨data, ?_⟩) ?_
      · rw [← length_eq]
      · exact bind_ok (ih rest_eq restOccurs (by omega) (by omega)) rfl

theorem parseEdns_encode (encoded_eq : encodeOptions options = .ok encoded) :
    parseEdns encoded = .ok options :=
  parseOptions_encodeOptions encoded_eq (occurs_self encoded) (by simp) (by simp)

theorem parseNsec3_encode {nsec3 : Nsec3} {saltLen hashLen : UInt8}
    (saltLen_eq : saltLen.toNat = nsec3.salt.length)
    (hashLen_eq : hashLen.toNat = nsec3.nextHashedOwner.length) (nonzero : hashLen ≠ 0)
    (validated : validateTypeBitmaps nsec3.typeBitmaps = .ok ()) :
    parseNsec3 ([nsec3.hashAlgorithm, nsec3.flags] ++ writeU16 nsec3.iterations ++
      (saltLen :: nsec3.salt) ++ (hashLen :: nsec3.nextHashedOwner) ++ nsec3.typeBitmaps) =
        .ok nsec3 := by
  have hash_nonzero : hashLen.toNat ≠ 0 := by
    rw [Ne, ← UInt8.toNat_zero, UInt8.toNat_inj]
    exact nonzero
  generalize raw_eq : [nsec3.hashAlgorithm, nsec3.flags] ++ writeU16 nsec3.iterations ++
    (saltLen :: nsec3.salt) ++ (hashLen :: nsec3.nextHashedOwner) ++ nsec3.typeBitmaps = raw
  have raw_length : raw.length =
      5 + saltLen.toNat + 1 + hashLen.toNat + nsec3.typeBitmaps.length := by
    rw [← raw_eq, saltLen_eq, hashLen_eq]
    simp only [List.length_append, List.length_cons, List.length_nil, writeU16, length_u16Octets]
    omega
  have occurs := occurs_self raw
  rw [← raw_eq, occurs_append_iff, occurs_append_iff, occurs_append_iff, occurs_append_iff,
    raw_eq] at occurs
  obtain ⟨⟨⟨⟨fields, iterations⟩, salt⟩, hash⟩, bitmaps⟩ := occurs
  have hash : Occurs (hashLen :: nsec3.nextHashedOwner) raw (5 + saltLen.toNat) := by
    convert hash using 1
    simp only [List.length_append, List.length_cons, List.length_nil, writeU16, length_u16Octets]
    omega
  have bitmaps : Occurs nsec3.typeBitmaps raw (5 + saltLen.toNat + 1 + hashLen.toNat) := by
    convert bitmaps using 1
    simp only [List.length_append, List.length_cons, List.length_nil, writeU16, length_u16Octets]
    omega
  refine guard_eq_ok_iff.mpr ⟨by omega, ?_⟩
  refine bind_ok (getOctet_eq_ok salt) ?_
  refine bind_ok (getOctet_eq_ok hash) ?_
  refine guard_eq_ok_iff.mpr ⟨hash_nonzero, ?_⟩
  refine bind_ok (getFrom_eq_ok_iff.mpr ⟨bitmaps, raw_length⟩) ?_
  refine bind_ok validated ?_
  refine bind_ok (getOctet_eq_ok fields) ?_
  refine bind_ok (getOctet_eq_ok (occurs_cons_iff.mp fields).2) ?_
  refine bind_ok (beU16_eq_ok iterations) ?_
  refine bind_ok (getRange_eq_ok_iff.mpr ⟨(occurs_cons_iff.mp salt).2, by rw [saltLen_eq]⟩) ?_
  exact bind_ok (getRange_eq_ok_iff.mpr ⟨(occurs_cons_iff.mp hash).2, by rw [hashLen_eq]⟩) rfl

/-! ## Record data with names -/

section

variable {message : Octets} {start : Nat} {limits : ParseLimits}

theorem parseExactName_encode {name : Name} (count : name.labels.length ≤ limits.maxLabelsPerName)
    (occurs : Occurs (wireOf name.labels) message start) :
    parseExactName message start (start + (wireOf name.labels).length) limits = .ok name := by
  have bound := occurs.length_le
  rw [length_wireOf] at bound ⊢
  refine bind_ok (decodeName_wireOf occurs le_rfl bound count) ?_
  exact guard_eq_ok_iff.mpr ⟨not_not.mpr rfl, rfl⟩

theorem parseSoa_encode {soa : Soa} (mnameCount : soa.mname.labels.length ≤ limits.maxLabelsPerName)
    (rnameCount : soa.rname.labels.length ≤ limits.maxLabelsPerName)
    (occurs : Occurs (wireOf soa.mname.labels ++ wireOf soa.rname.labels ++ soaFields soa) message
      start) :
    parseSoa message start
      (start + (wireOf soa.mname.labels ++ wireOf soa.rname.labels ++ soaFields soa).length)
      limits = .ok soa := by
  have bound := occurs.length_le
  have fields_length : (soaFields soa).length = 20 := rfl
  rw [List.length_append, List.length_append, length_wireOf, length_wireOf, fields_length] at bound ⊢
  obtain ⟨names, fields⟩ := occurs_append_iff.mp occurs
  obtain ⟨mname, rname⟩ := occurs_append_iff.mp names
  rw [length_wireOf] at rname
  rw [List.length_append, length_wireOf, length_wireOf, ← Nat.add_assoc] at fields
  have numbers := occurs_self (soaFields soa)
  nth_rewrite 1 [soaFields] at numbers
  rw [occurs_append_iff, occurs_append_iff, occurs_append_iff, occurs_append_iff] at numbers
  obtain ⟨⟨⟨⟨serial, refresh⟩, retry⟩, expire⟩, minimum⟩ := numbers
  refine bind_ok (decodeName_wireOf mname (by omega) bound mnameCount) ?_
  refine bind_ok (decodeName_wireOf rname (by omega) bound rnameCount) ?_
  refine bind_ok (getRange_eq_ok_iff.mpr ⟨fields, rfl⟩) ?_
  refine guard_eq_ok_iff.mpr ⟨by omega, ?_⟩
  refine bind_ok (beU32_eq_ok serial) ?_
  refine bind_ok (beU32_eq_ok refresh) ?_
  refine bind_ok (beU32_eq_ok retry) ?_
  refine bind_ok (beU32_eq_ok expire) ?_
  exact bind_ok (beU32_eq_ok minimum) rfl

theorem parseMx_encode {mx : Mx} (count : mx.exchange.labels.length ≤ limits.maxLabelsPerName)
    (occurs : Occurs (writeU16 mx.preference ++ wireOf mx.exchange.labels) message start) :
    parseMx message start (start + (writeU16 mx.preference ++ wireOf mx.exchange.labels).length)
      limits = .ok mx := by
  have bound := occurs.length_le
  have total : (writeU16 mx.preference ++ wireOf mx.exchange.labels).length =
      2 + wireLen mx.exchange.labels := by
    rw [List.length_append, length_wireOf]
    rfl
  have preference := (occurs_append_iff.mp (occurs_self (writeU16 mx.preference ++
    wireOf mx.exchange.labels))).1
  have exchange := (occurs_append_iff.mp occurs).2
  refine bind_ok (getRange_eq_ok_iff.mpr ⟨occurs, rfl⟩) ?_
  refine bind_ok (beU16_eq_ok preference) ?_
  rw [total] at bound ⊢
  refine bind_ok (decodeName_wireOf exchange (Nat.add_assoc start 2 _).le bound count) ?_
  exact guard_eq_ok_iff.mpr ⟨not_not.mpr (Nat.add_assoc start 2 _), rfl⟩

theorem parseSrv_encode {srv : Srv} (count : srv.target.labels.length ≤ limits.maxLabelsPerName)
    (occurs : Occurs (writeU16 srv.priority ++ writeU16 srv.weight ++ writeU16 srv.port ++
      wireOf srv.target.labels) message start) :
    parseSrv message start (start + (writeU16 srv.priority ++ writeU16 srv.weight ++
      writeU16 srv.port ++ wireOf srv.target.labels).length) limits = .ok srv := by
  have bound := occurs.length_le
  have total : (writeU16 srv.priority ++ writeU16 srv.weight ++ writeU16 srv.port ++
      wireOf srv.target.labels).length = 6 + wireLen srv.target.labels := by
    rw [List.length_append, length_wireOf]
    rfl
  have numbers := occurs_self (writeU16 srv.priority ++ writeU16 srv.weight ++
    writeU16 srv.port ++ wireOf srv.target.labels)
  rw [occurs_append_iff, occurs_append_iff, occurs_append_iff] at numbers
  obtain ⟨⟨⟨priority, weight⟩, port⟩, -⟩ := numbers
  have target := (occurs_append_iff.mp occurs).2
  refine bind_ok (getRange_eq_ok_iff.mpr ⟨occurs, rfl⟩) ?_
  rw [total] at bound ⊢
  refine bind_ok (decodeName_wireOf target (Nat.add_assoc start 6 _).le bound count) ?_
  refine guard_eq_ok_iff.mpr ⟨not_not.mpr (Nat.add_assoc start 6 _), ?_⟩
  refine bind_ok (beU16_eq_ok priority) ?_
  refine bind_ok (beU16_eq_ok weight) ?_
  exact bind_ok (beU16_eq_ok port) rfl

theorem parseRrsig_encode {signature : Rrsig}
    (count : signature.signer.labels.length ≤ limits.maxLabelsPerName)
    (nonempty : signature.signature ≠ [])
    (canonical : RecordType.fromCode signature.typeCovered.code = signature.typeCovered)
    (occurs : Occurs (rrsigFields signature ++ wireOf signature.signer.labels ++
      signature.signature) message start) :
    parseRrsig message start (start + (rrsigFields signature ++ wireOf signature.signer.labels ++
      signature.signature).length) limits = .ok signature := by
  have bound := occurs.length_le
  have total : (rrsigFields signature ++ wireOf signature.signer.labels ++
      signature.signature).length =
        18 + wireLen signature.signer.labels + signature.signature.length := by
    rw [List.length_append, List.length_append, length_wireOf]
    rfl
  rw [total] at bound ⊢
  obtain ⟨front, signatureOccurs⟩ := occurs_append_iff.mp occurs
  obtain ⟨fields, signer⟩ := occurs_append_iff.mp front
  rw [List.length_append, length_wireOf, ← Nat.add_assoc] at signatureOccurs
  have numbers := occurs_self (rrsigFields signature)
  nth_rewrite 1 [rrsigFields] at numbers
  rw [occurs_append_iff, occurs_append_iff, occurs_append_iff, occurs_append_iff,
    occurs_append_iff] at numbers
  obtain ⟨⟨⟨⟨⟨typeCovered, octets⟩, originalTtl⟩, expiration⟩, inception⟩, keyTag⟩ := numbers
  refine bind_ok (getRange_eq_ok_iff.mpr ⟨fields, rfl⟩) ?_
  refine bind_ok (decodeName_wireOf signer ?_ bound count) ?_
  · omega
  refine bind_ok (getRange_eq_ok_iff.mpr ⟨signatureOccurs, ?_⟩) ?_
  · omega
  refine guard_eq_ok_iff.mpr ⟨by simpa using nonempty, ?_⟩
  refine bind_ok (beU16_eq_ok typeCovered) ?_
  refine bind_ok (getOctet_eq_ok octets) ?_
  refine bind_ok (getOctet_eq_ok (occurs_cons_iff.mp octets).2) ?_
  refine bind_ok (beU32_eq_ok originalTtl) ?_
  refine bind_ok (beU32_eq_ok expiration) ?_
  refine bind_ok (beU32_eq_ok inception) ?_
  refine bind_ok (beU16_eq_ok keyTag) ?_
  rw [canonical]
  rfl

theorem parseNsec_encode {nsec : Nsec}
    (count : nsec.nextDomain.labels.length ≤ limits.maxLabelsPerName)
    (validated : validateTypeBitmaps nsec.typeBitmaps = .ok ())
    (occurs : Occurs (wireOf nsec.nextDomain.labels ++ nsec.typeBitmaps) message start) :
    parseNsec message start (start + (wireOf nsec.nextDomain.labels ++ nsec.typeBitmaps).length)
      limits = .ok nsec := by
  have bound := occurs.length_le
  rw [List.length_append, length_wireOf, ← Nat.add_assoc] at bound ⊢
  obtain ⟨nextDomain, bitmap⟩ := occurs_append_iff.mp occurs
  rw [length_wireOf] at bitmap
  refine bind_ok (decodeName_wireOf nextDomain (by omega) bound count) ?_
  refine bind_ok (getRange_eq_ok_iff.mpr ⟨bitmap, rfl⟩) ?_
  exact bind_ok validated rfl

end

/-! ## Records -/

/-- What the parser requires of data and the encoder does not check. -/
def Rdata.Complete : Rdata → Prop
  | .ds data => data.digest ≠ []
  | .dnskey data => data.publicKey ≠ []
  | .rrsig data =>
    data.signature ≠ [] ∧ RecordType.fromCode data.typeCovered.code = data.typeCovered
  | _ => True

/-- The names are within the limit on labels. -/
def WithinLabels (limits : ParseLimits) (names : List Name) : Prop :=
  ∀ name ∈ names, name.labels.length ≤ limits.maxLabelsPerName

section

variable {message octets : Octets} {start : Nat} {limits : ParseLimits}

theorem toArray_toList {size : Nat} (address : Vector UInt8 size) :
    toArray size address.toList = .ok address := by
  rw [toArray, dif_pos address.length_toList]
  exact congrArg _ (Vector.toArray_inj.mp Array.toArray_toList)

theorem parseRdata_encodeRdata {recordType : RecordType} {rdata : Rdata}
    (encoded : encodeRdata recordType rdata = .ok octets) (complete : rdata.Complete)
    (counts : WithinLabels limits rdata.names) (occurs : Occurs octets message start) :
    parseRdata message start (start + octets.length) limits recordType = .ok rdata := by
  refine bind_eq_ok_iff.mpr ⟨octets, getRange_eq_ok_iff.mpr ⟨occurs, rfl⟩, ?_⟩
  unfold encodeRdata at encoded
  split at encoded
  next address =>
    obtain rfl := Except.ok.inj encoded
    exact bind_ok (toArray_toList address) rfl
  next address =>
    obtain rfl := Except.ok.inj encoded
    exact bind_ok (toArray_toList address) rfl
  next name =>
    rw [Name.encode_eq] at encoded
    obtain rfl := Except.ok.inj encoded
    have count := counts name List.mem_cons_self
    exact bind_ok (parseExactName_encode count occurs) rfl
  next name =>
    rw [Name.encode_eq] at encoded
    obtain rfl := Except.ok.inj encoded
    have count := counts name List.mem_cons_self
    exact bind_ok (parseExactName_encode count occurs) rfl
  next soa =>
    rw [Name.encode_eq, Name.encode_eq] at encoded
    obtain rfl := Except.ok.inj encoded
    have mnameCount := counts soa.mname List.mem_cons_self
    have rnameCount := counts soa.rname (List.mem_cons_of_mem _ List.mem_cons_self)
    exact bind_ok (parseSoa_encode mnameCount rnameCount occurs) rfl
  next mx =>
    rw [Name.encode_eq] at encoded
    obtain rfl := Except.ok.inj encoded
    have count := counts mx.exchange List.mem_cons_self
    exact bind_ok (parseMx_encode count occurs) rfl
  next strings =>
    obtain ⟨nonempty, encoded⟩ := of_guard_ok encoded
    exact bind_ok (parseTxt_encode encoded (by simpa using nonempty)) rfl
  next srv =>
    rw [Name.encode_eq] at encoded
    obtain rfl := Except.ok.inj encoded
    have count := counts srv.target List.mem_cons_self
    exact bind_ok (parseSrv_encode count occurs) rfl
  next ds =>
    obtain rfl := Except.ok.inj encoded
    exact bind_ok (parseDs_encode complete) rfl
  next key =>
    obtain rfl := Except.ok.inj encoded
    exact bind_ok (parseDnskey_encode complete) rfl
  next signature =>
    rw [Name.encode_eq] at encoded
    obtain rfl := Except.ok.inj encoded
    have count := counts signature.signer List.mem_cons_self
    exact bind_ok (parseRrsig_encode count complete.1 complete.2 occurs) rfl
  next nsec =>
    obtain ⟨nextDomain, nextDomain_eq, encoded⟩ := of_bind_ok encoded
    obtain ⟨_, validated, encoded⟩ := of_bind_ok encoded
    rw [Name.encode_eq] at nextDomain_eq
    obtain rfl := Except.ok.inj nextDomain_eq
    obtain rfl := Except.ok.inj encoded
    have count := counts nsec.nextDomain List.mem_cons_self
    exact bind_ok (parseNsec_encode count validated occurs) rfl
  next nsec3 =>
    obtain ⟨saltLen, saltLen_eq, encoded⟩ := of_bind_ok encoded
    obtain ⟨hashLen, hashLen_eq, encoded⟩ := of_bind_ok encoded
    obtain ⟨nonzero, encoded⟩ := of_guard_ok encoded
    obtain ⟨_, validated, encoded⟩ := of_bind_ok encoded
    obtain rfl := Except.ok.inj encoded
    have parsed := parseNsec3_encode (u8TryFrom_eq_ok_iff.mp saltLen_eq)
      (u8TryFrom_eq_ok_iff.mp hashLen_eq) nonzero validated
    exact bind_ok parsed rfl
  next tlsa =>
    obtain ⟨nonempty, encoded⟩ := of_guard_ok encoded
    obtain rfl := Except.ok.inj encoded
    exact bind_ok (parseTlsa_encode (by simpa using nonempty)) rfl
  next options => exact bind_ok (parseEdns_encode encoded) rfl
  next raw =>
    obtain rfl := Except.ok.inj encoded
    rfl
  next raw =>
    obtain rfl := Except.ok.inj encoded
    rfl
  next code raw =>
    obtain rfl := Except.ok.inj encoded
    rfl
  next => cases encoded

/-- A record that the parser reads back once it is encoded. -/
structure ResourceRecord.Readable (record : ResourceRecord) (limits : ParseLimits) : Prop where
  canonical : RecordType.fromCode record.recordType.code = record.recordType
  complete : record.rdata.Complete
  counts : WithinLabels limits (record.name :: record.rdata.names)

/-- A question that reads back. -/
structure Question.Readable (question : Question) (limits : ParseLimits) : Prop where
  canonical : RecordType.fromCode question.recordType.code = question.recordType
  count : question.name.labels.length ≤ limits.maxLabelsPerName

theorem parseRecord_encodeRecord {record : ResourceRecord} (readable : record.Readable limits)
    (rdataLimit : 65535 ≤ limits.maxRdataLen) (encoded : encodeRecord record = .ok octets)
    (occurs : Occurs octets message start) :
    parseRecord message limits start = .ok (record, start + octets.length) := by
  obtain ⟨owner, owner_eq, encoded⟩ := of_bind_ok encoded
  obtain ⟨rdata, rdata_eq, encoded⟩ := of_bind_ok encoded
  obtain ⟨length, length_eq, encoded⟩ := of_bind_ok encoded
  rw [Name.encode_eq] at owner_eq
  obtain rfl := Except.ok.inj owner_eq
  obtain rfl := Except.ok.inj encoded
  rw [u16TryFrom_eq_ok_iff] at length_eq
  have lengthBound := length.toNat_lt
  have bound := occurs.length_le
  obtain ⟨front, rdataOccurs⟩ := occurs_append_iff.mp occurs
  obtain ⟨owner, fixed⟩ := occurs_append_iff.mp front
  rw [length_wireOf] at fixed
  rw [List.length_append, length_wireOf, ← Nat.add_assoc] at rdataOccurs
  rw [List.length_append, List.length_append, length_wireOf] at bound ⊢
  have numbers := occurs_self (writeU16 record.recordType.code ++ writeU16 record.class_ ++
    writeU32 record.ttl ++ writeU16 length)
  rw [occurs_append_iff, occurs_append_iff, occurs_append_iff] at numbers
  obtain ⟨⟨⟨recordType, class_⟩, ttl⟩, rdataLen⟩ := numbers
  have counts := List.forall_mem_cons.mp readable.counts
  have parsed := parseRdata_encodeRdata rdata_eq readable.complete counts.2 rdataOccurs
  rw [← length_eq] at parsed
  refine bind_ok (decodeName_wireOf owner (by omega) le_rfl counts.1) ?_
  refine bind_ok (getRange_eq_ok_iff.mpr ⟨fixed, rfl⟩) ?_
  refine bind_ok (beU16_eq_ok recordType) ?_
  refine bind_ok (beU16_eq_ok class_) ?_
  refine bind_ok (beU32_eq_ok ttl) ?_
  refine bind_ok (beU16_eq_ok rdataLen) ?_
  refine guard_eq_ok_iff.mpr ⟨by omega, ?_⟩
  rw [readable.canonical]
  refine bind_ok (getRange_eq_ok_iff.mpr ⟨rdataOccurs, by rw [length_eq]⟩) ?_
  refine bind_ok parsed ?_
  have stop_eq : start + wireLen record.name.labels + 10 + length.toNat =
      start + (wireLen record.name.labels + 10 + rdata.length) := by
    omega
  exact congrArg (fun stop => Except.ok (record, stop)) stop_eq

theorem parseQuestion_encodeQuestion {question : Question} (readable : question.Readable limits)
    (encoded : encodeQuestion question = .ok octets) (occurs : Occurs octets message start) :
    parseQuestion message limits start = .ok (question, start + octets.length) := by
  obtain ⟨owner, owner_eq, encoded⟩ := of_bind_ok encoded
  rw [Name.encode_eq] at owner_eq
  obtain rfl := Except.ok.inj owner_eq
  obtain rfl := Except.ok.inj encoded
  have bound := occurs.length_le
  obtain ⟨owner, fixed⟩ := occurs_append_iff.mp occurs
  rw [length_wireOf] at fixed
  rw [List.length_append, length_wireOf] at bound ⊢
  obtain ⟨recordType, class_⟩ := occurs_append_iff.mp (occurs_self (writeU16
    question.recordType.code ++ writeU16 question.class_))
  refine bind_ok (decodeName_wireOf owner (by omega) le_rfl readable.count) ?_
  refine bind_ok (getRange_eq_ok_iff.mpr ⟨fixed, rfl⟩) ?_
  refine bind_ok (beU16_eq_ok recordType) ?_
  refine bind_ok (beU16_eq_ok class_) ?_
  rw [readable.canonical]
  exact congrArg (fun stop => Except.ok (question, stop)) (Nat.add_assoc start _ 4)

/-- Items that are read back one by one are read back in order. -/
theorem parseMany_encodeMany {Item : Type} {parseItem : Nat → Except Error (Item × Nat)}
    {encodeItem : Item → Except Error Octets} {items : List Item}
    (readBack : ∀ item ∈ items, ∀ octets offset, encodeItem item = .ok octets →
      Occurs octets message offset → parseItem offset = .ok (item, offset + octets.length))
    (encoded : encodeMany encodeItem items = .ok octets) (occurs : Occurs octets message start) :
    parseMany parseItem items.length start = .ok (items, start + octets.length) := by
  induction items generalizing octets start with
  | nil =>
    obtain rfl := Except.ok.inj encoded
    rfl
  | cons item rest ih =>
    obtain ⟨first, first_eq, encoded⟩ := of_bind_ok encoded
    obtain ⟨later, later_eq, encoded⟩ := of_bind_ok encoded
    obtain rfl := Except.ok.inj encoded
    rw [List.forall_mem_cons] at readBack
    obtain ⟨firstOccurs, laterOccurs⟩ := occurs_append_iff.mp occurs
    refine bind_ok (readBack.1 first start first_eq firstOccurs) ?_
    refine bind_ok (ih readBack.2 later_eq laterOccurs) ?_
    rw [List.length_append, ← Nat.add_assoc]
    rfl

theorem parseRecords_encode {records : List ResourceRecord} {count : UInt16}
    (readable : ∀ record ∈ records, record.Readable limits)
    (rdataLimit : 65535 ≤ limits.maxRdataLen) (count_eq : count.toNat = records.length)
    (encoded : encodeMany encodeRecord records = .ok octets)
    (occurs : Occurs octets message start) :
    parseRecords message limits start count = .ok (records, start + octets.length) := by
  rw [parseRecords, count_eq]
  apply parseMany_encodeMany _ encoded occurs
  intro record recordMem octets offset
  exact parseRecord_encodeRecord (readable record recordMem) rdataLimit

end

/-! ## Messages -/

/-- The counts of the header are those of the sections. -/
structure Message.Counted (message : Message) : Prop where
  questionCount : message.header.questionCount.toNat = message.questions.length
  answerCount : message.header.answerCount.toNat = message.answers.length
  authorityCount : message.header.authorityCount.toNat = message.authorities.length
  additionalCount : message.header.additionalCount.toNat = message.additionals.length

/-- A message that the parser reads back once it is encoded. -/
structure Message.Readable (message : Message) (limits : ParseLimits) : Prop
    extends message.Counted where
  reserved : message.header.flags.bits &&& 0x0040 = 0
  questions_le : message.questions.length ≤ limits.maxQuestions
  records_le : message.answers.length + message.authorities.length +
    message.additionals.length ≤ limits.maxRecords
  pseudoRecords : validatePseudoRecords message = .ok ()
  questions : ∀ question ∈ message.questions, question.Readable limits
  answers : ∀ record ∈ message.answers, record.Readable limits
  authorities : ∀ record ∈ message.authorities, record.Readable limits
  additionals : ∀ record ∈ message.additionals, record.Readable limits

theorem writeCount_eq_ok {count : Nat} {octets : Octets} {number : UInt16}
    (number_eq : number.toNat = count) (written : writeCount count = .ok octets) :
    octets = writeU16 number := by
  obtain ⟨converted, converted_eq, written⟩ := of_bind_ok written
  obtain rfl := Except.ok.inj written
  rw [u16TryFrom_eq_ok_iff, ← number_eq, UInt16.toNat_inj] at converted_eq
  rw [converted_eq]

/-- The octets of a header. -/
def Header.octets (header : Header) : Octets :=
  writeU16 header.id ++ writeU16 header.flags.bits ++ writeU16 header.questionCount ++
    writeU16 header.answerCount ++ writeU16 header.authorityCount ++
    writeU16 header.additionalCount

theorem Header.parse_eq_ok {header : Header} {octets : Octets}
    (occurs : Occurs header.octets octets 0) : Header.parse octets = .ok header := by
  have numbers := occurs_self header.octets
  nth_rewrite 1 [Header.octets] at numbers
  rw [occurs_append_iff, occurs_append_iff, occurs_append_iff, occurs_append_iff,
    occurs_append_iff] at numbers
  obtain ⟨⟨⟨⟨⟨id, flags⟩, questionCount⟩, answerCount⟩, authorityCount⟩, additionalCount⟩ := numbers
  refine bind_ok (getRange_eq_ok_iff.mpr ⟨occurs, rfl⟩) ?_
  refine bind_ok (beU16_eq_ok id) ?_
  refine bind_ok (beU16_eq_ok flags) ?_
  refine bind_ok (beU16_eq_ok questionCount) ?_
  refine bind_ok (beU16_eq_ok answerCount) ?_
  refine bind_ok (beU16_eq_ok authorityCount) ?_
  exact bind_ok (beU16_eq_ok additionalCount) rfl

/-- With matching counts the encoding is the header followed by the sections. -/
theorem Message.encode_eq_ok {message : Message} {maxMessageLen : Nat} {octets : Octets}
    (counted : message.Counted) (encoded : message.encode maxMessageLen = .ok octets) :
    octets.length ≤ maxMessageLen ∧ ∃ questions answers authorities additionals,
      encodeMany encodeQuestion message.questions = .ok questions ∧
      encodeMany encodeRecord message.answers = .ok answers ∧
      encodeMany encodeRecord message.authorities = .ok authorities ∧
      encodeMany encodeRecord message.additionals = .ok additionals ∧
      message.header.octets ++ questions ++ answers ++ authorities ++ additionals = octets := by
  obtain ⟨questionCount, questionCount_eq, encoded⟩ := of_bind_ok encoded
  obtain ⟨answerCount, answerCount_eq, encoded⟩ := of_bind_ok encoded
  obtain ⟨authorityCount, authorityCount_eq, encoded⟩ := of_bind_ok encoded
  obtain ⟨additionalCount, additionalCount_eq, encoded⟩ := of_bind_ok encoded
  obtain ⟨questions, questions_eq, encoded⟩ := of_bind_ok encoded
  obtain ⟨answers, answers_eq, encoded⟩ := of_bind_ok encoded
  obtain ⟨authorities, authorities_eq, encoded⟩ := of_bind_ok encoded
  obtain ⟨additionals, additionals_eq, encoded⟩ := of_bind_ok encoded
  obtain ⟨fits, encoded⟩ := of_guard_ok encoded
  obtain rfl := writeCount_eq_ok counted.questionCount questionCount_eq
  obtain rfl := writeCount_eq_ok counted.answerCount answerCount_eq
  obtain rfl := writeCount_eq_ok counted.authorityCount authorityCount_eq
  obtain rfl := writeCount_eq_ok counted.additionalCount additionalCount_eq
  obtain rfl := Except.ok.inj encoded
  exact ⟨Nat.not_lt.mp fits, questions, answers, authorities, additionals, questions_eq,
    answers_eq, authorities_eq, additionals_eq, rfl⟩

/-- A readable message is parsed back from its encoding. -/
theorem parseWithLimits_encode {message : Message} {limits : ParseLimits} {maxMessageLen : Nat}
    {octets : Octets} (readable : message.Readable limits)
    (rdataLimit : 65535 ≤ limits.maxRdataLen) (encoded : message.encode maxMessageLen = .ok octets)
    (length_le : octets.length ≤ limits.maxMessageLen) (short : octets.length ≤ 65535) :
    Message.parseWithLimits octets limits = .ok message := by
  obtain ⟨-, questions, answers, authorities, additionals, questions_eq, answers_eq,
    authorities_eq, additionals_eq, octets_eq⟩ := Message.encode_eq_ok readable.toCounted encoded
  have header_length : message.header.octets.length = 12 := rfl
  have occurs := occurs_self octets
  nth_rewrite 1 [← octets_eq] at occurs
  simp only [occurs_append_iff, List.length_append, header_length, Nat.zero_add] at occurs
  obtain ⟨⟨⟨⟨header, questionsOccur⟩, answersOccur⟩, authoritiesOccur⟩, additionalsOccur⟩ := occurs
  refine guard_eq_ok_iff.mpr ⟨by omega, ?_⟩
  refine bind_ok (Header.parse_eq_ok header) ?_
  refine guard_eq_ok_iff.mpr ⟨not_not.mpr readable.reserved, ?_⟩
  rw [readable.questionCount, readable.answerCount, readable.authorityCount,
    readable.additionalCount]
  refine guard_eq_ok_iff.mpr ⟨Nat.not_lt.mpr readable.questions_le, ?_⟩
  refine guard_eq_ok_iff.mpr ⟨Nat.not_lt.mpr readable.records_le, ?_⟩
  have parsedQuestions : parseMany (parseQuestion octets limits)
      message.header.questionCount.toNat 12 = .ok (message.questions, 12 + questions.length) := by
    rw [readable.questionCount]
    apply parseMany_encodeMany _ questions_eq questionsOccur
    intro question questionMem part offset
    exact parseQuestion_encodeQuestion (readable.questions question questionMem)
  refine bind_ok parsedQuestions ?_
  refine bind_ok (parseRecords_encode readable.answers rdataLimit
    readable.answerCount answers_eq answersOccur) ?_
  refine bind_ok (parseRecords_encode readable.authorities rdataLimit
    readable.authorityCount authorities_eq authoritiesOccur) ?_
  refine bind_ok (parseRecords_encode readable.additionals rdataLimit
    readable.additionalCount additionals_eq additionalsOccur) ?_
  refine guard_eq_ok_iff.mpr ⟨not_not.mpr ?_, ?_⟩
  · rw [← octets_eq]
    simp only [List.length_append, header_length]
  · exact bind_ok readable.pseudoRecords rfl

end HnsDaneEngine.Wire
