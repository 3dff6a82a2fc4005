import HnsDaneEngine.Dane.Certificate

/-!
# The public key of the browser certificate reader

`hns-browser-dane` walks a certificate with positions in the whole document and skips
five fields unread.  Wherever the strict reader returns a public key, so does the
browser reader, and it is the same element of the same certificate.
-/

namespace HnsDaneEngine.Dane

open Buffer Control Der

namespace Browser

/-- The errors of the browser crate. -/
inductive DaneError
  | shortRecord
  | unsupportedUsage
  | unsupportedSelector
  | unsupportedMatching
  | unusableAssociationData
  | insecureTlsa
  | missingRequiredTlsa
  | webPkiFailed
  | pathValidationRequired
  | tooManyTlsaRecords
  | malformedCertificate
  | missingSubjectPublicKeyInfo
  | malformedCertificateEvidence
  | unsupportedCertificateEvidence
  | invalidCertificateEvidence
  | missingCertificateTlsa
  | invalidCertificateDnssec
  deriving DecidableEq

/-- An element by its positions. -/
structure DerElement where
  tag : UInt8
  start : Nat
  valueStart : Nat
  stop : Nat

/-- `size_of::<usize>()`. -/
def usizeBytes : Nat := 8

/-- `data[position]`, at a position inside the data. -/
def octetAt (data : Octets) (position : Nat) : Except DaneError UInt8 :=
  match data[position]? with
  | some octet => .ok octet
  | none => .error .malformedCertificate

/-- The length and the position after it.  At most eight octets, of which the first is
not zero, never overflow. -/
def readDerLength (data : Octets) (cursor limit : Nat) : Except DaneError (Nat × Nat) := do
  let first ← octetAt data cursor
  let cursor := cursor + 1
  if first &&& 0x80 = 0 then .ok (first.toNat, cursor)
  else
    let lengthOctets := (first &&& 0x7f).toNat
    if lengthOctets = 0 ∨ usizeBytes < lengthOctets then .error .malformedCertificate
    else if limit < cursor + lengthOctets then .error .malformedCertificate
    else
      match slice data cursor (cursor + lengthOctets) with
      | none => .error .malformedCertificate
      | some encoded =>
        if encoded.head? = some 0 then .error .malformedCertificate
        else
          let length := natOf encoded
          if length < 128 then .error .malformedCertificate
          else .ok (length, cursor + lengthOctets)

/-- The element at a position, and the position after it. -/
def readDerElementWithLimit (data : Octets) (start limit : Nat) :
    Except DaneError (DerElement × Nat) :=
  if limit < start + 2 then .error .malformedCertificate
  else do
    let tag ← octetAt data start
    let (length, valueStart) ← readDerLength data (start + 1) limit
    let stop := valueStart + length
    if limit < stop then .error .malformedCertificate
    else .ok (⟨tag, start, valueStart, stop⟩, stop)

def readDerElement (data : Octets) (start : Nat) : Except DaneError (DerElement × Nat) :=
  readDerElementWithLimit data start data.length

def skipDerElement (data : Octets) (cursor limit : Nat) : Except DaneError Nat := do
  let (_, cursor) ← readDerElementWithLimit data cursor limit
  return cursor

def peekDerTag (data : Octets) (cursor limit : Nat) : Except DaneError (Option UInt8) :=
  if cursor = limit then .ok none
  else if cursor < limit then .ok data[cursor]?
  else .error .malformedCertificate

/-- `count` elements are skipped. -/
def skipDerElements (data : Octets) (limit : Nat) : Nat → Nat → Except DaneError Nat
  | 0, cursor => .ok cursor
  | count + 1, cursor => do
    let cursor ← skipDerElement data cursor limit
    skipDerElements data limit count cursor

/-- An optional element with a tag. -/
def skipTagged (expected : UInt8) (data : Octets) (cursor limit : Nat) :
    Except DaneError Nat := do
  let tag ← peekDerTag data cursor limit
  if tag = some expected then skipDerElement data cursor limit else .ok cursor

/-- An optional version. -/
def skipVersion (data : Octets) (cursor limit : Nat) : Except DaneError Nat :=
  skipTagged tagExplicitVersion data cursor limit

def extractSpkiDer (certDer : Octets) : Except DaneError Octets := do
  let (certificate, cursor) ← readDerElement certDer 0
  if certificate.tag ≠ tagSequence ∨ cursor ≠ certDer.length then .error .malformedCertificate
  else
    let (tbs, _) ← readDerElement certDer certificate.valueStart
    if tbs.tag ≠ tagSequence ∨ certificate.stop < tbs.stop then .error .malformedCertificate
    else
      let tbsCursor ← skipVersion certDer tbs.valueStart tbs.stop
      let tbsCursor ← skipDerElements certDer tbs.stop 5 tbsCursor
      if tbs.stop ≤ tbsCursor then .error .missingSubjectPublicKeyInfo
      else
        let (spki, _) ← readDerElementWithLimit certDer tbsCursor tbs.stop
        if spki.tag ≠ tagSequence then .error .missingSubjectPublicKeyInfo
        else .ok ((certDer.drop spki.start).take (spki.stop - spki.start))

end Browser

section

variable {reader next : DerReader} {tlv : Tlv} {position : Nat}

theorem octetAt_eq_ok_iff {octet : UInt8} :
    reader.octetAt position = .ok octet ↔ reader.input[position]? = some octet := by
  rw [DerReader.octetAt]
  cases reader.input[position]? <;> simp

theorem range_eq_ok_iff {start stop : Nat} {part : Octets} :
    reader.range start stop = .ok part ↔
      Occurs part reader.input start ∧ stop = start + part.length := by
  rw [← slice_eq_some_iff, DerReader.range]
  cases slice reader.input start stop <;> simp

/-- A length that was read occurs at its octets. -/
theorem readLength_eq_ok {firstLength : UInt8} {length stop : Nat}
    (first_eq : reader.input[position]? = some firstLength)
    (read : reader.readLength firstLength (position + 1) = .ok (length, stop)) :
    ∃ lengthOctets, IsLength 4 lengthOctets length ∧ Occurs lengthOctets reader.input position ∧
      stop = position + lengthOctets.length := by
  have first_occurs := occurs_singleton_iff.mpr first_eq
  rw [DerReader.readLength] at read
  by_cases low : firstLength &&& 0x80 = 0
  · rw [if_pos low] at read
    rcases Prod.mk.inj (Except.ok.inj read) with ⟨rfl, rfl⟩
    exact ⟨[firstLength], .short low, first_occurs, rfl⟩
  rw [if_neg low, guard_eq_ok_iff] at read
  rcases read with ⟨count, read⟩
  rcases of_bind_ok read with ⟨encoded, encoded_eq, read⟩
  rcases range_eq_ok_iff.mp encoded_eq with ⟨occurs, end_eq⟩
  rw [guard_eq_ok_iff, guard_eq_ok_iff] at read
  rcases read with ⟨nonzero, large, read⟩
  rcases Prod.mk.inj (Except.ok.inj read) with ⟨rfl, rfl⟩
  have encoded_length : encoded.length = (firstLength &&& 0x7f).toNat := by omega
  cases encoded with
  | nil =>
    rw [List.length_nil] at encoded_length
    omega
  | cons leading rest =>
    rw [List.head?_cons, Option.some.injEq] at nonzero
    refine ⟨firstLength :: leading :: rest,
      .long low encoded_length (by omega) nonzero (Nat.not_lt.mp large),
      occurs_cons_iff.mpr ⟨first_occurs, occurs⟩, ?_⟩
    rw [List.length_cons, encoded_length]
    omega

/-- The strict reader reads the element at its cursor. -/
theorem readTlv_eq_ok (read : reader.readTlv = .ok (tlv, next)) :
    IsElement 4 tlv.tag tlv.value tlv.full ∧ Occurs tlv.full reader.input reader.cursor ∧
      next = { reader with cursor := reader.cursor + tlv.full.length } := by
  rcases of_bind_ok read with ⟨tag, tag_eq, read⟩
  rw [guard_eq_ok_iff] at read
  rcases of_bind_ok read.2 with ⟨firstLength, first_eq, read⟩
  rcases of_bind_ok read with ⟨⟨length, valueStart⟩, length_eq, read⟩
  rcases of_bind_ok read with ⟨value, value_eq, read⟩
  rcases of_bind_ok read with ⟨full, full_eq, read⟩
  rcases Prod.mk.inj (Except.ok.inj read) with ⟨rfl, rfl⟩
  rw [octetAt_eq_ok_iff] at tag_eq first_eq
  rcases readLength_eq_ok first_eq length_eq with ⟨lengthOctets, isLength, length_occurs, rfl⟩
  rcases range_eq_ok_iff.mp value_eq with ⟨value_occurs, value_length⟩
  rcases range_eq_ok_iff.mp full_eq with ⟨full_occurs, full_length⟩
  have length_value : value.length = length := by omega
  have whole : Occurs (tag :: (lengthOctets ++ value)) reader.input reader.cursor :=
    occurs_cons_iff.mpr ⟨occurs_singleton_iff.mpr tag_eq,
      occurs_append_iff.mpr ⟨length_occurs, value_occurs⟩⟩
  have full_is : full = tag :: (lengthOctets ++ value) := by
    have end_eq : reader.cursor + full.length =
        reader.cursor + (tag :: (lengthOctets ++ value)).length := by
      simp only [List.length_cons, List.length_append]
      omega
    have whole_slice := whole.slice_eq end_eq
    rw [full_occurs.slice] at whole_slice
    exact Option.some.inj whole_slice
  refine ⟨⟨lengthOctets, ?_, full_is⟩, full_occurs, ?_⟩
  · rw [length_value]
    exact isLength
  · rw [← full_length]

theorem readExpected_eq_ok {expected : UInt8}
    (read : reader.readExpected expected = .ok (tlv, next)) :
    IsElement 4 expected tlv.value tlv.full ∧ Occurs tlv.full reader.input reader.cursor ∧
      next = { reader with cursor := reader.cursor + tlv.full.length } := by
  rcases of_bind_ok read with ⟨⟨found, after⟩, found_eq, read⟩
  dsimp only at read
  rw [guard_eq_ok_iff, not_not] at read
  rcases read with ⟨tag_eq, same⟩
  rcases Prod.mk.inj (Except.ok.inj same) with ⟨rfl, rfl⟩
  rw [← tag_eq]
  exact readTlv_eq_ok found_eq

end

namespace Browser

section

variable {data value full : Octets} {tag : UInt8} {start limit : Nat}

theorem octetAt_eq_ok {position : Nat} {octet : UInt8} (found : data[position]? = some octet) :
    octetAt data position = .ok octet := by
  rw [octetAt, found]

/-- A length that occurs is read. -/
theorem readDerLength_of_occurs {lengthOctets : Octets} {length : Nat}
    (isLength : IsLength usizeBytes lengthOctets length) (occurs : Occurs lengthOctets data start)
    (within : start + lengthOctets.length ≤ limit) :
    readDerLength data start limit = .ok (length, start + lengthOctets.length) := by
  cases isLength with
  | short low =>
    rw [readDerLength, octetAt_eq_ok occurs.getElem?]
    exact if_pos low
  | @long first leading rest high count bounded nonzero large =>
    have inside := (occurs_cons_iff.mp occurs).2
    have found : slice data (start + 1) (start + 1 + (first &&& 0x7f).toNat) =
        some (leading :: rest) := inside.slice_eq (by rw [count])
    simp only [List.length_cons] at count bounded within
    have counted : ¬ ((first &&& 0x7f).toNat = 0 ∨ usizeBytes < (first &&& 0x7f).toNat) := by
      omega
    have fits : ¬ limit < start + 1 + (first &&& 0x7f).toNat := by omega
    have nonzero' : ¬ (leading :: rest).head? = some 0 := by
      rw [List.head?_cons, Option.some.injEq]
      exact nonzero
    rw [readDerLength, octetAt_eq_ok occurs.getElem?]
    change (if first &&& 0x80 = 0 then _ else _) = _
    rw [if_neg high, if_neg counted, if_neg fits, found]
    dsimp only
    rw [if_neg nonzero', if_neg (Nat.not_lt.mpr large), ← count, List.length_cons,
      List.length_cons]
    congr 2
    omega

/-- An element that occurs below the limit is read. -/
theorem readElement_of_occurs (limit : Nat) (element : IsElement usizeBytes tag value full)
    (occurs : Occurs full data start) (within : start + full.length ≤ limit) :
    ∃ valueStart, readDerElementWithLimit data start limit =
        .ok (⟨tag, start, valueStart, start + full.length⟩, start + full.length) ∧
      Occurs value data valueStart ∧ valueStart + value.length = start + full.length := by
  have two_le := element.two_le
  rcases element with ⟨lengthOctets, isLength, rfl⟩
  have parts := occurs_append_iff.mp (occurs_cons_iff.mp occurs).2
  simp only [List.length_cons, List.length_append] at within two_le ⊢
  refine ⟨start + 1 + lengthOctets.length, ?_, parts.2, by omega⟩
  have short : ¬ limit < start + 2 := by omega
  have length_eq : readDerLength data (start + 1) limit =
      .ok (value.length, start + 1 + lengthOctets.length) :=
    readDerLength_of_occurs isLength parts.1 (by omega)
  have stop_eq : start + 1 + lengthOctets.length + value.length =
      start + (lengthOctets.length + value.length + 1) := by
    omega
  rw [readDerElementWithLimit, if_neg short, octetAt_eq_ok occurs.getElem?]
  change (readDerLength data (start + 1) limit >>= _) = _
  rw [length_eq]
  change (if limit < start + 1 + lengthOctets.length + value.length then _ else _) = _
  rw [stop_eq, if_neg (by omega)]

theorem skipElement_of_occurs (element : IsElement usizeBytes tag value full)
    (occurs : Occurs full data start) (within : start + full.length ≤ limit) :
    skipDerElement data start limit = .ok (start + full.length) := by
  rcases readElement_of_occurs limit element occurs within with ⟨valueStart, read_eq, -⟩
  rw [skipDerElement, read_eq]
  rfl

/-- Elements that occur one after the other are skipped. -/
theorem skipElements_of_occurs {tags : Octets} {elements : List Octets}
    (each : List.Forall₂ (fun tag full => ∃ value, IsElement usizeBytes tag value full) tags
      elements) (occurs : Occurs elements.flatten data start)
    (within : start + elements.flatten.length ≤ limit) :
    skipDerElements data limit elements.length start = .ok (start + elements.flatten.length) := by
  induction each generalizing start with
  | nil => rfl
  | @cons tag full tags elements element _ ih =>
    rcases element with ⟨value, element⟩
    rw [List.flatten_cons] at occurs within ⊢
    rcases occurs_append_iff.mp occurs with ⟨here, later⟩
    rw [List.length_append] at within ⊢
    rw [List.length_cons, skipDerElements, skipElement_of_occurs element here (by omega)]
    change skipDerElements data limit elements.length (start + full.length) = _
    rw [ih later (by omega), Nat.add_assoc]

theorem peekTag_of_occurs (element : IsElement usizeBytes tag value full)
    (occurs : Occurs full data start) (inside : start < limit) :
    peekDerTag data start limit = .ok (some tag) := by
  rcases element with ⟨lengthOctets, -, rfl⟩
  rw [peekDerTag, if_neg inside.ne, if_pos inside, occurs.getElem?]

/-- An optional element in front of one with another tag is skipped. -/
theorem skipTagged_of_occurs {expected : UInt8} {optional : Octets}
    (isOptional : optional = [] ∨
      ∃ optionalValue, IsElement usizeBytes expected optionalValue optional)
    (occurs : Occurs optional data start) (element : IsElement usizeBytes tag value full)
    (next : Occurs full data (start + optional.length)) (other : tag ≠ expected)
    (within : start + optional.length + full.length ≤ limit) :
    skipTagged expected data start limit = .ok (start + optional.length) := by
  have nonempty := element.two_le
  rcases isOptional with rfl | ⟨optionalValue, optionalElement⟩
  · have peeked : peekDerTag data start limit = .ok (some tag) :=
      peekTag_of_occurs element next (by rw [List.length_nil] at within; omega)
    rw [skipTagged, peeked]
    exact if_neg fun same => other (Option.some.inj same)
  · rw [skipTagged, peekTag_of_occurs optionalElement occurs (by omega)]
    exact (if_pos rfl).trans (skipElement_of_occurs optionalElement occurs (by omega))

end

end Browser

/-- Tags of the five elements before the public key, after an optional version. -/
def tagsBeforeKey : Octets :=
  [tagInteger, tagSequence, tagSequence, tagSequence, tagSequence]

/-- The value of a TBS certificate: an optional version, five elements, the public key
and the rest. -/
def KeyInTbs (tbsValue spki : Octets) : Prop :=
  ∃ (version : Octets) (fields : List Octets) (tail : Octets),
    (version = [] ∨ ∃ value, IsElement 4 tagExplicitVersion value version) ∧
      List.Forall₂ (fun tag full => ∃ value, IsElement 4 tag value full) tagsBeforeKey fields ∧
      (∃ value, IsElement 4 tagSequence value spki) ∧
      tbsValue = version ++ (fields.flatten ++ (spki ++ tail))

/-- The certificate is one sequence whose first element, the TBS certificate, is a
sequence with the public key as its sixth element after an optional version. -/
def KeyInCertificate (certificateDer spki : Octets) : Prop :=
  ∃ certificateValue tbsValue tbs afterTbs : Octets,
    IsElement 4 tagSequence certificateValue certificateDer ∧
      certificateValue = tbs ++ afterTbs ∧ IsElement 4 tagSequence tbsValue tbs ∧
      KeyInTbs tbsValue spki

theorem Occurs.at_zero {part items : Octets} (occurs : Occurs part items 0) :
    ∃ after, items = part ++ after := by
  rcases occurs with ⟨before, after, items_eq, before_length⟩
  obtain rfl := List.eq_nil_of_length_eq_zero before_length
  exact ⟨after, items_eq⟩

theorem expectEmpty_eq_ok {reader : DerReader} (empty : expectEmpty reader = .ok ()) :
    reader.cursor = reader.input.length := by
  rw [expectEmpty, guard_eq_ok_iff, not_not] at empty
  exact beq_iff_eq.mp empty.1

theorem skipVersion_eq_ok {input : Octets} {fields : DerReader}
    (skipped : skipVersion (DerReader.new input) = .ok fields) :
    ∃ version, (version = [] ∨ ∃ value, IsElement 4 tagExplicitVersion value version) ∧
      Occurs version input 0 ∧ fields = ⟨input, version.length⟩ := by
  rw [skipVersion] at skipped
  by_cases marked : (DerReader.new input).peekTag = some tagExplicitVersion
  · rw [if_pos marked] at skipped
    rcases of_bind_ok skipped with ⟨⟨version, after⟩, read, skipped⟩
    rcases of_bind_ok skipped with ⟨⟨⟩, -, skipped⟩
    obtain rfl := Except.ok.inj skipped
    rcases readExpected_eq_ok read with ⟨element, occurs, rfl⟩
    refine ⟨version.full, .inr ⟨_, element⟩, occurs, ?_⟩
    simp [DerReader.new]
  · rw [if_neg marked] at skipped
    obtain rfl := Except.ok.inj skipped
    exact ⟨[], .inl rfl, ⟨[], input, rfl, rfl⟩, rfl⟩

/-- The strict reader returns the public key of the TBS certificate. -/
theorem readTbs_eq_ok {tbs outerAlgorithm : Tlv} {spki : Octets}
    (read : readTbs tbs outerAlgorithm = .ok spki) : KeyInTbs tbs.value spki := by
  rcases of_bind_ok read with ⟨start, skipped, read⟩
  rcases of_bind_ok read with ⟨⟨serial, reader1⟩, serial_eq, read⟩
  rcases of_bind_ok read with ⟨⟨⟩, -, read⟩
  rcases of_bind_ok read with ⟨⟨algorithm, reader2⟩, algorithm_eq, read⟩
  rcases of_bind_ok read with ⟨⟨⟩, -, read⟩
  rw [guard_eq_ok_iff] at read
  rcases of_bind_ok read.2 with ⟨⟨issuer, reader3⟩, issuer_eq, read⟩
  rcases of_bind_ok read with ⟨⟨⟩, -, read⟩
  rcases of_bind_ok read with ⟨⟨validity, reader4⟩, validity_eq, read⟩
  rcases of_bind_ok read with ⟨⟨⟩, -, read⟩
  rcases of_bind_ok read with ⟨⟨subject, reader5⟩, subject_eq, read⟩
  rcases of_bind_ok read with ⟨⟨⟩, -, read⟩
  rcases of_bind_ok read with ⟨⟨key, reader6⟩, key_eq, read⟩
  rcases of_bind_ok read with ⟨⟨⟩, -, read⟩
  rcases of_bind_ok read with ⟨⟨⟩, -, read⟩
  obtain rfl := Except.ok.inj read
  rcases skipVersion_eq_ok skipped with ⟨version, isVersion, version_occurs, rfl⟩
  rcases readExpected_eq_ok serial_eq with ⟨serial_is, serial_occurs, rfl⟩
  rcases readExpected_eq_ok algorithm_eq with ⟨algorithm_is, algorithm_occurs, rfl⟩
  rcases readExpected_eq_ok issuer_eq with ⟨issuer_is, issuer_occurs, rfl⟩
  rcases readExpected_eq_ok validity_eq with ⟨validity_is, validity_occurs, rfl⟩
  rcases readExpected_eq_ok subject_eq with ⟨subject_is, subject_occurs, rfl⟩
  rcases readExpected_eq_ok key_eq with ⟨key_is, key_occurs, -⟩
  -- The parts follow each other from the start of the value.
  have whole : Occurs (version ++ (serial.full ++ (algorithm.full ++ (issuer.full ++
      (validity.full ++ (subject.full ++ key.full)))))) tbs.value 0 := by
    simp only [occurs_append_iff]
    simp only [Nat.zero_add]
    exact ⟨version_occurs, serial_occurs, algorithm_occurs, issuer_occurs, validity_occurs,
      subject_occurs, key_occurs⟩
  rcases Occurs.at_zero whole with ⟨tail, value_eq⟩
  refine ⟨version, [serial.full, algorithm.full, issuer.full, validity.full, subject.full], tail,
    isVersion, ?_, ⟨_, key_is⟩, ?_⟩
  · exact .cons ⟨_, serial_is⟩ (.cons ⟨_, algorithm_is⟩ (.cons ⟨_, issuer_is⟩
      (.cons ⟨_, validity_is⟩ (.cons ⟨_, subject_is⟩ .nil))))
  · rw [value_eq]
    simp only [List.flatten_cons, List.flatten_nil, List.append_nil, List.append_assoc]

/-- The strict reader accepts only certificates with the public key in its place. -/
theorem keyInCertificate_of_strict {certificateDer spki : Octets}
    (extracted : extractSubjectPublicKeyInfo certificateDer = .ok spki) :
    KeyInCertificate certificateDer spki := by
  rcases of_bind_ok extracted with ⟨⟨certificate, document⟩, certificate_eq, extracted⟩
  rcases of_bind_ok extracted with ⟨⟨⟩, document_empty, extracted⟩
  rcases of_bind_ok extracted with ⟨⟨tbs, fields1⟩, tbs_eq, extracted⟩
  rcases of_bind_ok extracted with ⟨⟨outerAlgorithm, fields2⟩, -, extracted⟩
  rcases of_bind_ok extracted with ⟨⟨⟩, -, extracted⟩
  rcases of_bind_ok extracted with ⟨⟨signature, fields3⟩, -, extracted⟩
  rcases of_bind_ok extracted with ⟨⟨⟩, -, extracted⟩
  rcases of_bind_ok extracted with ⟨⟨⟩, -, keyRead⟩
  rcases readExpected_eq_ok certificate_eq with ⟨certificate_is, certificate_occurs, rfl⟩
  rcases readExpected_eq_ok tbs_eq with ⟨tbs_is, tbs_occurs, -⟩
  have whole_length : certificate.full.length = certificateDer.length := by
    simpa [DerReader.new] using expectEmpty_eq_ok document_empty
  rcases Occurs.at_zero certificate_occurs with ⟨after, certificateDer_eq⟩
  change certificateDer = certificate.full ++ after at certificateDer_eq
  have nothing : after = [] := by
    rw [certificateDer_eq, List.length_append] at whole_length
    exact List.eq_nil_of_length_eq_zero (by omega)
  rw [nothing, List.append_nil] at certificateDer_eq
  rcases Occurs.at_zero tbs_occurs with ⟨afterTbs, value_eq⟩
  refine ⟨certificate.value, tbs.value, tbs.full, afterTbs, ?_, value_eq, tbs_is,
    readTbs_eq_ok keyRead⟩
  rw [certificateDer_eq]
  exact certificate_is

section

variable {certDer tbsValue spki : Octets} {base : Nat}

/-- The browser reader skips what stands before the public key of a TBS certificate. -/
theorem Browser.skip_before_key {version tail : Octets} {fields : List Octets}
    (isVersion : version = [] ∨ ∃ value, IsElement 4 tagExplicitVersion value version)
    (each : List.Forall₂ (fun tag full => ∃ value, IsElement 4 tag value full) tagsBeforeKey fields)
    (occurs : Occurs (version ++ (fields.flatten ++ tail)) certDer base) {limit : Nat}
    (within : base + (version ++ (fields.flatten ++ tail)).length ≤ limit) :
    (Browser.skipVersion certDer base limit >>= Browser.skipDerElements certDer limit 5) =
      .ok (base + version.length + fields.flatten.length) := by
  rcases occurs_append_iff.mp occurs with ⟨version_occurs, rest_occurs⟩
  rcases occurs_append_iff.mp rest_occurs with ⟨fields_occurs, -⟩
  simp only [List.length_append] at within
  have count : fields.length = 5 := each.length_eq.symm
  have versionSkipped : Browser.skipVersion certDer base limit = .ok (base + version.length) := by
    -- The first element is an integer, whose tag is not that of a version.
    rcases List.forall₂_cons_left_iff.mp each with ⟨serial, later, ⟨value, element⟩, -, rfl⟩
    rw [List.flatten_cons] at fields_occurs within
    rw [List.length_append] at within
    exact Browser.skipTagged_of_occurs
      (isVersion.imp_right fun ⟨value, element⟩ => ⟨value, element.mono (by decide)⟩)
      version_occurs (element.mono (by decide)) (occurs_append_iff.mp fields_occurs).1 (by decide)
      (by omega)
  have fieldsSkipped : Browser.skipDerElements certDer limit fields.length
      (base + version.length) = .ok (base + version.length + fields.flatten.length) :=
    Browser.skipElements_of_occurs
      (each.imp fun _ _ ⟨value, element⟩ => ⟨value, element.mono (by decide)⟩) fields_occurs
      (by omega)
  rw [count] at fieldsSkipped
  rw [versionSkipped]
  exact fieldsSkipped

/-- The browser reader returns the public key of a certificate that has it in its
place. -/
theorem Browser.extractSpkiDer_of_key (key : KeyInCertificate certDer spki) :
    Browser.extractSpkiDer certDer = .ok spki := by
  rcases key with ⟨certificateValue, tbsValue, tbs, afterTbs, certificate_is, rfl, tbs_is, key⟩
  rcases key with ⟨version, fields, tail, isVersion, each, ⟨spkiValue, spki_is⟩, tbsValue_eq⟩
  replace certificate_is := certificate_is.mono (by decide : 4 ≤ Browser.usizeBytes)
  replace tbs_is := tbs_is.mono (by decide : 4 ≤ Browser.usizeBytes)
  replace spki_is := spki_is.mono (by decide : 4 ≤ Browser.usizeBytes)
  rcases Browser.readElement_of_occurs certDer.length certificate_is (occurs_self certDer)
    (Nat.le_of_eq (Nat.zero_add _)) with
    ⟨certificateStart, certificate_eq, certificateValue_occurs, certificate_stop⟩
  rcases occurs_append_iff.mp certificateValue_occurs with ⟨tbs_occurs, -⟩
  rw [List.length_append] at certificate_stop
  rcases Browser.readElement_of_occurs certDer.length tbs_is tbs_occurs (by omega) with
    ⟨tbsStart, tbs_eq, tbsValue_occurs, tbs_stop⟩
  rw [tbsValue_eq] at tbsValue_occurs tbs_stop
  have skipped := Browser.skip_before_key isVersion each tbsValue_occurs (Nat.le_of_eq tbs_stop)
  have spki_occurs := (occurs_append_iff.mp (occurs_append_iff.mp (occurs_append_iff.mp
    tbsValue_occurs).2).2).1
  simp only [List.length_append] at tbs_stop
  have two_le := spki_is.two_le
  rcases Browser.readElement_of_occurs (certificateStart + tbs.length) spki_is spki_occurs
    (by omega) with ⟨spkiStart, spki_eq, -, -⟩
  rcases of_bind_ok skipped with ⟨afterVersion, versionSkipped, fieldsSkipped⟩
  have cut : (certDer.drop (tbsStart + version.length + fields.flatten.length)).take spki.length =
      spki := by
    have sliced := spki_occurs.slice
    rw [slice, if_pos ⟨Nat.le_add_right _ _, spki_occurs.length_le⟩,
      Nat.add_sub_cancel_left] at sliced
    exact Option.some.inj sliced
  have tbs_inside : certificateStart + tbs.length ≤ certDer.length := by omega
  have key_before_end : ¬ certificateStart + tbs.length ≤
      tbsStart + version.length + fields.flatten.length := by
    omega
  rw [Browser.extractSpkiDer]
  refine bind_ok certificate_eq (guard_eq_ok_iff.mpr ⟨by simp, ?_⟩)
  refine bind_ok tbs_eq (guard_eq_ok_iff.mpr ⟨by simp [tbs_inside], ?_⟩)
  refine bind_ok versionSkipped (bind_ok fieldsSkipped ?_)
  refine guard_eq_ok_iff.mpr ⟨key_before_end, bind_ok spki_eq ?_⟩
  refine guard_eq_ok_iff.mpr ⟨by simp, ?_⟩
  rw [Nat.add_sub_cancel_left, cut]

end

/-- Where the strict reader returns a public key, the browser reader returns the same
octets, and they are the sixth element of the TBS certificate after an optional
version. -/
theorem extractSpkiDer_of_strict (certificateDer spki : Octets)
    (extracted : extractSubjectPublicKeyInfo certificateDer = .ok spki) :
    Browser.extractSpkiDer certificateDer = .ok spki ∧ KeyInCertificate certificateDer spki := by
  have key := keyInCertificate_of_strict extracted
  exact ⟨Browser.extractSpkiDer_of_key key, key⟩

theorem extractSpkiDer_of_strict_short :
    extractSubjectPublicKeyInfo shortCertificate =
        .ok [0x30, 9, 0x30, 3, 6, 1, 42, 3, 2, 0, 1] ∧
      Browser.extractSpkiDer shortCertificate = .ok [0x30, 9, 0x30, 3, 6, 1, 42, 3, 2, 0, 1] := by
  have extracted : extractSubjectPublicKeyInfo shortCertificate =
      .ok [0x30, 9, 0x30, 3, 6, 1, 42, 3, 2, 0, 1] := by
    rfl
  exact ⟨extracted, (extractSpkiDer_of_strict _ _ extracted).1⟩

end HnsDaneEngine.Dane
