import HnsDaneEngine.Control.Except
import HnsDaneEngine.Encoding.Der

/-!
# The strict certificate reader

`hns-dane` reads a certificate with nested readers, each over the value of one
element, and validates every field before it returns the public key.  Lengths have at
most four octets, so that the checked arithmetic of the source does not fail.
-/

namespace HnsDaneEngine.Dane

open Buffer Control Der

/-- Why a validation fails. -/
inductive DaneError
  | missingTlsa
  | tooManyTlsaRecords
  | certificateLength
  | malformedCertificate
  | spkiLength
  | unsupportedUsage (value : UInt8)
  | unsupportedSelector (value : UInt8)
  | unsupportedMatchingType (value : UInt8)
  | invalidAssociationLength
  | mismatch
  | chainLength
  | chainValidation
  | invalidServerName
  deriving DecidableEq

def tagInteger : UInt8 := 0x02

def tagBitString : UInt8 := 0x03

def tagObjectIdentifier : UInt8 := 0x06

def tagSequence : UInt8 := 0x30

def tagUtcTime : UInt8 := 0x17

def tagGeneralizedTime : UInt8 := 0x18

def tagIssuerUniqueId : UInt8 := 0x81

def tagSubjectUniqueId : UInt8 := 0x82

def tagExtensions : UInt8 := 0xa3

def tagExplicitVersion : UInt8 := 0xa0

/-- An element as read. -/
structure Tlv where
  tag : UInt8
  full : Octets
  value : Octets

/-- The input and where it is read. -/
structure DerReader where
  input : Octets
  cursor : Nat

variable (reader : DerReader)

namespace DerReader

def new (input : Octets) : DerReader :=
  ⟨input, 0⟩

def isEmpty : Bool :=
  reader.cursor == reader.input.length

def peekTag : Option UInt8 :=
  reader.input[reader.cursor]?

/-- `self.input.get(position).ok_or(MalformedCertificate)`. -/
def octetAt (position : Nat) : Except DaneError UInt8 :=
  match reader.input[position]? with
  | some octet => .ok octet
  | none => .error .malformedCertificate

/-- `self.input.get(start..stop).ok_or(MalformedCertificate)`. -/
def range (start stop : Nat) : Except DaneError Octets :=
  match slice reader.input start stop with
  | some part => .ok part
  | none => .error .malformedCertificate

/-- The length after its first octet, and the position after it. -/
def readLength (firstLength : UInt8) (cursor : Nat) : Except DaneError (Nat × Nat) :=
  if firstLength &&& 0x80 = 0 then .ok (firstLength.toNat, cursor)
  else
    let octets := (firstLength &&& 0x7f).toNat
    if octets = 0 ∨ 4 < octets then .error .malformedCertificate
    else do
      let lengthEnd := cursor + octets
      let encoded ← reader.range cursor lengthEnd
      if encoded.head? = some 0 then .error .malformedCertificate
      else
        let length := natOf encoded
        if length < 128 then .error .malformedCertificate
        else .ok (length, lengthEnd)

def readTlv : Except DaneError (Tlv × DerReader) := do
  let start := reader.cursor
  let tag ← reader.octetAt start
  if tag &&& 0x1f = 0x1f then .error .malformedCertificate
  else
    let firstLength ← reader.octetAt (start + 1)
    let (length, valueStart) ← reader.readLength firstLength (start + 2)
    let stop := valueStart + length
    let value ← reader.range valueStart stop
    let full ← reader.range start stop
    return (⟨tag, full, value⟩, { reader with cursor := stop })

def readExpected (expected : UInt8) : Except DaneError (Tlv × DerReader) := do
  let (value, reader) ← reader.readTlv
  if value.tag ≠ expected then .error .malformedCertificate else .ok (value, reader)

end DerReader

/-- The reader has nothing left. -/
def expectEmpty (reader : DerReader) : Except DaneError Unit :=
  if ¬ reader.isEmpty then .error .malformedCertificate else .ok ()

def validateVersion (input : Octets) : Except DaneError Unit := do
  let (version, reader) ← (DerReader.new input).readExpected tagInteger
  if ¬ reader.isEmpty ∨ version.value.length ≠ 1 ∨ version.value.head?.all (2 < ·) then
    .error .malformedCertificate
  else .ok ()

def validateInteger (input : Octets) : Except DaneError Unit :=
  match input with
  | [] => .error .malformedCertificate
  | [_] => .ok ()
  | first :: second :: _ =>
    if (first = 0 ∧ second &&& 0x80 = 0) ∨ (first = 0xff ∧ second &&& 0x80 ≠ 0) then
      .error .malformedCertificate
    else .ok ()

def validateAlgorithmIdentifier (input : Octets) : Except DaneError Unit := do
  let (oid, reader) ← (DerReader.new input).readExpected tagObjectIdentifier
  if oid.value.isEmpty then .error .malformedCertificate
  else if reader.isEmpty then .ok ()
  else
    let (_, reader) ← reader.readTlv
    expectEmpty reader

def validateBitString (input : Octets) : Except DaneError Unit :=
  match input.head? with
  | none => .error .malformedCertificate
  | some unusedBits =>
    if 7 < unusedBits ∨ input.length < 2 then .error .malformedCertificate
    else if unusedBits ≠ 0 ∧
        input.getLast?.any (fun last => last &&& ((1 <<< unusedBits) - 1) != 0) then
      .error .malformedCertificate
    else .ok ()

/-- The loop of `validate_name`.  Every element takes an octet, so that the length of
the input bounds the rounds. -/
def validateElements : Nat → DerReader → Except DaneError Unit
  | 0, _ => .ok ()
  | rounds + 1, reader =>
    if reader.isEmpty then .ok ()
    else do
      let (_, reader) ← reader.readTlv
      validateElements rounds reader

def validateName (input : Octets) : Except DaneError Unit :=
  validateElements input.length (DerReader.new input)

/-- One time of the validity. -/
def readTime (reader : DerReader) : Except DaneError DerReader := do
  let (time, reader) ← reader.readTlv
  if ¬ (time.tag = tagUtcTime ∨ time.tag = tagGeneralizedTime) ∨ time.value.isEmpty then
    .error .malformedCertificate
  else .ok reader

def validateValidity (input : Octets) : Except DaneError Unit := do
  let reader ← readTime (DerReader.new input)
  let reader ← readTime reader
  expectEmpty reader

def validateSpki (input : Octets) : Except DaneError Unit := do
  let (algorithm, reader) ← (DerReader.new input).readExpected tagSequence
  validateAlgorithmIdentifier algorithm.value
  let (key, reader) ← reader.readExpected tagBitString
  validateBitString key.value
  expectEmpty reader

/-- The loop of `validate_tbs_tail`, with the tag of the last field. -/
def validateTail : Nat → UInt8 → DerReader → Except DaneError Unit
  | 0, _, _ => .ok ()
  | rounds + 1, lastTag, reader =>
    if reader.isEmpty then .ok ()
    else do
      let (field, reader) ← reader.readTlv
      if ¬ (field.tag = tagIssuerUniqueId ∨ field.tag = tagSubjectUniqueId ∨
          field.tag = tagExtensions) ∨ field.tag ≤ lastTag then .error .malformedCertificate
      else validateTail rounds field.tag reader

def validateTbsTail (reader : DerReader) : Except DaneError Unit :=
  validateTail reader.input.length 0 reader

/-- The bytes have one length and no bit differs. -/
def constantTimeEq (left right : Octets) : Bool :=
  if left.length ≠ right.length then false
  else (left.zip right).foldl (fun difference pair => difference ||| (pair.1 ^^^ pair.2)) 0 == 0

theorem foldl_difference_eq_zero_iff (pairs : List (UInt8 × UInt8)) (difference : UInt8) :
    pairs.foldl (fun difference pair => difference ||| (pair.1 ^^^ pair.2)) difference = 0 ↔
      difference = 0 ∧ ∀ pair ∈ pairs, pair.1 = pair.2 := by
  induction pairs generalizing difference with
  | nil => simp
  | cons pair pairs ih =>
    rw [List.foldl_cons, ih, UInt8.or_eq_zero_iff, UInt8.xor_eq_zero_iff,
      List.forall_mem_cons, and_assoc]

@[simp]
theorem constantTimeEq_iff {left right : Octets} :
    constantTimeEq left right = true ↔ left = right := by
  rw [← List.forall₂_eq_eq_eq, List.forall₂_iff_zip, constantTimeEq]
  split
  next different => simp [different]
  next same =>
    rw [beq_iff_eq, foldl_difference_eq_zero_iff]
    simp [not_not.mp same]

/-- An optional version. -/
def skipVersion (fields : DerReader) : Except DaneError DerReader :=
  if fields.peekTag = some tagExplicitVersion then do
    let (version, fields) ← fields.readExpected tagExplicitVersion
    validateVersion version.value
    return fields
  else .ok fields

/-- The fields of the TBS certificate up to its public key. -/
def readTbs (tbs outerAlgorithm : Tlv) : Except DaneError Octets := do
  let fields ← skipVersion (DerReader.new tbs.value)
  let (serial, fields) ← fields.readExpected tagInteger
  validateInteger serial.value
  let (tbsAlgorithm, fields) ← fields.readExpected tagSequence
  validateAlgorithmIdentifier tbsAlgorithm.value
  if ¬ constantTimeEq tbsAlgorithm.full outerAlgorithm.full then .error .malformedCertificate
  else
    let (issuer, fields) ← fields.readExpected tagSequence
    validateName issuer.value
    let (validity, fields) ← fields.readExpected tagSequence
    validateValidity validity.value
    let (subject, fields) ← fields.readExpected tagSequence
    validateName subject.value
    let (spki, fields) ← fields.readExpected tagSequence
    validateSpki spki.value
    validateTbsTail fields
    return spki.full

def extractSubjectPublicKeyInfo (certificateDer : Octets) : Except DaneError Octets := do
  let (certificate, document) ← (DerReader.new certificateDer).readExpected tagSequence
  expectEmpty document
  let (tbs, certificateFields) ← (DerReader.new certificate.value).readExpected tagSequence
  let (outerAlgorithm, certificateFields) ← certificateFields.readExpected tagSequence
  validateAlgorithmIdentifier outerAlgorithm.value
  let (signature, certificateFields) ← certificateFields.readExpected tagBitString
  validateBitString signature.value
  expectEmpty certificateFields
  readTbs tbs outerAlgorithm

/-- A certificate with the shortest fields. -/
def shortCertificate : Octets :=
  [0x30, 0x2a, 0x30, 0x1f, 0x02, 1, 1, 0x30, 3, 6, 1, 42, 0x30, 0, 0x30, 6, 0x17, 1, 48, 0x17, 1, 48,
    0x30, 0, 0x30, 9, 0x30, 3, 6, 1, 42, 3, 2, 0, 1, 0x30, 3, 6, 1, 42, 3, 2, 0, 1]

example : extractSubjectPublicKeyInfo shortCertificate =
    .ok [0x30, 9, 0x30, 3, 6, 1, 42, 3, 2, 0, 1] := by
  decide +kernel

end HnsDaneEngine.Dane
