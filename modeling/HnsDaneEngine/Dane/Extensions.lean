import HnsDaneEngine.Dane.Agreement

/-!
# The extensions of a certificate

The browser crate walks the TBS certificate to its extensions and compares the object
identifier of each with a text.  The text is written by a loop with a 32-bit number, which
reads the first octet alone as the first two numbers.
-/

namespace HnsDaneEngine.Dane.Browser

open Buffer Control Der

def tagBoolean : UInt8 := 0x01

def tagOctetString : UInt8 := 0x04

def u32Max : Nat := 2 ^ 32 - 1

/-- The loop of `oid_to_string` over the octets after the first: the numbers that it writes. -/
def oidNumbers : Nat → Bool → Octets → Except DaneError (List Nat)
  | _, sawByte, [] => if sawByte then .error .malformedCertificate else .ok []
  | value, _, octet :: rest =>
    let value := value * 128 + (octet &&& 0x7f).toNat
    if u32Max < value then .error .malformedCertificate
    else if octet &&& 0x80 = 0 then do
      let numbers ← oidNumbers 0 false rest
      return value :: numbers
    else oidNumbers value true rest

def oidToString : Octets → Except DaneError String
  | [] => .error .malformedCertificate
  | first :: rest => do
    let numbers ← oidNumbers 0 false rest
    return dotted ((first / 40).toNat :: (first % 40).toNat :: numbers)

/-- `cert_der[start..stop]`. -/
def derRange (certDer : Octets) (start stop : Nat) : Octets :=
  (certDer.drop start).take (stop - start)

/-- One round of `parse_extensions_element`: what the extension adds to the values, and the
position after it. -/
def parseExtension (certDer : Octets) (targetOid : String) (cursor stop : Nat) :
    Except DaneError (List Octets × Nat) := do
  let (extension, cursor) ← readDerElementWithLimit certDer cursor stop
  if extension.tag ≠ tagSequence then .error .malformedCertificate
  else
    let (oid, extCursor) ← readDerElementWithLimit certDer extension.valueStart extension.stop
    if oid.tag ≠ tagObjectIdentifier then .error .malformedCertificate
    else
      let oidText ← oidToString (derRange certDer oid.valueStart oid.stop)
      let extCursor ← skipTagged tagBoolean certDer extCursor extension.stop
      let (value, extCursor) ← readDerElementWithLimit certDer extCursor extension.stop
      if value.tag ≠ tagOctetString ∨ extCursor ≠ extension.stop then .error .malformedCertificate
      else
        .ok (if oidText = targetOid then [derRange certDer value.valueStart value.stop] else [],
          cursor)

/-- The loop of `parse_extensions_element`.  Every extension takes an octet, so that the length
of the certificate bounds the rounds. -/
def parseExtensions (certDer : Octets) (targetOid : String) (stop : Nat) :
    Nat → Nat → Except DaneError (List Octets)
  | 0, _ => .ok []
  | rounds + 1, cursor =>
    if stop ≤ cursor then .ok []
    else do
      let (values, cursor) ← parseExtension certDer targetOid cursor stop
      let later ← parseExtensions certDer targetOid stop rounds cursor
      return values ++ later

def parseExtensionsElement (certDer : Octets) (wrapper : DerElement) (targetOid : String) :
    Except DaneError (List Octets) := do
  let (extensions, wrapperCursor) ← readDerElementWithLimit certDer wrapper.valueStart wrapper.stop
  if extensions.tag ≠ tagSequence ∨ wrapperCursor ≠ wrapper.stop then .error .malformedCertificate
  else parseExtensions certDer targetOid extensions.stop certDer.length extensions.valueStart

/-- The loop over what follows the public key. -/
def findExtensions (certDer : Octets) (targetOid : String) (stop : Nat) :
    Nat → Nat → Except DaneError (List Octets)
  | 0, _ => .ok []
  | rounds + 1, cursor =>
    if stop ≤ cursor then .ok []
    else do
      let tag ← peekDerTag certDer cursor stop
      if tag.isNone then .error .malformedCertificate
      else
        let (element, cursor) ← readDerElementWithLimit certDer cursor stop
        if tag = some tagExtensions then parseExtensionsElement certDer element targetOid
        else findExtensions certDer targetOid stop rounds cursor

def certificateExtensionValues (certDer : Octets) (targetOid : String) :
    Except DaneError (List Octets) := do
  let (certificate, cursor) ← readDerElement certDer 0
  if certificate.tag ≠ tagSequence ∨ cursor ≠ certDer.length then .error .malformedCertificate
  else
    let (tbs, _) ← readDerElement certDer certificate.valueStart
    if tbs.tag ≠ tagSequence ∨ certificate.stop < tbs.stop then .error .malformedCertificate
    else
      let tbsCursor ← skipVersion certDer tbs.valueStart tbs.stop
      let tbsCursor ← skipDerElements certDer tbs.stop 6 tbsCursor
      findExtensions certDer targetOid tbs.stop certDer.length tbsCursor

/-- An extension without its critical flag, which nothing reads. -/
structure Extension where
  oid : ObjectIdentifier
  value : Octets

/-- The octets are the extension: its identifier, an optional flag and an octet string. -/
def Extension.IsEncoded (extension : Extension) (full : Octets) : Prop :=
  ∃ content oid critical value : Octets,
    IsElement usizeBytes tagSequence (oid ++ (critical ++ value)) full ∧
      IsElement usizeBytes tagObjectIdentifier content oid ∧ extension.oid.IsEncoded content ∧
      (critical = [] ∨ ∃ flag, IsElement usizeBytes tagBoolean flag critical) ∧
      IsElement usizeBytes tagOctetString extension.value value

/-- The end of a TBS certificate: nothing, or the extensions in their wrapper. -/
def ExtensionsField (extensions : List Extension) (field : Octets) : Prop :=
  (extensions = [] ∧ field = []) ∨ ∃ (encoded : List Octets) (sequence : Octets),
      List.Forall₂ Extension.IsEncoded extensions encoded ∧
        IsElement usizeBytes tagSequence encoded.flatten sequence ∧
        IsElement usizeBytes tagExtensions sequence field

/-- The value of a TBS certificate: an optional version, six elements of which the first is no
version, unique identifiers and the extensions. -/
def TbsWithExtensions (tbsValue : Octets) (extensions : List Extension) : Prop :=
  ∃ (version : Octets) (tags : Octets) (fields uniqueIds : List Octets)
    (field : Octets),
    (version = [] ∨ ∃ value, IsElement usizeBytes tagExplicitVersion value version) ∧
      tags.length = 6 ∧ tags.head? ≠ some tagExplicitVersion ∧
      List.Forall₂ (fun tag full => ∃ value, IsElement usizeBytes tag value full) tags fields ∧
      (∀ uniqueId ∈ uniqueIds, ∃ tag value, IsElement usizeBytes tag value uniqueId ∧
        (tag = tagIssuerUniqueId ∨ tag = tagSubjectUniqueId)) ∧
      ExtensionsField extensions field ∧
      tbsValue = version ++ (fields.flatten ++ (uniqueIds.flatten ++ field))

/-- The certificate is one sequence that starts with the TBS certificate. -/
def CertificateWithExtensions (certDer : Octets) (extensions : List Extension) : Prop :=
  ∃ tbsValue tbs afterTbs : Octets, IsElement usizeBytes tagSequence (tbs ++ afterTbs) certDer ∧
      IsElement usizeBytes tagSequence tbsValue tbs ∧ TbsWithExtensions tbsValue extensions

/-- The values of the extensions with an identifier. -/
def valuesOf (target : ObjectIdentifier) (extensions : List Extension) : List Octets :=
  (extensions.filter fun extension => extension.oid.numbers == target.numbers).map
    Extension.value

/-- Every number after the first octet fits into 32 bits. -/
def Renders (oid : ObjectIdentifier) : Prop :=
  oid.leading % 128 ^ Nat.log 128 oid.leading ≤ u32Max ∧ ∀ arc ∈ oid.arcs, arc ≤ u32Max

instance (oid : ObjectIdentifier) : Decidable (Renders oid) :=
  inferInstanceAs (Decidable (_ ∧ _))

section

variable {flagged rest content : Octets} {last : UInt8} {oid : ObjectIdentifier}

/-- The loop over one subidentifier. -/
theorem oidNumbers_append (value : Nat) (sawByte : Bool)
    (flags : ∀ octet ∈ flagged, octet &&& 0x80 ≠ 0) (last_flag : last &&& 0x80 = 0) :
    oidNumbers value sawByte (flagged ++ last :: rest) =
      if u32Max < base128From value (flagged ++ [last]) then .error .malformedCertificate
      else (oidNumbers 0 false rest).map (base128From value (flagged ++ [last]) :: ·) := by
  induction flagged generalizing value sawByte with
  | nil =>
    change (if u32Max < value * 128 + (last &&& 0x7f).toNat then _
      else if last &&& 0x80 = 0 then _ else _) = _
    rw [if_pos last_flag]
    rfl
  | cons octet flagged ih =>
    rw [List.forall_mem_cons] at flags
    change (if u32Max < value * 128 + (octet &&& 0x7f).toNat then _
      else if octet &&& 0x80 = 0 then _ else oidNumbers _ true (flagged ++ last :: rest)) = _
    have grows := base128From_eq (value * 128 + (octet &&& 0x7f).toNat) (flagged ++ [last])
    have step : base128From value (octet :: flagged ++ [last]) =
        base128From (value * 128 + (octet &&& 0x7f).toNat) (flagged ++ [last]) := rfl
    rw [step, if_neg flags.1, ih _ true flags.2]
    by_cases early : u32Max < value * 128 + (octet &&& 0x7f).toNat
    · have le := Nat.le_mul_of_pos_right (value * 128 + (octet &&& 0x7f).toNat)
        (Nat.pow_pos (by decide : 0 < 128) : 0 < 128 ^ (flagged ++ [last]).length)
      rw [if_pos early, if_pos (by omega)]
    · rw [if_neg early]

/-- The loop over whole subidentifiers. -/
theorem oidNumbers_flatten {arcs : List Nat} {encoded : List Octets}
    (each : List.Forall₂
      (fun arc octets => ∃ flagged last, octets = flagged ++ [last] ∧ IsSubidentifier flagged last arc)
      arcs encoded) :
    oidNumbers 0 false encoded.flatten =
      if ∀ arc ∈ arcs, arc ≤ u32Max then .ok arcs else .error .malformedCertificate := by
  induction each with
  | nil => simp [oidNumbers]
  | @cons arc octets arcs encoded isArc _ ih =>
    rcases isArc with ⟨flagged, last, rfl, isArc⟩
    rw [List.flatten_cons, List.append_assoc, List.singleton_append,
      oidNumbers_append 0 false isArc.flags isArc.last_flag, isArc.value_eq, ih]
    simp only [List.forall_mem_cons]
    by_cases fits : arc ≤ u32Max
    · rw [if_neg (Nat.not_lt.mpr fits)]
      by_cases later : ∀ arc ∈ arcs, arc ≤ u32Max
      · rw [if_pos later, if_pos ⟨fits, later⟩]
        rfl
      · rw [if_neg later, if_neg fun all => later all.2]
        rfl
    · rw [if_pos (Nat.lt_of_not_le fits), if_neg fun all => fits all.1]

/-- The text of an identifier with first octet `first` is that of other numbers only if the octet
is the whole leading subidentifier. -/
theorem dotted_octet_eq_iff {first : UInt8} {later : List Nat} (target : ObjectIdentifier)
    (short : oid.leading < 120 → first.toNat = oid.leading ∧ later = oid.arcs)
    (long : 120 ≤ oid.leading → 120 ≤ first.toNat) :
    dotted ((first / 40).toNat :: (first % 40).toNat :: later) = dotted target.numbers ↔
      oid.leading < 120 ∧ oid.numbers = target.numbers := by
  have root_le := target.root_le
  have quotient : (first / 40).toNat = first.toNat / 40 := UInt8.toNat_div _ _
  have remainder : (first % 40).toNat = first.toNat % 40 := UInt8.toNat_mod _ _
  rw [dotted_inj (by simp) (by simp [ObjectIdentifier.numbers]), quotient, remainder]
  rcases Nat.lt_or_ge oid.leading 120 with small | great
  · rcases short small with ⟨first_eq, rfl⟩
    have root_small := oid.root_le
    have branch_small : oid.branch < 40 := by
      rcases Nat.lt_or_ge oid.root 2 with low | high
      · exact oid.branch_lt low
      · rw [ObjectIdentifier.leading] at small
        omega
    have root_eq : oid.leading / 40 = oid.root := by
      rw [ObjectIdentifier.leading]
      omega
    have branch_eq : oid.leading % 40 = oid.branch := by
      rw [ObjectIdentifier.leading]
      omega
    rw [first_eq, root_eq, branch_eq]
    simp [small, ObjectIdentifier.numbers]
  · have first_great := long great
    constructor
    · intro same
      have head_eq := (List.cons.inj same).1
      omega
    · rintro ⟨small, -⟩
      omega

/-- The text is written unless a number overflows, and shows small leading subidentifiers only. -/
theorem oidToString_of_renders (isEncoded : oid.IsEncoded content) (renders : Renders oid) :
    ∃ text, oidToString content = .ok text ∧ ∀ target : ObjectIdentifier,
      text = dotted target.numbers ↔ oid.leading < 120 ∧ oid.numbers = target.numbers := by
  rcases isEncoded with ⟨flagged, last, encoded, leading, each, rfl⟩
  cases flagged with
  | nil =>
    rcases leading.single with ⟨leading_eq, small⟩
    refine ⟨dotted ((last / 40).toNat :: (last % 40).toNat :: oid.arcs), ?_, ?_⟩
    · rw [List.nil_append, oidToString, oidNumbers_flatten each, if_pos renders.2]
      rfl
    · intro target
      exact dotted_octet_eq_iff target (fun _ => ⟨leading_eq.symm, rfl⟩) (by omega)
  | cons first flagged =>
    rcases leading.tail with ⟨great, tail_eq⟩
    have first_high := leading.first_high
    refine ⟨dotted ((first / 40).toNat :: (first % 40).toNat ::
      oid.leading % 128 ^ Nat.log 128 oid.leading :: oid.arcs), ?_, ?_⟩
    · rw [List.cons_append, oidToString, oidNumbers_append 0 false
        (List.forall_mem_cons.mp leading.flags).2 leading.last_flag, tail_eq,
        if_neg (Nat.not_lt.mpr renders.1), oidNumbers_flatten each, if_pos renders.2]
      rfl
    · intro target
      exact dotted_octet_eq_iff target (by omega) (by omega)

theorem oidToString_of_overflow (isEncoded : oid.IsEncoded content) (overflows : ¬ Renders oid) :
    oidToString content = .error .malformedCertificate := by
  rcases isEncoded with ⟨flagged, last, encoded, leading, each, rfl⟩
  cases flagged with
  | nil =>
    rcases leading.single with ⟨leading_eq, small⟩
    have log_eq : Nat.log 128 oid.leading = 0 := Nat.log_of_lt small
    have arcs_overflow : ¬ ∀ arc ∈ oid.arcs, arc ≤ u32Max := by
      intro fits
      refine overflows ⟨?_, fits⟩
      rw [log_eq, Nat.pow_zero, Nat.mod_one]
      exact Nat.zero_le _
    rw [List.nil_append, oidToString, oidNumbers_flatten each, if_neg arcs_overflow]
    rfl
  | cons first flagged =>
    rw [List.cons_append, oidToString, oidNumbers_append 0 false
      (List.forall_mem_cons.mp leading.flags).2 leading.last_flag, leading.tail.2]
    by_cases fits : oid.leading % 128 ^ Nat.log 128 oid.leading ≤ u32Max
    · rw [if_neg (Nat.not_lt.mpr fits), oidNumbers_flatten each,
        if_neg fun arcsFit => overflows ⟨fits, arcsFit⟩]
      rfl
    · rw [if_pos (Nat.lt_of_not_le fits)]
      rfl

end

/-- The text of the extension's identifier is that of the target. -/
def Shows (target : ObjectIdentifier) (extension : Extension) : Prop :=
  extension.oid.leading < 120 ∧ extension.oid.numbers = target.numbers

instance (target : ObjectIdentifier) (extension : Extension) : Decidable (Shows target extension) :=
  inferInstanceAs (Decidable (_ ∧ _))

/-- The values that the comparison of texts selects. -/
def shownValues (target : ObjectIdentifier) (extensions : List Extension) : List Octets :=
  (extensions.filter (Shows target)).map Extension.value

section

variable {certDer : Octets} {target : ObjectIdentifier} {extension : Extension}
  {extensions : List Extension} {cursor stop : Nat}

theorem derRange_of_occurs {part : Octets} {start : Nat}
    (occurs : Occurs part certDer start) (stop_eq : start + part.length = stop) :
    derRange certDer start stop = part := by
  have sliced := occurs.slice
  rw [slice, if_pos ⟨Nat.le_add_right _ _, occurs.length_le⟩] at sliced
  rw [derRange, ← stop_eq]
  exact Option.some.inj sliced

theorem parseExtension_of_occurs {full : Octets} (isEncoded : extension.IsEncoded full)
    (occurs : Occurs full certDer cursor) (within : cursor + full.length ≤ stop) :
    parseExtension certDer (dotted target.numbers) cursor stop =
      if Renders extension.oid then
        .ok (if Shows target extension then [extension.value] else [], cursor + full.length)
      else .error .malformedCertificate := by
  rcases isEncoded with ⟨content, oid, critical, value, isFull, isOid, isContent, isCritical, isValue⟩
  rcases readElement_of_occurs stop isFull occurs within with
    ⟨start, full_eq, inner_occurs, full_stop⟩
  rcases occurs_append_iff.mp inner_occurs with ⟨oid_occurs, rest_occurs⟩
  rcases occurs_append_iff.mp rest_occurs with ⟨critical_occurs, value_occurs⟩
  simp only [List.length_append] at full_stop
  rcases readElement_of_occurs (cursor + full.length) isOid oid_occurs (by omega) with
    ⟨oidStart, oid_eq, content_occurs, oid_stop⟩
  have skipped : skipTagged tagBoolean certDer (start + oid.length) (cursor + full.length) =
      .ok (start + oid.length + critical.length) :=
    skipTagged_of_occurs isCritical critical_occurs isValue value_occurs (by decide) (by omega)
  rcases readElement_of_occurs (cursor + full.length) isValue value_occurs (by omega) with
    ⟨valueStart, value_eq, payload_occurs, value_stop⟩
  have end_eq : start + oid.length + critical.length + value.length = cursor + full.length := by
    omega
  rw [end_eq] at value_eq value_stop
  rw [parseExtension, full_eq]
  change (readDerElementWithLimit certDer start (cursor + full.length) >>= _) = _
  rw [oid_eq]
  change (oidToString (derRange certDer oidStart (start + oid.length)) >>= _) = _
  rw [derRange_of_occurs content_occurs oid_stop]
  by_cases renders : Renders extension.oid
  · rcases oidToString_of_renders isContent renders with ⟨text, text_eq, shows_iff⟩
    rw [text_eq, if_pos renders]
    change (skipTagged tagBoolean certDer (start + oid.length) (cursor + full.length) >>= _) = _
    rw [skipped]
    change (readDerElementWithLimit certDer (start + oid.length + critical.length)
      (cursor + full.length) >>= _) = _
    rw [value_eq]
    change (if _ ∨ _ then _ else _) = _
    rw [if_neg (by simp), derRange_of_occurs payload_occurs value_stop]
    have same : text = dotted target.numbers ↔ Shows target extension := shows_iff target
    by_cases shows : Shows target extension
    · rw [if_pos shows, if_pos (same.mpr shows)]
    · rw [if_neg shows, if_neg fun equal => shows (same.mp equal)]
  · rw [oidToString_of_overflow isContent renders, if_neg renders]
    rfl

theorem shownValues_cons :
    shownValues target (extension :: extensions) =
      (if Shows target extension then [extension.value] else []) ++
        shownValues target extensions := by
  by_cases shows : Shows target extension
  · simp [shownValues, shows]
  · simp [shownValues, shows]

variable {encoded : List Octets}

theorem parseExtensions_of_occurs {rounds : Nat}
    (each : List.Forall₂ Extension.IsEncoded extensions encoded)
    (occurs : Occurs encoded.flatten certDer cursor)
    (stop_eq : cursor + encoded.flatten.length = stop) (enough : encoded.flatten.length ≤ rounds) :
    parseExtensions certDer (dotted target.numbers) stop rounds cursor =
      if ∀ extension ∈ extensions, Renders extension.oid then .ok (shownValues target extensions)
      else .error .malformedCertificate := by
  induction each generalizing cursor rounds with
  | nil =>
    have ended : stop ≤ cursor := by
      rw [List.flatten_nil, List.length_nil] at stop_eq
      omega
    cases rounds with
    | zero => simp [parseExtensions, shownValues]
    | succ rounds => simp [parseExtensions, shownValues, ended]
  | @cons extension full extensions encoded isEncoded _ ih =>
    have two_le : 2 ≤ full.length := by
      rcases isEncoded with ⟨content, oid, critical, value, isFull, -⟩
      exact isFull.two_le
    rw [List.flatten_cons] at occurs stop_eq enough
    rw [List.length_append] at stop_eq enough
    rcases occurs_append_iff.mp occurs with ⟨here, later⟩
    cases rounds with
    | zero => omega
    | succ rounds =>
      rw [parseExtensions, if_neg (by omega), parseExtension_of_occurs isEncoded here (by omega)]
      simp only [List.forall_mem_cons]
      by_cases renders : Renders extension.oid
      · rw [if_pos renders]
        change (parseExtensions certDer _ stop rounds (cursor + full.length) >>= _) = _
        rw [ih later (by omega) (by omega)]
        by_cases rest : ∀ extension ∈ extensions, Renders extension.oid
        · have all : Renders extension.oid ∧ ∀ extension ∈ extensions, Renders extension.oid :=
            ⟨renders, rest⟩
          rw [if_pos rest, if_pos all, shownValues_cons]
          rfl
        · have none_left : ¬ (Renders extension.oid ∧
              ∀ extension ∈ extensions, Renders extension.oid) := fun all => rest all.2
          rw [if_neg rest, if_neg none_left]
          rfl
      · rw [if_neg renders, if_neg fun all => renders all.1]
        rfl

/-- The wrapper with the extensions is read to its end. -/
theorem parseExtensionsElement_of_occurs {sequence : Octets} {wrapper : DerElement}
    (each : List.Forall₂ Extension.IsEncoded extensions encoded)
    (isSequence : IsElement usizeBytes tagSequence encoded.flatten sequence)
    (occurs : Occurs sequence certDer wrapper.valueStart)
    (stop_eq : wrapper.valueStart + sequence.length = wrapper.stop) :
    parseExtensionsElement certDer wrapper (dotted target.numbers) =
      if ∀ extension ∈ extensions, Renders extension.oid then .ok (shownValues target extensions)
      else .error .malformedCertificate := by
  rcases readElement_of_occurs wrapper.stop isSequence occurs stop_eq.le with
    ⟨start, sequence_eq, flatten_occurs, flatten_stop⟩
  rw [parseExtensionsElement, sequence_eq]
  change (if _ ∨ _ then _ else _) = _
  rw [if_neg (by simp [stop_eq])]
  exact parseExtensions_of_occurs each flatten_occurs flatten_stop
    ((Nat.le_add_left _ _).trans flatten_occurs.length_le)

/-- The walk passes unique identifiers and reads the extensions. -/
theorem findExtensions_of_occurs {uniqueIds : List Octets} {field : Octets} {rounds : Nat}
    (isUnique : ∀ uniqueId ∈ uniqueIds, ∃ tag value, IsElement usizeBytes tag value uniqueId ∧
      (tag = tagIssuerUniqueId ∨ tag = tagSubjectUniqueId))
    (isField : ExtensionsField extensions field)
    (occurs : Occurs (uniqueIds.flatten ++ field) certDer cursor)
    (stop_eq : cursor + (uniqueIds.flatten ++ field).length = stop)
    (enough : (uniqueIds.flatten ++ field).length ≤ rounds) :
    findExtensions certDer (dotted target.numbers) stop rounds cursor =
      if ∀ extension ∈ extensions, Renders extension.oid then .ok (shownValues target extensions)
      else .error .malformedCertificate := by
  induction uniqueIds generalizing cursor rounds with
  | nil =>
    rw [List.flatten_nil, List.nil_append] at occurs stop_eq enough
    rcases isField with ⟨rfl, rfl⟩ | ⟨encoded, sequence, each, isSequence, isWrapper⟩
    · have ended : stop ≤ cursor := by
        rw [List.length_nil] at stop_eq
        omega
      cases rounds with
      | zero => simp [findExtensions, shownValues]
      | succ rounds => simp [findExtensions, shownValues, ended]
    · have two_le := isWrapper.two_le
      cases rounds with
      | zero => omega
      | succ rounds =>
        rcases readElement_of_occurs stop isWrapper occurs stop_eq.le with
          ⟨start, wrapper_eq, sequence_occurs, sequence_stop⟩
        rw [findExtensions, if_neg (by omega), peekTag_of_occurs isWrapper occurs (by omega)]
        change (readDerElementWithLimit certDer cursor stop >>= _) = _
        rw [wrapper_eq]
        change (if some tagExtensions = some tagExtensions then _
          else findExtensions certDer (dotted target.numbers) stop rounds
            (cursor + field.length)) = _
        rw [if_pos rfl]
        exact parseExtensionsElement_of_occurs each isSequence sequence_occurs sequence_stop
  | cons uniqueId uniqueIds ih =>
    rw [List.forall_mem_cons] at isUnique
    rcases isUnique with ⟨⟨tag, value, isElement, tags⟩, isUnique⟩
    have two_le := isElement.two_le
    rw [List.flatten_cons, List.append_assoc] at occurs stop_eq enough
    rw [List.length_append] at stop_eq enough
    rcases occurs_append_iff.mp occurs with ⟨here, later⟩
    cases rounds with
    | zero => omega
    | succ rounds =>
      rcases readElement_of_occurs stop isElement here (by omega) with ⟨start, element_eq, -, -⟩
      have other : ¬ some tag = some tagExtensions := by
        rcases tags with rfl | rfl <;> decide
      rw [findExtensions, if_neg (by omega), peekTag_of_occurs isElement here (by omega)]
      change (readDerElementWithLimit certDer cursor stop >>= _) = _
      rw [element_eq]
      change (if some tag = some tagExtensions then _
        else findExtensions certDer _ stop rounds (cursor + uniqueId.length)) = _
      rw [if_neg other]
      exact ih isUnique later (by omega) (by omega)

/-- The values that are found in a well-formed certificate, and when it is refused. -/
theorem certificateExtensionValues_eq (certificate : CertificateWithExtensions certDer extensions) :
    certificateExtensionValues certDer (dotted target.numbers) =
      if ∀ extension ∈ extensions, Renders extension.oid then .ok (shownValues target extensions)
      else .error .malformedCertificate := by
  rcases certificate with ⟨tbsValue, tbs, afterTbs, isCertificate, isTbs, version, tags, fields,
    uniqueIds, field, isVersion, count, noVersion, each, isUnique, isField, rfl⟩
  rcases readElement_of_occurs certDer.length isCertificate (occurs_self certDer)
    (Nat.le_of_eq (Nat.zero_add _)) with
    ⟨certificateStart, certificate_eq, inner_occurs, certificate_stop⟩
  rcases occurs_append_iff.mp inner_occurs with ⟨tbs_occurs, -⟩
  rw [List.length_append] at certificate_stop
  rcases readElement_of_occurs certDer.length isTbs tbs_occurs (by omega) with
    ⟨tbsStart, tbs_eq, tbsValue_occurs, tbs_stop⟩
  rcases occurs_append_iff.mp tbsValue_occurs with ⟨version_occurs, rest_occurs⟩
  rcases occurs_append_iff.mp rest_occurs with ⟨fields_occurs, end_occurs⟩
  rw [List.length_append, List.length_append] at tbs_stop
  have skipped : skipVersion certDer tbsStart (certificateStart + tbs.length) =
      .ok (tbsStart + version.length) := by
    cases each with
    | nil => simp at count
    | @cons tag first tags fields isFirst _ =>
      rcases isFirst with ⟨value, isFirst⟩
      rw [List.flatten_cons] at fields_occurs tbs_stop
      rw [List.length_append] at tbs_stop
      have other : tag ≠ tagExplicitVersion := by simpa using noVersion
      exact skipTagged_of_occurs isVersion version_occurs isFirst
        (occurs_append_iff.mp fields_occurs).1 other (by omega)
  have fieldsSkipped : skipDerElements certDer (certificateStart + tbs.length) fields.length
      (tbsStart + version.length) = .ok (tbsStart + version.length + fields.flatten.length) :=
    skipElements_of_occurs each fields_occurs (by omega)
  rw [← each.length_eq, count] at fieldsSkipped
  rw [certificateExtensionValues, readDerElement, certificate_eq]
  change (if _ ∨ _ then _ else _) = _
  rw [if_neg (by simp)]
  change (readDerElementWithLimit certDer certificateStart certDer.length >>= _) = _
  rw [tbs_eq]
  change (if _ ∨ _ then _ else _) = _
  rw [if_neg (by simp; omega)]
  change (skipVersion certDer tbsStart (certificateStart + tbs.length) >>= _) = _
  rw [skipped]
  change (skipDerElements certDer (certificateStart + tbs.length) 6 (tbsStart + version.length)
    >>= _) = _
  rw [fieldsSkipped]
  exact findExtensions_of_occurs isUnique isField end_occurs (by dsimp only; omega)
    ((Nat.le_add_left _ _).trans end_occurs.length_le)

/-- The target is shown by no identifier, and an extension carries it. -/
def HiddenTarget (target : ObjectIdentifier) (extensions : List Extension) : Prop :=
  120 ≤ target.leading ∧ ∃ extension ∈ extensions, extension.oid.numbers = target.numbers

theorem leading_eq_of_numbers {first second : ObjectIdentifier}
    (same : first.numbers = second.numbers) : first.leading = second.leading := by
  simp only [ObjectIdentifier.numbers, List.cons.injEq] at same
  rw [ObjectIdentifier.leading, ObjectIdentifier.leading, same.1, same.2.1]

/-- The texts select what the identifiers select unless the target is hidden. -/
theorem shownValues_eq_iff :
    shownValues target extensions = valuesOf target extensions ↔
      ¬ HiddenTarget target extensions := by
  rcases Nat.lt_or_ge target.leading 120 with small | great
  · have same : shownValues target extensions = valuesOf target extensions := by
      rw [shownValues, valuesOf]
      congr 1
      apply List.filter_congr
      intro extension _
      by_cases equal : extension.oid.numbers = target.numbers
      · have leading_lt : extension.oid.leading < 120 := by
          rwa [leading_eq_of_numbers equal]
        simp [Shows, equal, leading_lt]
      · simp [Shows, equal]
    constructor
    · rintro - ⟨high, -⟩
      omega
    · intro
      exact same
  · have nothing : shownValues target extensions = [] := by
      rw [shownValues, List.map_eq_nil_iff, List.filter_eq_nil_iff]
      intro extension _ shows
      rw [decide_eq_true_eq] at shows
      have low := shows.1
      rw [leading_eq_of_numbers shows.2] at low
      omega
    rw [nothing, eq_comm, valuesOf, List.map_eq_nil_iff, List.filter_eq_nil_iff]
    constructor
    · rintro none_carries ⟨-, extension, mem, equal⟩
      exact none_carries extension mem (beq_iff_eq.mpr equal)
    · intro visible extension mem equal
      exact visible ⟨great, extension, mem, beq_iff_eq.mp equal⟩

/-- The extraction is exact when every identifier fits and the target is not hidden. -/
theorem certificateExtensionValues_exact_iff
    (certificate : CertificateWithExtensions certDer extensions) :
    certificateExtensionValues certDer (dotted target.numbers) = .ok (valuesOf target extensions) ↔
      (∀ extension ∈ extensions, Renders extension.oid) ∧ ¬ HiddenTarget target extensions := by
  rw [certificateExtensionValues_eq certificate]
  by_cases fits : ∀ extension ∈ extensions, Renders extension.oid
  · rw [if_pos fits, Except.ok.injEq, shownValues_eq_iff]
    exact ⟨fun visible => ⟨fits, visible⟩, And.right⟩
  rw [if_neg fits]
  constructor
  · intro refused
    cases refused
  · rintro ⟨fit, -⟩
    exact absurd fit fits

end

end HnsDaneEngine.Dane.Browser
