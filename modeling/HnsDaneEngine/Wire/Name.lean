import HnsDaneEngine.Order.Lex

/-!
# Absolute names of the strict wire crate

A `Name` holds canonical lower-case labels, leaf first, within the RFC 1035
bounds.  The bounds are a field of the structure, as the label vector of the
source is private and only written by `from_labels`, `root` and the decoder;
every suffix of a name is therefore a name, and re-validating one succeeds.
-/

namespace HnsDaneEngine.Wire

/-- One opaque label. -/
abbrev Label := Octets

/-- Failures of the wire crate. -/
inductive Error
  | unexpectedEof
  | messageTooLong
  | countLimit
  | invalidLabel
  | nameLimit
  | pointerOutOfBounds
  | forwardPointer
  | compressionLoop
  | compressionJumpLimit
  | rdataLimit
  | invalidRdata
  | invalidEdns
  | trailingBytes
  | lengthOverflow
  | invalidQuery
  | reservedHeaderBits
  | notResponse
  | idMismatch
  | opcodeMismatch
  | questionMismatch
  | truncated
  | encodeLimit
  | typeMismatch
  deriving DecidableEq

/-- Maximum RFC 1035 label length. -/
def maxLabelLen : Nat := 63

/-- Maximum wire name length, including length octets and root. -/
def maxWireNameLen : Nat := 255

/-- `u8::to_ascii_lowercase`. -/
def toAsciiLowercase (byte : UInt8) : UInt8 :=
  if 0x41 ≤ byte ∧ byte ≤ 0x5a then byte + 0x20 else byte

def canonicalLabel (label : Label) : Label :=
  label.map toAsciiLowercase

/-- Expanded wire length of a label sequence, including the terminating root. -/
def wireLen (labels : List Label) : Nat :=
  labels.foldl (fun length label => length + label.length + 1) 1

/-- The invariant of the private label vector. -/
structure ValidLabels (labels : List Label) : Prop where
  nonempty : ∀ label ∈ labels, label ≠ []
  bounded : ∀ label ∈ labels, label.length ≤ maxLabelLen
  canonical : ∀ label ∈ labels, canonicalLabel label = label
  wireLen_le : wireLen labels ≤ maxWireNameLen

instance (labels : List Label) : Decidable (ValidLabels labels) :=
  decidable_of_iff
    ((∀ label ∈ labels, label ≠ []) ∧ (∀ label ∈ labels, label.length ≤ maxLabelLen) ∧
      (∀ label ∈ labels, canonicalLabel label = label) ∧ wireLen labels ≤ maxWireNameLen)
    ⟨fun ⟨nonempty, bounded, canonical, wireLen_le⟩ =>
      ⟨nonempty, bounded, canonical, wireLen_le⟩,
      fun ⟨nonempty, bounded, canonical, wireLen_le⟩ =>
        ⟨nonempty, bounded, canonical, wireLen_le⟩⟩

/-- A canonical, absolute DNS name. -/
structure Name where
  labels : List Label
  valid : ValidLabels labels
  deriving DecidableEq

private theorem wireLenFrom_eq (labels : List Label) (start : Nat) :
    labels.foldl (fun length label => length + label.length + 1) start + 1 =
      start + wireLen labels := by
  induction labels generalizing start with
  | nil => simp [wireLen]
  | cons label labels ih =>
    have fromStart := ih (start + label.length + 1)
    have fromOne := ih (1 + label.length + 1)
    simp only [wireLen, List.foldl_cons] at fromStart fromOne ⊢
    omega

@[simp]
theorem wireLen_nil : wireLen [] = 1 :=
  rfl

@[simp]
theorem wireLen_cons (label : Label) (labels : List Label) :
    wireLen (label :: labels) = label.length + 1 + wireLen labels := by
  have shifted := wireLenFrom_eq labels (1 + label.length + 1)
  simp only [wireLen, List.foldl_cons] at shifted ⊢
  omega

theorem wireLen_pos (labels : List Label) : 0 < wireLen labels := by
  cases labels with
  | nil => simp
  | cons label labels =>
    rw [wireLen_cons]
    omega

theorem wireLen_le_of_suffix {shorter longer : List Label} (suffix : shorter <:+ longer) :
    wireLen shorter ≤ wireLen longer := by
  rcases suffix with ⟨front, rfl⟩
  induction front with
  | nil => simp
  | cons label front ih =>
    rw [List.cons_append, wireLen_cons]
    omega

/-- Suffixes of valid label vectors are valid. -/
theorem ValidLabels.of_suffix {shorter longer : List Label} (valid : ValidLabels longer)
    (suffix : shorter <:+ longer) : ValidLabels shorter where
  nonempty label mem := valid.nonempty label (suffix.mem mem)
  bounded label mem := valid.bounded label (suffix.mem mem)
  canonical label mem := valid.canonical label (suffix.mem mem)
  wireLen_le := (wireLen_le_of_suffix suffix).trans valid.wireLen_le

theorem toAsciiLowercase_idem (byte : UInt8) :
    toAsciiLowercase (toAsciiLowercase byte) = toAsciiLowercase byte := by
  unfold toAsciiLowercase
  split
  · rename_i upper
    rw [if_neg]
    rintro ⟨_, stillUpper⟩
    simp only [UInt8.le_iff_toNat_le, UInt8.toNat_add, UInt8.reduceToNat] at upper stillUpper
    omega
  · rfl

theorem canonicalLabel_idem (label : Label) :
    canonicalLabel (canonicalLabel label) = canonicalLabel label := by
  simp [canonicalLabel, toAsciiLowercase_idem]

@[simp]
theorem canonicalLabel_length (label : Label) : (canonicalLabel label).length = label.length := by
  simp [canonicalLabel]

/-- The loop of `Name::from_labels`.  The running wire length stays far below
the machine-integer range, so `checked_add` does not fail. -/
def fromLabelsLoop : Nat → List Label → Except Error (List Label)
  | _, [] => .ok []
  | running, label :: rest =>
    if label.isEmpty ∨ maxLabelLen < label.length then .error .invalidLabel
    else if maxWireNameLen < running + (label.length + 1) then .error .nameLimit
    else
      match fromLabelsLoop (running + (label.length + 1)) rest with
      | .ok canonical => .ok (canonicalLabel label :: canonical)
      | .error error => .error error

variable {labels : List Label}

theorem fromLabelsLoop_valid {running : Nat} {canonical : List Label}
    (accepted : fromLabelsLoop running labels = .ok canonical) :
    (∀ label ∈ canonical, label ≠ [] ∧ label.length ≤ maxLabelLen ∧
      canonicalLabel label = label) ∧
      (labels ≠ [] → running + wireLen canonical ≤ maxWireNameLen + 1) := by
  induction labels generalizing running canonical with
  | nil =>
    simp only [fromLabelsLoop, Except.ok.injEq] at accepted
    subst canonical
    simp
  | cons label rest ih =>
    simp only [fromLabelsLoop] at accepted
    split at accepted
    · contradiction
    rename_i wellFormed
    split at accepted
    · contradiction
    rename_i fits
    cases tail : fromLabelsLoop (running + (label.length + 1)) rest with
    | error error => simp [tail] at accepted
    | ok tailCanonical =>
      simp only [tail, Except.ok.injEq] at accepted
      subst canonical
      obtain ⟨tailLabels, tailLength⟩ := ih tail
      simp only [List.isEmpty_iff, not_or, not_lt] at wellFormed
      constructor
      · intro member mem
        rcases List.mem_cons.mp mem with rfl | mem
        · exact ⟨by simpa [canonicalLabel] using wellFormed.1,
            by simpa using wellFormed.2, canonicalLabel_idem label⟩
        · exact tailLabels member mem
      · intro _
        rw [wireLen_cons, canonicalLabel_length]
        cases rest with
        | nil =>
          simp only [fromLabelsLoop, Except.ok.injEq] at tail
          subst tailCanonical
          rw [wireLen_nil]
          omega
        | cons next rest =>
          have bound := tailLength (by simp)
          omega

namespace Name

/-- The DNS root name. -/
def root : Name :=
  ⟨[], by decide⟩

/-- `Name::from_labels`. -/
def fromLabels (labels : List Label) : Except Error Name :=
  match accepted : fromLabelsLoop 1 labels with
  | .ok canonical =>
    .ok ⟨canonical, by
      obtain ⟨wellFormed, length⟩ := fromLabelsLoop_valid accepted
      refine ⟨fun label mem => (wellFormed label mem).1,
        fun label mem => (wellFormed label mem).2.1,
        fun label mem => (wellFormed label mem).2.2, ?_⟩
      cases labels with
      | nil =>
        simp only [fromLabelsLoop, Except.ok.injEq] at accepted
        subst canonical
        decide
      | cons label rest =>
        have bound := length (by simp)
        omega⟩
  | .error error => .error error

end Name

private theorem fromLabelsLoop_of_valid {running : Nat}
    (wellFormed : ∀ label ∈ labels, label ≠ [] ∧ label.length ≤ maxLabelLen ∧
      canonicalLabel label = label) (fits : running + wireLen labels ≤ maxWireNameLen + 1) :
    fromLabelsLoop running labels = .ok labels := by
  induction labels generalizing running with
  | nil => rfl
  | cons label rest ih =>
    obtain ⟨nonempty, bounded, canonical⟩ := wellFormed label List.mem_cons_self
    rw [wireLen_cons] at fits
    have positive := wireLen_pos rest
    have tail : fromLabelsLoop (running + (label.length + 1)) rest = .ok rest :=
      ih (fun other mem => wellFormed other (List.mem_cons_of_mem label mem)) (by omega)
    simp only [fromLabelsLoop, List.isEmpty_iff, nonempty, false_or, tail, canonical]
    rw [if_neg (by omega), if_neg (by omega)]

namespace Name

/-- Valid label vectors are accepted unchanged. -/
theorem fromLabels_of_valid (valid : ValidLabels labels) :
    fromLabels labels = .ok ⟨labels, valid⟩ := by
  have accepted : fromLabelsLoop 1 labels = .ok labels := by
    apply fromLabelsLoop_of_valid
    · intro label mem
      exact ⟨valid.nonempty label mem, valid.bounded label mem, valid.canonical label mem⟩
    · have bound := valid.wireLen_le
      omega
  unfold fromLabels
  split
  · rename_i canonical result
    rw [accepted] at result
    obtain rfl := Except.ok.inj result
    rfl
  · rename_i error result
    rw [accepted] at result
    contradiction

theorem ext_labels {first second : Name} (labels_eq : first.labels = second.labels) :
    first = second := by
  cases first
  cases second
  cases labels_eq
  rfl

/-- Names compare by their labels. -/
theorem labels_inj {first second : Name} : first.labels = second.labels ↔ first = second :=
  ⟨ext_labels, congrArg labels⟩

end Name

/-- The label part of `Name::encode`. -/
def encodeLabels : List Label → Except Error Octets
  | [] => .ok [0]
  | label :: rest =>
    if maxLabelLen < label.length then .error .invalidLabel
    else
      match encodeLabels rest with
      | .ok encoded => .ok (UInt8.ofNat label.length :: label ++ encoded)
      | .error error => .error error

/-- `Name::encode`, as the octets appended to the output. -/
def Name.encode (name : Name) : Except Error Octets :=
  if maxWireNameLen < wireLen name.labels then .error .nameLimit
  else encodeLabels name.labels

/-- The uncompressed wire form of a label sequence. -/
def wireOf : List Label → Octets
  | [] => [0]
  | label :: rest => UInt8.ofNat label.length :: label ++ wireOf rest

theorem length_wireOf (labels : List Label) : (wireOf labels).length = wireLen labels := by
  induction labels with
  | nil => rfl
  | cons label labels ih =>
    rw [wireOf, wireLen_cons, List.cons_append, List.length_cons, List.length_append, ih]
    omega

/-- Every label takes at least two octets. -/
theorem two_mul_length_lt_wireLen
    (bounds : ∀ label ∈ labels, label ≠ [] ∧ label.length ≤ maxLabelLen) :
    2 * labels.length < wireLen labels := by
  induction labels with
  | nil => simp
  | cons label labels ih =>
    rw [List.forall_mem_cons] at bounds
    have positive := List.length_pos_iff.mpr bounds.1.1
    have tail := ih bounds.2
    rw [wireLen_cons, List.length_cons]
    omega

theorem toNat_ofNat_label {label : Label} (bounded : label.length ≤ maxLabelLen) :
    (UInt8.ofNat label.length).toNat = label.length := by
  have small : label.length ≤ 63 := bounded
  rw [UInt8.toNat_ofNat']
  omega

theorem ofNat_label_ne_zero {label : Label} (nonempty : label ≠ [])
    (bounded : label.length ≤ maxLabelLen) : UInt8.ofNat label.length ≠ 0 := by
  have positive := List.length_pos_iff.mpr nonempty
  rw [Ne, ← UInt8.toNat_inj, toNat_ofNat_label bounded, UInt8.toNat_zero]
  omega

/-- The length octet of a label has no pointer bits. -/
theorem lengthOctet_high : ∀ length < 64, UInt8.ofNat length &&& 0xc0 = 0 := by
  decide

/-- Encoding a name always succeeds. -/
theorem Name.encode_eq (name : Name) : name.encode = .ok (wireOf name.labels) := by
  have labelsEncode : ∀ labels : List Label, (∀ label ∈ labels, label.length ≤ maxLabelLen) →
      encodeLabels labels = .ok (wireOf labels) := by
    intro labels
    induction labels with
    | nil => intro _; rfl
    | cons label rest ih =>
      intro bounded
      have headBound := bounded label List.mem_cons_self
      have tail := ih (fun other mem => bounded other (List.mem_cons_of_mem label mem))
      simp only [encodeLabels, tail, wireOf]
      rw [if_neg (by omega)]
  unfold Name.encode
  rw [if_neg (by have := name.valid.wireLen_le; omega)]
  exact labelsEncode name.labels name.valid.bounded

/-- Label sequences within the label bounds are determined by their wire form. -/
theorem wireOf_inj {first second : List Label}
    (firstBounds : ∀ label ∈ first, label ≠ [] ∧ label.length ≤ maxLabelLen)
    (secondBounds : ∀ label ∈ second, label ≠ [] ∧ label.length ≤ maxLabelLen)
    (equal : wireOf first = wireOf second) : first = second := by
  induction first generalizing second with
  | nil =>
    cases second with
    | nil => rfl
    | cons label rest =>
      obtain ⟨nonempty, bounded⟩ := secondBounds label List.mem_cons_self
      exact absurd (List.cons.inj equal).1.symm (ofNat_label_ne_zero nonempty bounded)
  | cons label rest ih =>
    rw [List.forall_mem_cons] at firstBounds
    cases second with
    | nil =>
      exact absurd (List.cons.inj equal).1 (ofNat_label_ne_zero firstBounds.1.1 firstBounds.1.2)
    | cons other otherRest =>
      rw [List.forall_mem_cons] at secondBounds
      simp only [wireOf, List.cons_append, List.cons.injEq, ← UInt8.toNat_inj,
        UInt8.toNat_ofNat'] at equal
      have labelSmall : label.length ≤ 63 := firstBounds.1.2
      have otherSmall : other.length ≤ 63 := secondBounds.1.2
      obtain ⟨rfl, rest_eq⟩ := List.append_inj equal.2 (by omega)
      rw [ih firstBounds.2 secondBounds.2 rest_eq]

end HnsDaneEngine.Wire
