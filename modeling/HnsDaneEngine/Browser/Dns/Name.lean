import HnsDaneEngine.Encoding.Buffer
import HnsDaneEngine.Wire.Name

/-!
# Names of the browser DNS module

A `DnsName` of the browser crates holds lower-case labels of letters, digits,
hyphens and underscores, or the single label `*`.  Names come from wire data,
where labels may be reached through compression pointers, or from text.  The
label vector is private to the module, so its bounds are a field here.  Names
that are assembled again from the text of valid labels, as the resolver does
for the ancestors of a name, come back unchanged.
-/

namespace HnsDaneEngine.Browser

open Buffer Wire

/-- Failures of the browser parsers. -/
inductive ParseError
  | unexpectedEof
  | trailingBytes
  | lengthLimit
  | invalidDnsLabel
  | invalidDnsPointer
  | invalidSvcb

/-- Maximum presentation length of a name. -/
def maxDnsNameLen : Nat := 253

def maxDnsLabelLen : Nat := 63

/-- The label of wildcard owners. -/
def star : Label := [0x2a]

/-- ASCII letters and digits, `-` and `_`. -/
def isLabelByte (byte : UInt8) : Bool :=
  (0x30 ≤ byte && byte ≤ 0x39) || (0x41 ≤ byte && byte ≤ 0x5a) ||
    (0x61 ≤ byte && byte ≤ 0x7a) || byte == 0x2d || byte == 0x5f

def isValidDnsLabel (label : Label) : Bool :=
  label == star || label.all isLabelByte

/-- The invariant of the private label vector. -/
structure ValidDnsLabels (labels : List Label) : Prop where
  nonempty : ∀ label ∈ labels, label ≠ []
  bounded : ∀ label ∈ labels, label.length ≤ maxDnsLabelLen
  wellFormed : ∀ label ∈ labels, isValidDnsLabel label = true
  lowercase : ∀ label ∈ labels, canonicalLabel label = label
  wireLen_le : wireLen labels ≤ maxDnsNameLen + 2

instance (labels : List Label) : Decidable (ValidDnsLabels labels) :=
  decidable_of_iff
    ((∀ label ∈ labels, label ≠ []) ∧ (∀ label ∈ labels, label.length ≤ maxDnsLabelLen) ∧
      (∀ label ∈ labels, isValidDnsLabel label = true) ∧
      (∀ label ∈ labels, canonicalLabel label = label) ∧ wireLen labels ≤ maxDnsNameLen + 2)
    ⟨fun ⟨nonempty, bounded, wellFormed, lowercase, wireLen_le⟩ =>
      ⟨nonempty, bounded, wellFormed, lowercase, wireLen_le⟩,
      fun ⟨nonempty, bounded, wellFormed, lowercase, wireLen_le⟩ =>
        ⟨nonempty, bounded, wellFormed, lowercase, wireLen_le⟩⟩

/-- Suffixes of valid label vectors are valid. -/
theorem ValidDnsLabels.of_suffix {shorter longer : List Label} (valid : ValidDnsLabels longer)
    (suffix : shorter <:+ longer) : ValidDnsLabels shorter where
  nonempty label mem := valid.nonempty label (suffix.mem mem)
  bounded label mem := valid.bounded label (suffix.mem mem)
  wellFormed label mem := valid.wellFormed label (suffix.mem mem)
  lowercase label mem := valid.lowercase label (suffix.mem mem)
  wireLen_le := (wireLen_le_of_suffix suffix).trans valid.wireLen_le

/-- An absolute name, leaf label first. -/
structure DnsName where
  labels : List Label
  valid : ValidDnsLabels labels
  deriving DecidableEq

namespace DnsName

def root : DnsName :=
  ⟨[], by decide⟩

theorem ext_labels {first second : DnsName} (labels_eq : first.labels = second.labels) :
    first = second := by
  cases first
  cases second
  cases labels_eq
  rfl

/-- Names compare by their labels. -/
theorem labels_inj {first second : DnsName} : first.labels = second.labels ↔ first = second :=
  ⟨ext_labels, congrArg labels⟩

end DnsName

/-- Pointers that `parse_wire` follows at most. -/
def maxPointerJumps : Nat := 16

/-- What stands at a position of an encoded name. -/
inductive WireItem
  | pointer (target : Nat)
  | root
  | label (bytes : Label)

/-- The reading part of one round of `DnsName::parse_wire`. -/
def readWireItem (message : Octets) (cursor : Nat) : Except ParseError WireItem :=
  match message[cursor]? with
  | none => .error .unexpectedEof
  | some length =>
    if length &&& 0xc0 = 0xc0 then
      match message[cursor + 1]? with
      | none => .error .unexpectedEof
      | some next =>
        let pointer := (length &&& 0x3f).toNat <<< 8 ||| next.toNat
        if message.length ≤ pointer then .error .invalidDnsPointer
        else .ok (.pointer pointer)
    else if length &&& 0xc0 ≠ 0 then .error .invalidDnsLabel
    else if length = 0 then .ok .root
    else if maxDnsLabelLen < length.toNat then .error .invalidDnsLabel
    else if message.length < cursor + 1 + length.toNat then .error .unexpectedEof
    else
      let labelBytes := (message.drop (cursor + 1)).take length.toNat
      if !isValidDnsLabel labelBytes then .error .invalidDnsLabel
      else .ok (.label labelBytes)

/-- What stands where an item is read. -/
theorem readWireItem_eq_ok_iff {message : Octets} {cursor : Nat} {item : WireItem} :
    readWireItem message cursor = .ok item ↔
      match item with
      | .root => Occurs [0] message cursor
      | .label bytes =>
        Occurs (UInt8.ofNat bytes.length :: bytes) message cursor ∧ bytes ≠ [] ∧
          bytes.length ≤ maxDnsLabelLen ∧ isValidDnsLabel bytes = true
      | .pointer target =>
        ∃ high low, Occurs [high, low] message cursor ∧ high &&& 0xc0 = 0xc0 ∧
          target = (high &&& 0x3f).toNat <<< 8 ||| low.toNat ∧ target < message.length := by
  constructor
  · intro read
    unfold readWireItem at read
    split at read
    · cases read
    next length at_cursor =>
      rw [← occurs_singleton_iff] at at_cursor
      split at read
      next marked =>
        split at read
        · cases read
        next low after =>
          dsimp only at read
          split at read <;> cases read
          next inside =>
            exact ⟨length, low, occurs_cons_iff.mpr ⟨at_cursor, occurs_singleton_iff.mpr after⟩,
              marked, rfl, Nat.not_le.mp inside⟩
      next =>
        split at read
        · cases read
        next plain =>
          split at read
          next zero =>
            cases read
            exact zero ▸ at_cursor
          next nonzero =>
            split at read
            · cases read
            next short =>
              split at read
              · cases read
              next inside =>
                dsimp only at read
                split at read <;> cases read
                next wellFormed =>
                  have occurs := occurs_take_drop (Nat.not_lt.mp inside)
                  have length_eq : ((message.drop (cursor + 1)).take length.toNat).length =
                      length.toNat :=
                    List.length_take_of_le (by rw [List.length_drop]; omega)
                  generalize (message.drop (cursor + 1)).take length.toNat = bytes
                    at occurs length_eq wellFormed ⊢
                  rw [← length_eq] at short
                  refine ⟨?_, ?_, Nat.not_lt.mp short, by simpa using wellFormed⟩
                  · rw [length_eq, UInt8.ofNat_toNat]
                    exact occurs_cons_iff.mpr ⟨at_cursor, occurs⟩
                  · rintro rfl
                    exact nonzero (UInt8.toNat_inj.mp length_eq.symm)
  · cases item with
    | root =>
      intro occurs
      simp [readWireItem, occurs.getElem?]
    | label bytes =>
      rintro ⟨occurs, nonempty, bounded, wellFormed⟩
      have enough := occurs.length_le
      rw [List.length_cons] at enough
      rw [readWireItem, occurs.getElem?]
      dsimp only
      rw [lengthOctet_high bytes.length (Nat.lt_succ_of_le bounded), if_neg (by decide),
        if_neg (by decide), if_neg (ofNat_label_ne_zero nonempty bounded),
        toNat_ofNat_label bounded, if_neg (Nat.not_lt.mpr bounded), if_neg (by omega),
        (occurs_cons_iff.mp occurs).2.take_drop, wellFormed]
      rfl
    | pointer target =>
      rintro ⟨high, low, occurs, marked, rfl, inside⟩
      rw [readWireItem, occurs.getElem?]
      dsimp only
      rw [if_pos marked, (occurs_cons_iff.mp occurs).2.getElem?]
      exact if_neg (Nat.not_le.mpr inside)

/-- The loop of `DnsName::parse_wire`, as labels and the end of the name.  The
first argument bounds the number of rounds. -/
def parseWireFrom (message : Octets) :
    Nat → Nat → List Label → Option Nat → Nat → Except ParseError (List Label × Nat)
  | 0, _, _, _, _ => .error .lengthLimit
  | rounds + 1, cursor, labels, consumed, jumps =>
    match readWireItem message cursor with
    | .error error => .error error
    | .ok (.pointer target) =>
      if maxPointerJumps < jumps + 1 then .error .invalidDnsPointer
      else
        -- The name ends in the message after the first pointer.
        parseWireFrom message rounds target labels (consumed.or (some (cursor + 2))) (jumps + 1)
    | .ok .root => .ok (labels, consumed.getD (cursor + 1))
    | .ok (.label bytes) =>
      let labels := labels ++ [canonicalLabel bytes]
      if maxDnsNameLen + 1 < (labels.map fun label => label.length + 1).sum then
        .error .lengthLimit
      else
        parseWireFrom message rounds (cursor + 1 + bytes.length) labels consumed jumps

/-- Rounds that are enough for every message: labels of a name take at least two
octets each, every other round follows a pointer, and one ends the name. -/
def maxWireRounds : Nat := (maxDnsNameLen + 1) / 2 + maxPointerJumps + 1

/-- Octets of a label sequence without the terminating root. -/
def labelOctets (labels : List Label) : Nat :=
  (labels.map fun label => label.length + 1).sum

@[simp]
theorem labelOctets_append (first second : List Label) :
    labelOctets (first ++ second) = labelOctets first + labelOctets second := by
  simp [labelOctets]

@[simp]
theorem labelOctets_singleton (label : Label) : labelOctets [label] = label.length + 1 := by
  simp [labelOctets]

theorem wireLen_eq_labelOctets (labels : List Label) : wireLen labels = labelOctets labels + 1 := by
  induction labels with
  | nil => rfl
  | cons label rest ih =>
    rw [wireLen_cons, ih]
    simp only [labelOctets, List.map_cons, List.sum_cons]
    omega

variable {label : Label} {labels : List Label}

theorem canonicalLabel_isValid (wellFormed : isValidDnsLabel label = true) :
    isValidDnsLabel (canonicalLabel label) = true := by
  have lowerByte : ∀ byte, isLabelByte byte = true →
      isLabelByte (toAsciiLowercase byte) = true := by
    intro byte accepted
    unfold toAsciiLowercase
    split
    · rename_i upper
      have shifted : (byte + 0x20).toNat = byte.toNat + 32 := by
        have letter := UInt8.le_iff_toNat_le.mp upper.2
        simp only [UInt8.toNat_add, UInt8.reduceToNat] at letter ⊢
        omega
      simp only [isLabelByte, Bool.or_eq_true, Bool.and_eq_true, decide_eq_true_eq,
        UInt8.le_iff_toNat_le, shifted, UInt8.reduceToNat] at upper ⊢
      omega
    · exact accepted
  simp only [isValidDnsLabel, Bool.or_eq_true, beq_iff_eq, List.all_eq_true] at wellFormed ⊢
  rcases wellFormed with rfl | bytes
  · left
    decide
  · right
    intro byte mem
    obtain ⟨source, sourceMem, rfl⟩ := List.mem_map.mp mem
    exact lowerByte source (bytes source sourceMem)

/-- The part of the label invariant that the parsing loops maintain. -/
private structure ParsedLabels (labels : List Label) : Prop where
  wellFormed : ∀ label ∈ labels, label ≠ [] ∧ label.length ≤ maxDnsLabelLen ∧
    isValidDnsLabel label = true ∧ canonicalLabel label = label
  bounded : labelOctets labels ≤ maxDnsNameLen + 1

private theorem ParsedLabels.valid (parsed : ParsedLabels labels) :
    ValidDnsLabels labels where
  nonempty label mem := (parsed.wellFormed label mem).1
  bounded label mem := (parsed.wellFormed label mem).2.1
  wellFormed label mem := (parsed.wellFormed label mem).2.2.1
  lowercase label mem := (parsed.wellFormed label mem).2.2.2
  wireLen_le := by
    rw [wireLen_eq_labelOctets]
    exact Nat.succ_le_succ parsed.bounded

/-- One more label of the loop. -/
private theorem ParsedLabels.concat (parsed : ParsedLabels labels) (nonempty : label ≠ [])
    (short : label.length ≤ maxDnsLabelLen) (wellFormed : isValidDnsLabel label = true)
    (bounded : labelOctets (labels ++ [canonicalLabel label]) ≤ maxDnsNameLen + 1) :
    ParsedLabels (labels ++ [canonicalLabel label]) := by
  refine ⟨?_, bounded⟩
  intro member mem
  rcases List.mem_append.mp mem with mem | mem
  · exact parsed.wellFormed member mem
  · rw [List.mem_singleton] at mem
    subst mem
    exact ⟨by simpa [canonicalLabel] using nonempty, by simpa using short,
      canonicalLabel_isValid wellFormed, canonicalLabel_idem label⟩

variable {message : Octets} {parsed : List Label} {rounds cursor jumps stop : Nat}
  {consumed : Option Nat}

/-- What a round of a run that returns has read, and how it goes on. -/
theorem parseWireFrom_eq_ok
    (accepted : parseWireFrom message (rounds + 1) cursor labels consumed jumps =
      .ok (parsed, stop)) :
    (readWireItem message cursor = .ok .root ∧ parsed = labels ∧
        stop = consumed.getD (cursor + 1)) ∨
      (∃ bytes, readWireItem message cursor = .ok (.label bytes) ∧
        labelOctets (labels ++ [canonicalLabel bytes]) ≤ maxDnsNameLen + 1 ∧
        parseWireFrom message rounds (cursor + 1 + bytes.length)
          (labels ++ [canonicalLabel bytes]) consumed jumps = .ok (parsed, stop)) ∨
      ∃ target, readWireItem message cursor = .ok (.pointer target) ∧ jumps + 1 ≤ maxPointerJumps ∧
        parseWireFrom message rounds target labels (consumed.or (some (cursor + 2)))
          (jumps + 1) = .ok (parsed, stop) := by
  rw [parseWireFrom] at accepted
  cases read : readWireItem message cursor with
  | error error =>
    rw [read] at accepted
    cases accepted
  | ok item =>
    rw [read] at accepted
    cases item with
    | root =>
      cases accepted
      exact .inl ⟨rfl, rfl, rfl⟩
    | label bytes =>
      dsimp only at accepted
      split at accepted
      · cases accepted
      next bounded => exact .inr (.inl ⟨bytes, rfl, Nat.not_lt.mp bounded, accepted⟩)
    | pointer target =>
      dsimp only at accepted
      split at accepted
      · cases accepted
      next few => exact .inr (.inr ⟨target, rfl, Nat.not_lt.mp few, accepted⟩)

private theorem parseWireFrom_parsed (start : ParsedLabels labels)
    (accepted : parseWireFrom message rounds cursor labels consumed jumps = .ok (parsed, stop)) :
    ParsedLabels parsed := by
  induction rounds generalizing cursor labels consumed jumps with
  | zero => cases accepted
  | succ rounds ih =>
    rcases parseWireFrom_eq_ok accepted with
      ⟨-, rfl, -⟩ | ⟨bytes, read, bounded, later⟩ | ⟨_, -, -, later⟩
    · exact start
    · rcases readWireItem_eq_ok_iff.mp read with ⟨-, nonempty, short, wellFormed⟩
      exact ih (start.concat nonempty short wellFormed bounded) later
    · exact ih start later

namespace DnsName

/-- `DnsName::parse_wire`: the name at an offset of a message and the offset
after it. -/
def parseWire (message : Octets) (offset : Nat) : Except ParseError (DnsName × Nat) :=
  match accepted : parseWireFrom message maxWireRounds offset [] none 0 with
  | .ok (labels, stop) =>
    .ok (⟨labels, (parseWireFrom_parsed ⟨by simp, by simp [labelOctets]⟩ accepted).valid⟩, stop)
  | .error error => .error error

theorem parseWire_eq_ok {name : DnsName} : parseWire message cursor = .ok (name, stop) ↔
    parseWireFrom message maxWireRounds cursor [] none 0 = .ok (name.labels, stop) := by
  rw [parseWire]
  split
  next labels last accepted => simp [accepted, ← labels_inj]
  next error refused => simp [refused]

/-- `DnsName::encode_wire`, as the octets appended to the output. -/
def encodeWireLabels : List Label → Except ParseError Octets
  | [] => .ok [0]
  | label :: rest =>
    if maxDnsLabelLen < label.length then .error .invalidDnsLabel
    else
      match encodeWireLabels rest with
      | .ok encoded => .ok (UInt8.ofNat label.length :: label ++ encoded)
      | .error error => .error error

def encodeWire (name : DnsName) : Except ParseError Octets :=
  encodeWireLabels name.labels

/-- Encoding a name always succeeds. -/
theorem encodeWire_eq (name : DnsName) : name.encodeWire = .ok (wireOf name.labels) := by
  have labelsEncode : ∀ labels : List Label, (∀ label ∈ labels, label.length ≤ maxDnsLabelLen) →
      encodeWireLabels labels = .ok (wireOf labels) := by
    intro labels
    induction labels with
    | nil => intro _; rfl
    | cons label rest ih =>
      intro bounded
      have headBound := bounded label List.mem_cons_self
      have tail := ih (fun other mem => bounded other (List.mem_cons_of_mem label mem))
      simp only [encodeWireLabels, tail, wireOf]
      rw [if_neg (by omega)]
  exact labelsEncode name.labels name.valid.bounded

end DnsName

/-- `char::is_whitespace`, the Unicode `White_Space` property. -/
def isWhitespace (char : Char) : Bool :=
  let code := char.toNat
  (0x09 ≤ code && code ≤ 0x0d) || code == 0x20 || code == 0x85 || code == 0xa0 ||
    code == 0x1680 || (0x2000 ≤ code && code ≤ 0x200a) || code == 0x2028 || code == 0x2029 ||
    code == 0x202f || code == 0x205f || code == 0x3000

/-- `str::trim_end_matches`. -/
def trimEndMatches (isMatch : Char → Bool) (text : List Char) : List Char :=
  (text.reverse.dropWhile isMatch).reverse

/-- `str::trim`. -/
def trim (text : List Char) : List Char :=
  trimEndMatches isWhitespace (text.dropWhile isWhitespace)

/-- `str::as_bytes`. -/
def asBytes (text : List Char) : Octets :=
  text.flatMap String.utf8EncodeChar

/-- The label loop of `DnsName::from_ascii`. -/
def labelsFromAscii : List (List Char) → Except ParseError (List Label)
  | [] => .ok []
  | text :: rest =>
    let label := asBytes text
    if label.isEmpty ∨ maxDnsLabelLen < label.length ∨ !isValidDnsLabel label then
      .error .invalidDnsLabel
    else
      match labelsFromAscii rest with
      | .ok labels => .ok (canonicalLabel label :: labels)
      | .error error => .error error

private theorem labelsFromAscii_wellFormed {texts : List (List Char)}
    (accepted : labelsFromAscii texts = .ok labels) :
    ∀ label ∈ labels, label ≠ [] ∧ label.length ≤ maxDnsLabelLen ∧
      isValidDnsLabel label = true ∧ canonicalLabel label = label := by
  induction texts generalizing labels with
  | nil =>
    simp only [labelsFromAscii, Except.ok.injEq] at accepted
    subst labels
    simp
  | cons text rest ih =>
    simp only [labelsFromAscii] at accepted
    split at accepted
    · contradiction
    rename_i wellFormed
    simp only [List.isEmpty_iff, Bool.not_eq_true', not_or, Bool.not_eq_false,
      Nat.not_lt] at wellFormed
    cases tail : labelsFromAscii rest with
    | error error => simp [tail] at accepted
    | ok tailLabels =>
      simp only [tail, Except.ok.injEq] at accepted
      subst labels
      intro label mem
      rcases List.mem_cons.mp mem with rfl | mem
      · exact ⟨by simpa [canonicalLabel] using wellFormed.1, by simpa using wellFormed.2.1,
          canonicalLabel_isValid wellFormed.2.2, canonicalLabel_idem _⟩
      · exact ih tail label mem

/-- `DnsName::wire_len`. -/
def dnsWireLen (labels : List Label) : Nat :=
  if labels.isEmpty then 1 else (labels.map fun label => label.length + 1).sum + 1

theorem dnsWireLen_eq (labels : List Label) : dnsWireLen labels = wireLen labels := by
  rw [wireLen_eq_labelOctets]
  cases labels with
  | nil => rfl
  | cons label rest => rfl

namespace DnsName

/-- `DnsName::from_ascii`. -/
def fromAscii (text : List Char) : Except ParseError DnsName :=
  let trimmed := trimEndMatches (· == '.') (trim text)
  if trimmed.isEmpty then .ok root
  else
    match accepted : labelsFromAscii (trimmed.splitOn '.') with
    | .error error => .error error
    | .ok labels =>
      if fits : dnsWireLen labels ≤ maxDnsNameLen + 2 then
        .ok ⟨labels,
          fun label mem => (labelsFromAscii_wellFormed accepted label mem).1,
          fun label mem => (labelsFromAscii_wellFormed accepted label mem).2.1,
          fun label mem => (labelsFromAscii_wellFormed accepted label mem).2.2.1,
          fun label mem => (labelsFromAscii_wellFormed accepted label mem).2.2.2,
          dnsWireLen_eq labels ▸ fits⟩
      else .error .lengthLimit

end DnsName

/-- The text of a label. -/
def labelText (label : Label) : List Char :=
  label.map fun byte => Char.ofNat byte.toNat

/-- `labels.join(".")`. -/
def joinLabels (labels : List Label) : List Char :=
  ['.'].intercalate (labels.map labelText)

/-- The `Display` form of a name. -/
def DnsName.toText (name : DnsName) : List Char :=
  if name.labels.isEmpty then ['.'] else joinLabels name.labels

/-- A character that survives trimming and splitting. -/
private structure PlainChar (char : Char) : Prop where
  not_whitespace : isWhitespace char = false
  ne_dot : char ≠ '.'

private theorem plainChar_of_code : ∀ code < 128, isLabelByte (UInt8.ofNat code) ∨ code = 42 →
    isWhitespace (Char.ofNat code) = false ∧ Char.ofNat code ≠ '.' ∧
      String.utf8EncodeChar (Char.ofNat code) = [UInt8.ofNat code] := by
  decide

private theorem isLabelByte_lt {byte : UInt8} (accepted : isLabelByte byte = true) :
    byte.toNat < 128 := by
  simp only [isLabelByte, Bool.or_eq_true, Bool.and_eq_true, decide_eq_true_eq, beq_iff_eq,
    UInt8.le_iff_toNat_le, ← UInt8.toNat_inj, UInt8.reduceToNat] at accepted
  omega

private theorem plainChar_of_mem (wellFormed : isValidDnsLabel label = true) {byte : UInt8}
    (mem : byte ∈ label) :
    PlainChar (Char.ofNat byte.toNat) ∧ String.utf8EncodeChar (Char.ofNat byte.toNat) = [byte] := by
  simp only [isValidDnsLabel, Bool.or_eq_true, beq_iff_eq, List.all_eq_true] at wellFormed
  have code : byte.toNat < 128 ∧ (isLabelByte (UInt8.ofNat byte.toNat) ∨ byte.toNat = 42) := by
    rcases wellFormed with rfl | bytes
    · rw [star, List.mem_singleton] at mem
      subst mem
      decide
    · rw [UInt8.ofNat_toNat]
      exact ⟨isLabelByte_lt (bytes byte mem), .inl (bytes byte mem)⟩
  obtain ⟨notWhitespace, neDot, encoded⟩ := plainChar_of_code byte.toNat code.1 code.2
  rw [UInt8.ofNat_toNat] at encoded
  exact ⟨⟨notWhitespace, neDot⟩, encoded⟩

private theorem plainChar_of_mem_labelText (wellFormed : isValidDnsLabel label = true) {char : Char}
    (mem : char ∈ labelText label) :
    PlainChar char := by
  obtain ⟨byte, byteMem, rfl⟩ := List.mem_map.mp mem
  exact (plainChar_of_mem wellFormed byteMem).1

private theorem asBytes_labelText (wellFormed : isValidDnsLabel label = true) :
    asBytes (labelText label) = label := by
  rw [asBytes, labelText, List.flatMap_map]
  have singles : ∀ byte ∈ label, String.utf8EncodeChar (Char.ofNat byte.toNat) = [byte] :=
    fun byte mem => (plainChar_of_mem wellFormed mem).2
  rw [List.flatMap_congr singles, List.flatMap_singleton']

private theorem labelsFromAscii_map_labelText (nonempty : ∀ label ∈ labels, label ≠ [])
    (bounded : ∀ label ∈ labels, label.length ≤ maxDnsLabelLen)
    (wellFormed : ∀ label ∈ labels, isValidDnsLabel label = true)
    (lowercase : ∀ label ∈ labels, canonicalLabel label = label) :
    labelsFromAscii (labels.map labelText) = .ok labels := by
  induction labels with
  | nil => rfl
  | cons label rest ih =>
    rw [List.forall_mem_cons] at nonempty bounded wellFormed lowercase
    have tail := ih nonempty.2 bounded.2 wellFormed.2 lowercase.2
    have accepted : ¬ (label.isEmpty ∨ maxDnsLabelLen < label.length ∨ !isValidDnsLabel label) := by
      simp [nonempty.1, wellFormed.1, Nat.not_lt.mpr bounded.1]
    simp only [List.map_cons, labelsFromAscii, tail, asBytes_labelText wellFormed.1]
    rw [if_neg accepted, lowercase.1]

private theorem mem_joinLabels (wellFormed : ∀ label ∈ labels, isValidDnsLabel label = true)
    {char : Char} (mem : char ∈ joinLabels labels) : PlainChar char ∨ char = '.' := by
  rw [joinLabels] at mem
  induction labels with
  | nil => simp at mem
  | cons label rest ih =>
    rw [List.forall_mem_cons] at wellFormed
    have head : char ∈ labelText label → PlainChar char :=
      plainChar_of_mem_labelText wellFormed.1
    cases rest with
    | nil =>
      simp only [List.map_cons, List.map_nil, List.intercalate_singleton] at mem
      exact .inl (head mem)
    | cons next rest =>
      rw [List.map_cons, List.map_cons, List.intercalate_cons_cons, List.append_assoc,
        List.mem_append, List.mem_append, List.mem_singleton] at mem
      rcases mem with inLabel | isDot | inRest
      · exact .inl (head inLabel)
      · exact .inr isDot
      · exact ih wellFormed.2 inRest

private theorem joinLabels_eq_append_last (some_label : labels ≠ [])
    (nonempty : ∀ label ∈ labels, label ≠ [])
    (wellFormed : ∀ label ∈ labels, isValidDnsLabel label = true) :
    ∃ front last, joinLabels labels = front ++ [last] ∧ PlainChar last := by
  rw [joinLabels]
  induction labels with
  | nil => exact absurd rfl some_label
  | cons label rest ih =>
    rw [List.forall_mem_cons] at nonempty wellFormed
    cases rest with
    | nil =>
      rcases List.eq_nil_or_concat label with rfl | ⟨front, last, rfl⟩
      · exact absurd rfl nonempty.1
      · refine ⟨labelText front, Char.ofNat last.toNat, by simp [labelText], ?_⟩
        exact (plainChar_of_mem wellFormed.1 (by simp)).1
    | cons next rest =>
      obtain ⟨front, last, join_eq, plain⟩ := ih (by simp) nonempty.2 wellFormed.2
      refine ⟨labelText label ++ ['.'] ++ front, last, ?_, plain⟩
      rw [List.map_cons] at join_eq ⊢
      rw [List.map_cons, List.intercalate_cons_cons, join_eq]
      simp

private theorem trimEndMatches_append_last {isMatch : Char → Bool} {front : List Char}
    {last : Char} (noMatch : isMatch last = false) :
    trimEndMatches isMatch (front ++ [last]) = front ++ [last] := by
  simp [trimEndMatches, noMatch]

/-- Assembling valid labels from their text gives them back. -/
theorem DnsName.fromAscii_joinLabels (valid : ValidDnsLabels labels) :
    fromAscii (joinLabels labels) = .ok ⟨labels, valid⟩ := by
  by_cases some_label : labels = []
  · subst some_label
    rfl
  obtain ⟨front, last, join_eq, plain⟩ :=
    joinLabels_eq_append_last some_label valid.nonempty valid.wellFormed
  have noWhitespace : ∀ char ∈ joinLabels labels, isWhitespace char = false := by
    intro char mem
    rcases mem_joinLabels valid.wellFormed mem with plain | rfl
    · exact plain.not_whitespace
    · decide
  have leading : (joinLabels labels).dropWhile isWhitespace = joinLabels labels := by
    cases text_eq : joinLabels labels with
    | nil => rfl
    | cons char rest =>
      have first : isWhitespace char = false :=
        noWhitespace char (text_eq ▸ List.mem_cons_self)
      rw [List.dropWhile_cons_of_neg (by simp [first])]
  have trimmed : trimEndMatches (· == '.') (trim (joinLabels labels)) = joinLabels labels := by
    rw [trim, leading, join_eq, trimEndMatches_append_last plain.not_whitespace,
      trimEndMatches_append_last (by simpa using plain.ne_dot)]
  have splits : (joinLabels labels).splitOn '.' = labels.map labelText := by
    apply List.splitOn_intercalate
    · intro text textMem
      obtain ⟨label, mem, rfl⟩ := List.mem_map.mp textMem
      intro dotMem
      exact (plainChar_of_mem_labelText (valid.wellFormed label mem) dotMem).ne_dot rfl
    · simpa using some_label
  have accepted := labelsFromAscii_map_labelText valid.nonempty valid.bounded
    valid.wellFormed valid.lowercase
  have notEmpty : ¬ (trimEndMatches (· == '.') (trim (joinLabels labels))).isEmpty = true := by
    rw [trimmed, join_eq]
    simp
  unfold fromAscii
  dsimp only
  rw [if_neg notEmpty]
  split
  · rename_i error failed
    rw [trimmed, splits, accepted] at failed
    contradiction
  · rename_i parsed result
    rw [trimmed, splits, accepted] at result
    obtain rfl := Except.ok.inj result
    rw [dif_pos (dnsWireLen_eq labels ▸ valid.wireLen_le)]

end HnsDaneEngine.Browser
