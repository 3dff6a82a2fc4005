import HnsDaneEngine.Browser.Dns.Spelling
import HnsDaneEngine.Browser.Dnssec.Records

/-!
# Signer names in a message

The record data of a signature is expanded when its signer name starts with a pointer.  A name
that has labels before its pointer is kept as it stands, and its pointer is followed later in
the record data instead of the message.
-/

namespace HnsDaneEngine.Browser

open Buffer (Occurs)
open Control Wire

def DnsMessage.records (message : DnsMessage) : List ResourceRecord :=
  message.answers ++ (message.authorities ++ message.additionals)

/-- The data of the record at an offset as it stands in the message, and its offset. -/
def rawRdata (message : Octets) (offset : Nat) : Except ParseError (Nat × Octets) := do
  let (_, cursor) ← DnsName.parseWire message offset
  match slice message cursor (cursor + 10) with
  | some [_, _, _, _, _, _, _, _, length0, length1] =>
    let start := cursor + 10
    match slice message start (start + (u16FromBe length0 length1).toNat) with
    | some raw => return (start, raw)
    | none => throw .unexpectedEof
  | _ => throw .unexpectedEof

/-- The data of a record of the message, by its place among all records. -/
def recordRdata (message : Octets) (index : Nat) : Except ParseError (Nat × Octets) := do
  let header ← DnsHeader.parse (message.take 12)
  let (_, cursor) ← parseMany (DnsQuestion.parse message) header.questionCount.toNat 12
  let (_, offset) ← parseMany (ResourceRecord.parse message) index cursor
  rawRdata message offset

section

variable {Item : Type} {parseItem : Nat → Except ParseError (Item × Nat)} {items : List Item}
  {message : Octets} {cursor next stop count : Nat}

theorem parseMany_append {more : Nat} {others : List Item}
    (parsed : parseMany parseItem count cursor = .ok (items, next))
    (otherParsed : parseMany parseItem more next = .ok (others, stop)) :
    parseMany parseItem (count + more) cursor = .ok (items ++ others, stop) := by
  induction count generalizing cursor items with
  | zero =>
    cases parsed
    rw [Nat.zero_add]
    exact otherParsed
  | succ count ih =>
    rw [parseMany] at parsed
    rcases of_bind_ok parsed with ⟨⟨item, middle⟩, item_eq, parsed⟩
    rcases of_bind_ok parsed with ⟨⟨rest, last⟩, rest_eq, parsed⟩
    cases parsed
    rw [Nat.add_right_comm, parseMany]
    exact bind_ok item_eq (bind_ok (ih rest_eq) rfl)

theorem parseMany_getElem? {index : Nat} {item : Item}
    (parsed : parseMany parseItem count cursor = .ok (items, stop))
    (found : items[index]? = some item) :
    ∃ before offset next, parseMany parseItem index cursor = .ok (before, offset) ∧
      parseItem offset = .ok (item, next) := by
  induction count generalizing cursor items index with
  | zero =>
    cases parsed
    cases found
  | succ count ih =>
    rw [parseMany] at parsed
    rcases of_bind_ok parsed with ⟨⟨first, middle⟩, first_eq, parsed⟩
    rcases of_bind_ok parsed with ⟨⟨rest, last⟩, rest_eq, parsed⟩
    cases parsed
    cases index with
    | zero =>
      cases found
      exact ⟨[], cursor, middle, rfl, first_eq⟩
    | succ index =>
      rcases ih rest_eq found with ⟨before, offset, after, before_eq, item_eq⟩
      refine ⟨first :: before, offset, after, ?_, item_eq⟩
      rw [parseMany]
      exact bind_ok first_eq (bind_ok before_eq rfl)

/-- The sections of an accepted message are read one after the other. -/
theorem DnsMessage.parse_eq_ok {parsed : DnsMessage}
    (accepted : DnsMessage.parse message = .ok parsed) :
    ∃ header questions cursor count stop, DnsHeader.parse (message.take 12) = .ok header ∧
      parseMany (DnsQuestion.parse message) header.questionCount.toNat 12 =
        .ok (questions, cursor) ∧
      parseMany (ResourceRecord.parse message) count cursor = .ok (parsed.records, stop) := by
  unfold DnsMessage.parse at accepted
  split at accepted
  · cases accepted
  split at accepted
  · cases accepted
  next header header_eq =>
    rw [guard_eq_ok_iff, guard_eq_ok_iff] at accepted
    rcases of_bind_ok accepted.2.2 with ⟨⟨questions, cursor⟩, questions_eq, sections⟩
    rcases of_bind_ok sections with ⟨⟨answers, afterAnswers⟩, answers_eq, sections⟩
    rcases of_bind_ok sections with ⟨⟨authorities, afterAuthorities⟩, authorities_eq,
      sections⟩
    rcases of_bind_ok sections with ⟨⟨additionals, stop⟩, additionals_eq, sections⟩
    dsimp only at sections
    split at sections
    · cases sections
    · cases sections
      exact ⟨header, questions, cursor, _, stop, header_eq, questions_eq,
        parseMany_append answers_eq (parseMany_append authorities_eq additionals_eq)⟩

/-- The data of a record is normalized from what stands in the message. -/
theorem ResourceRecord.parse_eq_ok {record : ResourceRecord} {offset : Nat}
    (parsed : ResourceRecord.parse message offset = .ok (record, next)) :
    ∃ start raw, rawRdata message offset = .ok (start, raw) ∧ Occurs raw message start ∧
      normalizeRecordRdata message start (start + raw.length) record.recordType raw =
        .ok record.rdata := by
  rw [ResourceRecord.parse] at parsed
  rcases of_bind_ok parsed with ⟨⟨name, cursor⟩, name_eq, parsed⟩
  dsimp only at parsed
  split at parsed
  next fixed_eq =>
    split at parsed
    · cases parsed
    split at parsed
    · cases parsed
    next raw raw_eq =>
      rcases of_bind_ok parsed with ⟨rdata, rdata_eq, parsed⟩
      cases parsed
      rcases Buffer.slice_eq_some_iff.mp raw_eq with ⟨occurs, stop_eq⟩
      refine ⟨cursor + 10, raw, bind_ok name_eq ?_, occurs, stop_eq ▸ rdata_eq⟩
      dsimp only
      rw [fixed_eq]
      dsimp only
      rw [raw_eq]
      rfl
  · cases parsed

/-- The record with an index is read where the records before it end. -/
theorem recordRdata_of_getElem? {parsed : DnsMessage} {index : Nat} {record : ResourceRecord}
    (accepted : DnsMessage.parse message = .ok parsed)
    (found : parsed.records[index]? = some record) :
    ∃ start raw, recordRdata message index = .ok (start, raw) ∧ Occurs raw message start ∧
      normalizeRecordRdata message start (start + raw.length) record.recordType raw =
        .ok record.rdata := by
  rcases DnsMessage.parse_eq_ok accepted with
    ⟨header, questions, cursor, count, stop, header_eq, questions_eq, records_eq⟩
  rcases parseMany_getElem? records_eq found with ⟨before, offset, next, before_eq, record_eq⟩
  rcases ResourceRecord.parse_eq_ok record_eq with ⟨start, raw, raw_eq, occurs, normalized⟩
  refine ⟨start, raw, ?_, occurs, normalized⟩
  exact bind_ok header_eq (bind_ok questions_eq (bind_ok before_eq raw_eq))

end

section

variable {raw message : Octets} {start cursor target jumps : Nat} {before labels : List Label}

/-- The labels from a position on end in a pointer. -/
inductive LeadsTo (octets : Octets) : Nat → List Label → Nat → Prop
  | pointer {cursor target : Nat} (read : readWireItem octets cursor = .ok (.pointer target)) :
      LeadsTo octets cursor [] target
  | label {cursor target : Nat} {bytes : Label} {before : List Label}
      (read : readWireItem octets cursor = .ok (.label bytes))
      (later : LeadsTo octets (cursor + 1 + bytes.length) before target) :
      LeadsTo octets cursor (canonicalLabel bytes :: before) target

/-- What is read in a part is read in the whole, a pointer with the same target. -/
theorem readWireItem_of_occurs {item : WireItem} (occurs : Occurs raw message start)
    (read : readWireItem raw cursor = .ok item) :
    readWireItem message (start + cursor) = .ok item := by
  rw [readWireItem_eq_ok_iff] at read ⊢
  cases item with
  | root => exact read.trans occurs
  | label bytes => exact ⟨read.1.trans occurs, read.2⟩
  | pointer target =>
    rcases read with ⟨high, low, inside, marked, target_eq, bounded⟩
    have length_le := occurs.length_le
    exact ⟨high, low, inside.trans occurs, marked, target_eq, by omega⟩

theorem LeadsTo.of_occurs (occurs : Occurs raw message start)
    (leads : LeadsTo raw cursor before target) :
    LeadsTo message (start + cursor) before target := by
  induction leads with
  | pointer read => exact .pointer (readWireItem_of_occurs occurs read)
  | label read later ih =>
    rw [← Nat.add_assoc, ← Nat.add_assoc] at ih
    exact .label (readWireItem_of_occurs occurs read) ih

/-- A name behind labels that end in a pointer goes on at its target. -/
theorem LeadsTo.spells_iff {octets : Octets} (leads : LeadsTo octets cursor before target) :
    Spells octets cursor labels jumps ↔ ∃ after further, Spells octets target after further ∧
      labels = before ++ after ∧ jumps = further + 1 := by
  induction leads generalizing labels jumps with
  | pointer read =>
    constructor
    · intro spells
      cases spells with
      | root otherRead => cases read.symm.trans otherRead
      | label otherRead => cases read.symm.trans otherRead
      | pointer otherRead later =>
        cases read.symm.trans otherRead
        exact ⟨_, _, later, rfl, rfl⟩
    · rintro ⟨after, further, later, rfl, rfl⟩
      exact .pointer read later
  | label read later ih =>
    constructor
    · intro spells
      cases spells with
      | root otherRead => cases read.symm.trans otherRead
      | label otherRead otherLater =>
        cases read.symm.trans otherRead
        rcases ih.mp otherLater with ⟨after, further, spells, rfl, rfl⟩
        exact ⟨after, further, spells, rfl, rfl⟩
      | pointer otherRead => cases read.symm.trans otherRead
    · rintro ⟨after, further, spells, rfl, rfl⟩
      exact .label read (ih.mpr ⟨after, further, spells, rfl, rfl⟩)

/-- A name without pointers is spelled in the whole message too; any other leads to one. -/
theorem Spells.leads_or_occurs (spells : Spells raw cursor labels jumps)
    (occurs : Occurs raw message start) :
    Spells message (start + cursor) labels 0 ∧ jumps = 0 ∨
      ∃ before target, LeadsTo raw cursor before target := by
  induction spells with
  | root read => exact .inl ⟨.root (readWireItem_of_occurs occurs read), rfl⟩
  | label read later ih =>
    rcases ih with ⟨whole, rfl⟩ | ⟨before, target, leads⟩
    · rw [← Nat.add_assoc, ← Nat.add_assoc] at whole
      exact .inl ⟨.label (readWireItem_of_occurs occurs read) whole, rfl⟩
    · exact .inr ⟨_, target, .label read leads⟩
  | pointer read later => exact .inr ⟨[], _, .pointer read⟩

/-- A name in wire form is spelled where it stands. -/
theorem spells_wireOf {front rest : Octets}
    (wellFormed : ∀ label ∈ labels, label ≠ [] ∧ label.length ≤ maxDnsLabelLen ∧
      isValidDnsLabel label = true) :
    Spells (front ++ (wireOf labels ++ rest)) front.length (labels.map canonicalLabel) 0 := by
  induction labels generalizing front with
  | nil => exact .root (readWireItem_eq_ok_iff.mpr ⟨front, rest, rfl, rfl⟩)
  | cons label labels ih =>
    rw [List.forall_mem_cons] at wellFormed
    have occurs : Occurs (UInt8.ofNat label.length :: label)
        (front ++ (wireOf (label :: labels) ++ rest)) front.length :=
      ⟨front, wireOf labels ++ rest, by simp [wireOf], rfl⟩
    have later := @ih (front ++ (UInt8.ofNat label.length :: label)) wellFormed.2
    have octets_eq : front ++ (UInt8.ofNat label.length :: label) ++ (wireOf labels ++ rest) =
        front ++ (wireOf (label :: labels) ++ rest) := by
      simp [wireOf]
    have cursor_eq : (front ++ (UInt8.ofNat label.length :: label)).length =
        front.length + 1 + label.length := by
      rw [List.length_append, List.length_cons]
      omega
    rw [octets_eq, cursor_eq] at later
    exact .label (readWireItem_eq_ok_iff.mpr ⟨occurs, wellFormed.1⟩) later

end

end HnsDaneEngine.Browser

namespace HnsDaneEngine.Browser.Dnssec

open Control Wire

/-- The name at the place of the signer name in the message. -/
def signerInMessage (message : Octets) (index : Nat) : Except ParseError DnsName := do
  let (start, _) ← recordRdata message index
  let (name, _) ← DnsName.parseWire message (start + 18)
  return name

/-- The signer name of the record starts with a pointer, or has none, or its pointer leads to
the same labels in the record data as in the message, there through fewer than 16 others. -/
def SignerSurvives (message : Octets) (index : Nat) : Prop :=
  ∃ start raw, recordRdata message index = .ok (start, raw) ∧
    ((∃ octet, raw[18]? = some octet ∧ octet &&& 0xc0 = 0xc0) ∨
      ∀ before target after jumps, LeadsTo raw 18 before target → Spells raw target after jumps →
        ∃ further < maxPointerJumps, Spells message target after further)

section

variable {message raw : Octets} {start index : Nat} {record : ResourceRecord}
  {rrsig : RrsigRecord}

theorem RrsigRecord.fromRecord_eq_ok (accepted : RrsigRecord.fromRecord record = .ok rrsig) :
    record.recordType = .rrsig ∧
      ∃ stop, DnsName.parseWire record.rdata 18 = .ok (rrsig.signerName, stop) := by
  rw [RrsigRecord.fromRecord, guard_eq_ok_iff, not_not] at accepted
  rcases accepted with ⟨type_eq, accepted⟩
  refine ⟨type_eq, ?_⟩
  unfold RrsigRecord.parseRdata at accepted
  split at accepted
  · split at accepted
    · cases accepted
    next signerName signerEnd name_eq =>
      split at accepted
      · cases accepted
      · split at accepted
        · cases accepted
        · cases accepted
          exact ⟨signerEnd, name_eq⟩
  · cases accepted

theorem signerInMessage_eq_ok_iff (raw_eq : recordRdata message index = .ok (start, raw))
    {name : DnsName} :
    signerInMessage message index = .ok name ↔
      ∃ further, Spells message (start + 18) name.labels further ∧ further ≤ maxPointerJumps := by
  rw [← parseWire_eq_ok_iff, signerInMessage, bind_eq_ok_iff]
  constructor
  · rintro ⟨_, other_eq, read⟩
    cases raw_eq.symm.trans other_eq
    rcases of_bind_ok read with ⟨⟨other, stop⟩, name_eq, read⟩
    cases read
    exact ⟨stop, name_eq⟩
  · rintro ⟨stop, name_eq⟩
    exact ⟨_, raw_eq, bind_ok name_eq rfl⟩

/-- A signer name that starts with a pointer is written out in place of it. -/
theorem normalizePrefixedNameRdata_eq_ok {stop : Nat} {rdata : Octets}
    (normalized : normalizePrefixedNameRdata message start stop 18 = .ok rdata) :
    ∃ name next fixed rest, DnsName.parseWire message (start + 18) = .ok (name, next) ∧
      fixed.length = 18 ∧ rdata = fixed ++ (wireOf name.labels ++ rest) := by
  rw [normalizePrefixedNameRdata, guard_eq_ok_iff] at normalized
  rcases of_bind_ok normalized.2 with ⟨⟨name, next⟩, name_eq, expanded⟩
  dsimp only at expanded
  split at expanded
  · cases expanded
  rcases of_bind_ok expanded with ⟨nameWire, wire_eq, expanded⟩
  rw [name.encodeWire_eq] at wire_eq
  cases wire_eq
  split at expanded
  next fixed rest fixed_eq rest_eq =>
    cases expanded
    have stop_eq := (Buffer.slice_eq_some_iff.mp fixed_eq).2
    refine ⟨name, next, fixed, rest, name_eq, by omega, ?_⟩
    rw [List.append_assoc]
  · cases expanded

theorem normalizeRecordRdata_rrsig {stop : Nat} {rdata : Octets}
    (normalized : normalizeRecordRdata message start stop .rrsig raw = .ok rdata) :
    ((∃ octet, raw[18]? = some octet ∧ octet &&& 0xc0 = 0xc0) ∧
        normalizePrefixedNameRdata message start stop 18 = .ok rdata) ∨
      (¬ (∃ octet, raw[18]? = some octet ∧ octet &&& 0xc0 = 0xc0) ∧ rdata = raw) := by
  rw [normalizeRecordRdata] at normalized
  cases found : raw[18]? with
  | none =>
    rw [found] at normalized
    cases normalized
    exact .inr ⟨by simp, rfl⟩
  | some octet =>
    rw [found] at normalized
    dsimp only at normalized
    split at normalized
    next pointer => exact .inl ⟨⟨octet, rfl, pointer⟩, normalized⟩
    next plain =>
      cases normalized
      exact .inr ⟨by simpa using plain, rfl⟩

/-- A signer name that is kept as it stands names the same signer in the message when its
pointer, if it has one, leads to the same labels. -/
theorem spells_signer_iff {labels : List Label} {jumps : Nat}
    (occurs : Buffer.Occurs raw message start) (spells : Spells raw 18 labels jumps) :
    (∃ further, Spells message (start + 18) labels further ∧ further ≤ maxPointerJumps) ↔
      ∀ before target after jumps, LeadsTo raw 18 before target → Spells raw target after jumps →
        ∃ further < maxPointerJumps, Spells message target after further := by
  constructor
  · rintro ⟨further, whole, bounded⟩ before target after more leads later
    rcases (leads.of_occurs occurs).spells_iff.mp whole with
      ⟨others, otherFurther, otherSpells, labels_eq, rfl⟩
    rcases (leads.spells_iff.mpr ⟨after, more, later, rfl, rfl⟩).unique spells with ⟨rfl, -⟩
    rw [List.append_cancel_left labels_eq]
    exact ⟨otherFurther, bounded, otherSpells⟩
  · intro same
    rcases spells.leads_or_occurs occurs with ⟨whole, -⟩ | ⟨before, target, leads⟩
    · exact ⟨0, whole, Nat.zero_le _⟩
    · rcases leads.spells_iff.mp spells with ⟨after, more, later, rfl, -⟩
      rcases same before target after more leads later with ⟨further, further_lt, elsewhere⟩
      exact ⟨further + 1, (leads.of_occurs occurs).spells_iff.mpr ⟨after, further, elsewhere, rfl, rfl⟩,
        further_lt⟩

/-- The signer that is validated is the signer in the message exactly when its name survives
being moved out of it. -/
theorem signer_survives_iff {parsed : DnsMessage} (accepted : DnsMessage.parse message = .ok parsed)
    (found : parsed.records[index]? = some record)
    (isRrsig : RrsigRecord.fromRecord record = .ok rrsig) :
    signerInMessage message index = .ok rrsig.signerName ↔ SignerSurvives message index := by
  rcases recordRdata_of_getElem? accepted found with ⟨start, raw, raw_eq, occurs, normalized⟩
  rcases RrsigRecord.fromRecord_eq_ok isRrsig with ⟨type_eq, stop, signer_eq⟩
  rcases parseWire_eq_ok_iff.mp ⟨stop, signer_eq⟩ with ⟨jumps, spells, -⟩
  have survives_iff : SignerSurvives message index ↔
      (∃ octet, raw[18]? = some octet ∧ octet &&& 0xc0 = 0xc0) ∨
        ∀ before target after jumps, LeadsTo raw 18 before target → Spells raw target after jumps →
          ∃ further < maxPointerJumps, Spells message target after further := by
    constructor
    · rintro ⟨otherStart, otherRaw, other_eq, survives⟩
      cases raw_eq.symm.trans other_eq
      exact survives
    · exact fun survives => ⟨start, raw, raw_eq, survives⟩
  rw [type_eq] at normalized
  rw [survives_iff, signerInMessage_eq_ok_iff raw_eq]
  rcases normalizeRecordRdata_rrsig normalized with ⟨pointer, expanded⟩ | ⟨plain, rdata_eq⟩
  · rcases normalizePrefixedNameRdata_eq_ok expanded with
      ⟨name, next, fixed, rest, name_eq, fixed_length, rdata_eq⟩
    have written : Spells record.rdata 18 (name.labels.map canonicalLabel) 0 := by
      rw [rdata_eq, ← fixed_length]
      exact spells_wireOf fun label member => ⟨name.valid.nonempty label member,
        name.valid.bounded label member, name.valid.wellFormed label member⟩
    have labels_eq : rrsig.signerName.labels = name.labels := by
      rw [(spells.unique written).1]
      exact (List.map_congr_left name.valid.lowercase).trans (List.map_id _)
    rw [labels_eq]
    exact ⟨fun _ => .inl pointer, fun _ => parseWire_eq_ok_iff.mp ⟨next, name_eq⟩⟩
  · rw [rdata_eq] at spells
    rw [spells_signer_iff occurs spells]
    exact ⟨.inr, fun survives => survives.resolve_left plain⟩

end

/-! A signature by `alee.g.` whose signer name is the label `alee` and a pointer. -/

namespace ExampleSigner

def owner : DnsName :=
  ⟨[[97, 108, 101, 101], [103]], by decide⟩

/-- What stands before the signer name, with a key tag whose last octet is zero. -/
def fixed : Octets :=
  [0, 1, 13, 2, 0, 0, 0, 20, 0x6a, 0x58, 0x1f, 0, 0x6a, 0x3c, 0x6f, 0x80, 0xa6, 0]

/-- The signer name points at offset 17: the label `g` in the message, and the end of the key
tag in the record data. -/
def rdata : Octets :=
  fixed ++ [4, 97, 108, 101, 101, 0xc0, 17, 1, 2, 3]

def message : Octets :=
  [0x12, 0x34, 0x81, 0x80, 0, 1, 0, 1, 0, 0, 0, 0] ++
    [4, 97, 108, 101, 101, 1, 103, 0, 0, 1, 0, 1] ++
    [0xc0, 12, 0, 46, 0, 1, 0, 0, 0, 20, 0, 28] ++ rdata

def record : ResourceRecord :=
  ⟨owner, .rrsig, 1, 20, rdata⟩

def parsed : DnsMessage :=
  ⟨⟨0x1234, ⟨0x8180⟩, 1, 1, 0, 0⟩, [⟨owner, .a, 1⟩], [record], [], []⟩

def rrsig : RrsigRecord where
  typeCovered := .a
  algorithm := 13
  labels := 2
  originalTtl := 20
  signatureExpiration := 0x6a581f00
  signatureInception := 0x6a3c6f80
  keyTag := 0xa600
  signerName := ⟨[[97, 108, 101, 101]], by decide⟩
  signature := [1, 2, 3]
  signedRdata := fixed ++ [4, 97, 108, 101, 101, 0]

theorem message_parsed : DnsMessage.parse message = .ok parsed := by
  rfl

theorem record_accepted : RrsigRecord.fromRecord record = .ok rrsig := by
  rfl

theorem signer_in_message : signerInMessage message 0 = .ok owner := by
  rfl

/-- The signer that is validated is not the one in the message. -/
theorem signer_lost :
    ¬ ∀ message parsed index record rrsig, DnsMessage.parse message = .ok parsed →
      parsed.records[index]? = some record → RrsigRecord.fromRecord record = .ok rrsig →
        signerInMessage message index = .ok rrsig.signerName := by
  intro kept
  have same := kept message parsed 0 record rrsig message_parsed rfl record_accepted
  cases signer_in_message.symm.trans same

theorem signer_survives_iff_lost : ¬ SignerSurvives message 0 := by
  rw [← signer_survives_iff message_parsed (rfl : parsed.records[0]? = some record) record_accepted]
  intro same
  cases signer_in_message.symm.trans same

end ExampleSigner

end HnsDaneEngine.Browser.Dnssec
