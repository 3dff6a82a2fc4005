import HnsDaneEngine.Wire.RoundTrip

/-!
# Parsed messages are encoded and parsed again

Whatever form a message had on the wire, a parsed message has canonical types,
complete data and names within the limits.  Its encoding is therefore parsed to the
same message.  The encoder accepts records of its callers that are not of this
form, and exactly these are lost.
-/

namespace HnsDaneEngine.Wire

open Buffer Control

theorem RecordType.code_fromCode (code : UInt16) : (fromCode code).code = code := by
  unfold fromCode
  split <;> first | rfl | exact UInt16.toNat_inj.mp (Eq.symm ‹_›)

theorem digest_ne_nil_of_parseDs {raw : Octets} {ds : Ds} (parsed : parseDs raw = .ok ds) :
    ds.digest ≠ [] := by
  obtain ⟨long, parsed⟩ := of_guard_ok parsed
  obtain ⟨keyTag, -, parsed⟩ := of_bind_ok parsed
  obtain ⟨algorithm, -, parsed⟩ := of_bind_ok parsed
  obtain ⟨digestType, -, parsed⟩ := of_bind_ok parsed
  obtain ⟨digest, digest_eq, parsed⟩ := of_bind_ok parsed
  obtain rfl := Except.ok.inj parsed
  have raw_length := (getFrom_eq_ok_iff.mp digest_eq).2
  rw [← List.length_pos_iff]
  dsimp only
  omega

theorem publicKey_ne_nil_of_parseDnskey {raw : Octets} {key : Dnskey}
    (parsed : parseDnskey raw = .ok key) : key.publicKey ≠ [] := by
  obtain ⟨long, parsed⟩ := of_guard_ok parsed
  obtain ⟨flags, -, parsed⟩ := of_bind_ok parsed
  obtain ⟨protocol, -, parsed⟩ := of_bind_ok parsed
  obtain ⟨algorithm, -, parsed⟩ := of_bind_ok parsed
  obtain ⟨publicKey, publicKey_eq, parsed⟩ := of_bind_ok parsed
  obtain rfl := Except.ok.inj parsed
  have raw_length := (getFrom_eq_ok_iff.mp publicKey_eq).2
  rw [← List.length_pos_iff]
  dsimp only
  omega

section

variable {message : Octets} {start stop : Nat} {limits : ParseLimits}

theorem parseExactName_eq_ok {name : Name}
    (parsed : parseExactName message start stop limits = .ok name) :
    name.labels.length ≤ limits.maxLabelsPerName := by
  obtain ⟨⟨name, next⟩, decoded, parsed⟩ := of_bind_ok parsed
  obtain ⟨-, parsed⟩ := of_guard_ok parsed
  obtain rfl := Except.ok.inj parsed
  exact length_labels_decodeName decoded

theorem parseSoa_eq_ok {soa : Soa} (parsed : parseSoa message start stop limits = .ok soa) :
    WithinLabels limits [soa.mname, soa.rname] := by
  obtain ⟨⟨mname, next⟩, mname_eq, parsed⟩ := of_bind_ok parsed
  obtain ⟨⟨rname, next⟩, rname_eq, parsed⟩ := of_bind_ok parsed
  obtain ⟨fixed, -, parsed⟩ := of_bind_ok parsed
  obtain ⟨-, parsed⟩ := of_guard_ok parsed
  obtain ⟨serial, -, parsed⟩ := of_bind_ok parsed
  obtain ⟨refresh, -, parsed⟩ := of_bind_ok parsed
  obtain ⟨retry, -, parsed⟩ := of_bind_ok parsed
  obtain ⟨expire, -, parsed⟩ := of_bind_ok parsed
  obtain ⟨minimum, -, parsed⟩ := of_bind_ok parsed
  obtain rfl := Except.ok.inj parsed
  simp [WithinLabels, length_labels_decodeName mname_eq, length_labels_decodeName rname_eq]

theorem parseMx_eq_ok {mx : Mx} (parsed : parseMx message start stop limits = .ok mx) :
    mx.exchange.labels.length ≤ limits.maxLabelsPerName := by
  obtain ⟨raw, -, parsed⟩ := of_bind_ok parsed
  obtain ⟨preference, -, parsed⟩ := of_bind_ok parsed
  obtain ⟨⟨exchange, next⟩, decoded, parsed⟩ := of_bind_ok parsed
  obtain ⟨-, parsed⟩ := of_guard_ok parsed
  obtain rfl := Except.ok.inj parsed
  exact length_labels_decodeName decoded

theorem parseSrv_eq_ok {srv : Srv} (parsed : parseSrv message start stop limits = .ok srv) :
    srv.target.labels.length ≤ limits.maxLabelsPerName := by
  obtain ⟨raw, -, parsed⟩ := of_bind_ok parsed
  obtain ⟨⟨target, next⟩, decoded, parsed⟩ := of_bind_ok parsed
  obtain ⟨-, parsed⟩ := of_guard_ok parsed
  obtain ⟨priority, -, parsed⟩ := of_bind_ok parsed
  obtain ⟨weight, -, parsed⟩ := of_bind_ok parsed
  obtain ⟨port, -, parsed⟩ := of_bind_ok parsed
  obtain rfl := Except.ok.inj parsed
  exact length_labels_decodeName decoded

theorem parseRrsig_eq_ok {signature : Rrsig}
    (parsed : parseRrsig message start stop limits = .ok signature) :
    (Rdata.rrsig signature).Complete ∧
      signature.signer.labels.length ≤ limits.maxLabelsPerName := by
  obtain ⟨fixed, -, parsed⟩ := of_bind_ok parsed
  obtain ⟨⟨signer, next⟩, decoded, parsed⟩ := of_bind_ok parsed
  obtain ⟨octets, -, parsed⟩ := of_bind_ok parsed
  obtain ⟨nonempty, parsed⟩ := of_guard_ok parsed
  obtain ⟨typeCovered, -, parsed⟩ := of_bind_ok parsed
  obtain ⟨algorithm, -, parsed⟩ := of_bind_ok parsed
  obtain ⟨labels, -, parsed⟩ := of_bind_ok parsed
  obtain ⟨originalTtl, -, parsed⟩ := of_bind_ok parsed
  obtain ⟨expiration, -, parsed⟩ := of_bind_ok parsed
  obtain ⟨inception, -, parsed⟩ := of_bind_ok parsed
  obtain ⟨keyTag, -, parsed⟩ := of_bind_ok parsed
  obtain rfl := Except.ok.inj parsed
  refine ⟨⟨by simpa using nonempty, ?_⟩, length_labels_decodeName decoded⟩
  rw [RecordType.code_fromCode]

theorem parseNsec_eq_ok {nsec : Nsec} (parsed : parseNsec message start stop limits = .ok nsec) :
    nsec.nextDomain.labels.length ≤ limits.maxLabelsPerName := by
  obtain ⟨⟨nextDomain, next⟩, decoded, parsed⟩ := of_bind_ok parsed
  obtain ⟨bitmap, -, parsed⟩ := of_bind_ok parsed
  obtain ⟨_, -, parsed⟩ := of_bind_ok parsed
  obtain rfl := Except.ok.inj parsed
  exact length_labels_decodeName decoded

/-- Parsed data is complete, with names within the limit. -/
theorem parseRdata_eq_ok {recordType : RecordType} {rdata : Rdata}
    (parsed : parseRdata message start stop limits recordType = .ok rdata) :
    rdata.Complete ∧ WithinLabels limits rdata.names := by
  obtain ⟨raw, -, parsed⟩ := of_bind_ok parsed
  cases recordType
  case svcb | https | unknown =>
    obtain rfl := Except.ok.inj parsed
    exact ⟨trivial, by simp [WithinLabels, Rdata.names]⟩
  all_goals
    obtain ⟨data, data_eq, parsed⟩ := of_bind_ok parsed
    obtain rfl := Except.ok.inj parsed
  case ns | cname =>
    exact ⟨trivial, List.forall_mem_singleton.mpr (parseExactName_eq_ok data_eq)⟩
  case soa => exact ⟨trivial, parseSoa_eq_ok data_eq⟩
  case mx => exact ⟨trivial, List.forall_mem_singleton.mpr (parseMx_eq_ok data_eq)⟩
  case srv => exact ⟨trivial, List.forall_mem_singleton.mpr (parseSrv_eq_ok data_eq)⟩
  case ds => exact ⟨digest_ne_nil_of_parseDs data_eq, by simp [WithinLabels, Rdata.names]⟩
  case dnskey =>
    exact ⟨publicKey_ne_nil_of_parseDnskey data_eq, by simp [WithinLabels, Rdata.names]⟩
  case rrsig =>
    obtain ⟨complete, count⟩ := parseRrsig_eq_ok data_eq
    exact ⟨complete, List.forall_mem_singleton.mpr count⟩
  case nsec => exact ⟨trivial, List.forall_mem_singleton.mpr (parseNsec_eq_ok data_eq)⟩
  all_goals exact ⟨trivial, by simp [WithinLabels, Rdata.names]⟩

end

section

variable {octets : Octets} {limits : ParseLimits}

theorem readable_of_parseRecord {record : ResourceRecord} {offset next : Nat}
    (parsed : parseRecord octets limits offset = .ok (record, next)) : record.Readable limits := by
  obtain ⟨⟨name, cursor⟩, name_eq, parsed⟩ := of_bind_ok parsed
  obtain ⟨fixed, -, parsed⟩ := of_bind_ok parsed
  obtain ⟨code, -, parsed⟩ := of_bind_ok parsed
  obtain ⟨class_, -, parsed⟩ := of_bind_ok parsed
  obtain ⟨ttl, -, parsed⟩ := of_bind_ok parsed
  obtain ⟨rdataLen, -, parsed⟩ := of_bind_ok parsed
  obtain ⟨-, parsed⟩ := of_guard_ok parsed
  obtain ⟨raw, -, parsed⟩ := of_bind_ok parsed
  obtain ⟨rdata, rdata_eq, parsed⟩ := of_bind_ok parsed
  obtain ⟨rfl, -⟩ := Prod.mk.inj (Except.ok.inj parsed)
  obtain ⟨complete, counts⟩ := parseRdata_eq_ok rdata_eq
  refine ⟨?_, complete, List.forall_mem_cons.mpr ⟨length_labels_decodeName name_eq, counts⟩⟩
  rw [RecordType.code_fromCode]

theorem readable_of_parseQuestion {question : Question} {offset next : Nat}
    (parsed : parseQuestion octets limits offset = .ok (question, next)) :
    question.Readable limits := by
  obtain ⟨⟨name, cursor⟩, name_eq, parsed⟩ := of_bind_ok parsed
  obtain ⟨fixed, -, parsed⟩ := of_bind_ok parsed
  obtain ⟨code, -, parsed⟩ := of_bind_ok parsed
  obtain ⟨class_, -, parsed⟩ := of_bind_ok parsed
  obtain ⟨rfl, -⟩ := Prod.mk.inj (Except.ok.inj parsed)
  refine ⟨?_, length_labels_decodeName name_eq⟩
  rw [RecordType.code_fromCode]

/-- As many items as counted are parsed, each with the property of its parser. -/
theorem parseMany_eq_ok {Item : Type} {parseItem : Nat → Except Error (Item × Nat)}
    {property : Item → Prop}
    (holds : ∀ item offset next, parseItem offset = .ok (item, next) → property item)
    {count cursor stop : Nat} {items : List Item}
    (parsed : parseMany parseItem count cursor = .ok (items, stop)) :
    count = items.length ∧ ∀ item ∈ items, property item := by
  induction count generalizing cursor items stop with
  | zero =>
    obtain ⟨rfl, -⟩ := Prod.mk.inj (Except.ok.inj parsed)
    exact ⟨rfl, by simp⟩
  | succ count ih =>
    obtain ⟨⟨first, next⟩, first_eq, parsed⟩ := of_bind_ok parsed
    obtain ⟨⟨rest, stop⟩, rest_eq, parsed⟩ := of_bind_ok parsed
    obtain ⟨rfl, -⟩ := Prod.mk.inj (Except.ok.inj parsed)
    obtain ⟨count_eq, restHolds⟩ := ih rest_eq
    exact ⟨congrArg (· + 1) count_eq, List.forall_mem_cons.mpr ⟨holds _ _ _ first_eq, restHolds⟩⟩

theorem readable_of_parseRecords {records : List ResourceRecord} {count : UInt16}
    {cursor stop : Nat} (parsed : parseRecords octets limits cursor count = .ok (records, stop)) :
    count.toNat = records.length ∧ ∀ record ∈ records, record.Readable limits :=
  parseMany_eq_ok (fun _ _ _ => readable_of_parseRecord) parsed

/-- A parsed message has the header that was read, and is read back once it is
encoded. -/
theorem parseWithLimits_eq_ok {message : Message}
    (parsed : Message.parseWithLimits octets limits = .ok message) :
    Header.parse octets = .ok message.header ∧ message.Readable limits := by
  obtain ⟨-, parsed⟩ := of_guard_ok parsed
  obtain ⟨header, header_eq, parsed⟩ := of_bind_ok parsed
  obtain ⟨reserved, parsed⟩ := of_guard_ok parsed
  obtain ⟨questions_le, parsed⟩ := of_guard_ok parsed
  obtain ⟨records_le, parsed⟩ := of_guard_ok parsed
  obtain ⟨⟨questions, cursor⟩, questions_eq, parsed⟩ := of_bind_ok parsed
  obtain ⟨⟨answers, next⟩, answers_eq, parsed⟩ := of_bind_ok parsed
  obtain ⟨⟨authorities, next⟩, authorities_eq, parsed⟩ := of_bind_ok parsed
  obtain ⟨⟨additionals, next⟩, additionals_eq, parsed⟩ := of_bind_ok parsed
  obtain ⟨-, parsed⟩ := of_guard_ok parsed
  obtain ⟨_, pseudoRecords, parsed⟩ := of_bind_ok parsed
  obtain rfl := Except.ok.inj parsed
  obtain ⟨questionCount, questionsReadable⟩ :=
    parseMany_eq_ok (fun _ _ _ => readable_of_parseQuestion) questions_eq
  obtain ⟨answerCount, answersReadable⟩ := readable_of_parseRecords answers_eq
  obtain ⟨authorityCount, authoritiesReadable⟩ := readable_of_parseRecords authorities_eq
  obtain ⟨additionalCount, additionalsReadable⟩ := readable_of_parseRecords additionals_eq
  refine ⟨header_eq, ?_⟩
  exact {
    reserved := not_not.mp reserved
    questionCount := questionCount
    answerCount := answerCount
    authorityCount := authorityCount
    additionalCount := additionalCount
    questions_le := by rw [← questionCount]; exact Nat.not_lt.mp questions_le
    records_le := by
      rw [← answerCount, ← authorityCount, ← additionalCount]
      exact Nat.not_lt.mp records_le
    pseudoRecords := pseudoRecords
    questions := questionsReadable
    answers := answersReadable
    authorities := authoritiesReadable
    additionals := additionalsReadable }

/-- Decompressing and encoding a parsed message loses and changes nothing. -/
theorem parseWithLimits_encode_parseWithLimits {message : Message} {encoded : Octets}
    (rdataLimit : 65535 ≤ limits.maxRdataLen)
    (parsed : Message.parseWithLimits octets limits = .ok message)
    (encoded_eq : message.encode limits.maxMessageLen = .ok encoded)
    (short : encoded.length ≤ 65535) :
    Message.parseWithLimits encoded limits = .ok message := by
  have readable := (parseWithLimits_eq_ok parsed).2
  have length_le := (Message.encode_eq_ok readable.toCounted encoded_eq).1
  exact parseWithLimits_encode readable rdataLimit encoded_eq length_le short

end

namespace ExampleMessage

/-- `example.com.` -/
def name : Name :=
  ⟨[[101, 120, 97, 109, 112, 108, 101], [99, 111, 109]], by decide⟩

/-- An address answer whose owner is a pointer to the question. -/
def compressed : Octets :=
  [0x12, 0x34, 0x84, 0x20, 0, 1, 0, 1, 0, 0, 0, 0] ++ wireOf name.labels ++ [0, 1, 0, 1] ++
    [0xc0, 0x0c, 0, 1, 0, 1, 0, 0, 0, 60, 0, 4, 127, 0, 0, 1]

def expanded : Octets :=
  [0x12, 0x34, 0x84, 0x20, 0, 1, 0, 1, 0, 0, 0, 0] ++ wireOf name.labels ++ [0, 1, 0, 1] ++
    wireOf name.labels ++ [0, 1, 0, 1, 0, 0, 0, 60, 0, 4, 127, 0, 0, 1]

def message : Message where
  header := ⟨0x1234, ⟨0x8420⟩, 1, 1, 0, 0⟩
  questions := [⟨name, .a, classIn⟩]
  answers := [⟨name, .a, classIn, 60, .a #v[127, 0, 0, 1]⟩]
  authorities := []
  additionals := []

end ExampleMessage

open ExampleMessage in
theorem parseWithLimits_expanded :
    Message.parseWithLimits compressed .browser = .ok message ∧
      message.encode ParseLimits.browser.maxMessageLen = .ok expanded ∧
      Message.parseWithLimits expanded .browser = .ok message := by
  have parsed : Message.parseWithLimits compressed .browser = .ok message := rfl
  have encoded : message.encode ParseLimits.browser.maxMessageLen = .ok expanded := by
    rfl
  exact ⟨parsed, encoded,
    parseWithLimits_encode_parseWithLimits (by decide) parsed encoded (by decide)⟩

/-- A message with one record: an answer, or an additional record for EDNS. -/
def placed (id : UInt16) (flags : Flags) (record : ResourceRecord) : Message :=
  if record.recordType = .opt then ⟨⟨id, flags, 0, 0, 0, 1⟩, [], [], [], [record]⟩
  else ⟨⟨id, flags, 0, 1, 0, 0⟩, [], [record], [], []⟩

theorem length_labels_le_browser (name : Name) :
    name.labels.length ≤ ParseLimits.browser.maxLabelsPerName := by
  have few := name.two_mul_length_lt
  have bound : wireLen name.labels ≤ 255 := name.valid.wireLen_le
  change name.labels.length ≤ 127
  omega

section

variable {id : UInt16} {flags : Flags} {record : ResourceRecord}

theorem placed_counted : (placed id flags record).Counted := by
  unfold placed
  split
  next => exact ⟨rfl, rfl, rfl, rfl⟩
  next => exact ⟨rfl, rfl, rfl, rfl⟩

theorem placed_flags : (placed id flags record).header.flags = flags := by
  unfold placed
  split
  next => rfl
  next => rfl

/-- The flags are read back. -/
theorem flags_of_placed {maxMessageLen : Nat} {octets : Octets} {message : Message}
    (encoded : (placed id flags record).encode maxMessageLen = .ok octets)
    (parsed : Message.parse octets = .ok message) : message.header.flags = flags := by
  obtain ⟨-, questions, answers, authorities, additionals, -, -, -, -, octets_eq⟩ :=
    Message.encode_eq_ok placed_counted encoded
  have occurs := occurs_self octets
  nth_rewrite 1 [← octets_eq] at occurs
  simp only [occurs_append_iff] at occurs
  have header_eq := Header.parse_eq_ok occurs.1.1.1.1
  rw [(parseWithLimits_eq_ok parsed).1] at header_eq
  rw [Except.ok.inj header_eq, placed_flags]

theorem placed_readable (canonical : RecordType.fromCode record.recordType.code = record.recordType)
    (root : record.recordType = .opt → record.name = .root) (reserved : flags.bits &&& 0x0040 = 0)
    (complete : record.rdata.Complete) : (placed id flags record).Readable .browser := by
  have readable : record.Readable .browser :=
    ⟨canonical, complete, fun name _ => length_labels_le_browser name⟩
  unfold placed
  split
  next opt =>
    exact {
      toCounted := ⟨rfl, rfl, rfl, rfl⟩
      reserved := reserved
      questions_le := Nat.zero_le _
      records_le := by simp [ParseLimits.browser]
      pseudoRecords := by simp [validatePseudoRecords, validateAdditionals, root opt]
      questions := by simp
      answers := by simp
      authorities := by simp
      additionals := by simpa using readable }
  next other =>
    exact {
      toCounted := ⟨rfl, rfl, rfl, rfl⟩
      reserved := reserved
      questions_le := Nat.zero_le _
      records_le := by simp [ParseLimits.browser]
      pseudoRecords := by simp [validatePseudoRecords, validateAdditionals, other]
      questions := by simp
      answers := by simpa using readable
      authorities := by simp
      additionals := by simp }

/-- The record of a message that was parsed with it. -/
theorem readable_of_placed {message : Message} (readable : message.Readable .browser)
    (answers_eq : message.answers = (placed id flags record).answers)
    (additionals_eq : message.additionals = (placed id flags record).additionals) :
    record.Readable .browser := by
  unfold placed at answers_eq additionals_eq
  split at additionals_eq
  next => exact readable.additionals record (by simp [additionals_eq])
  next other => exact readable.answers record (by simp [answers_eq, other])

/-- An encoded record is parsed back exactly when the reserved header bit is clear
and the data is complete. -/
theorem parse_placed_iff {maxMessageLen : Nat} {octets : Octets}
    (canonical : RecordType.fromCode record.recordType.code = record.recordType)
    (root : record.recordType = .opt → record.name = .root)
    (encoded : (placed id flags record).encode maxMessageLen = .ok octets)
    (short : octets.length ≤ 65535) :
    (∃ message, Message.parse octets = .ok message ∧
        message.answers = (placed id flags record).answers ∧
        message.additionals = (placed id flags record).additionals) ↔
      flags.bits &&& 0x0040 = 0 ∧ record.rdata.Complete := by
  constructor
  · rintro ⟨message, parsed, answers_eq, additionals_eq⟩
    have readable := (parseWithLimits_eq_ok parsed).2
    constructor
    · rw [← flags_of_placed encoded parsed, readable.reserved]
    · exact (readable_of_placed readable answers_eq additionals_eq).complete
  · rintro ⟨reserved, complete⟩
    have readable : (placed id flags record).Readable .browser :=
      placed_readable canonical root reserved complete
    exact ⟨_, parseWithLimits_encode readable le_rfl encoded short short, rfl, rfl⟩

end

namespace ExampleMessage

def response : Flags :=
  ⟨0x8400⟩

def dsRecord (digest : Octets) : ResourceRecord :=
  ⟨name, .ds, classIn, 60, .ds ⟨42, 13, 2, digest⟩⟩

/-- The octets of a response with the DS record. -/
def dsOctets (digest : Octets) : Octets :=
  [0, 3, 0x84, 0, 0, 0, 0, 1, 0, 0, 0, 0] ++ wireOf name.labels ++
    [0, 43, 0, 1, 0, 0, 0, 60, 0, UInt8.ofNat (4 + digest.length), 0, 42, 13, 2] ++ digest

end ExampleMessage

open ExampleMessage in
theorem parse_dsRecord :
    (placed 3 response (dsRecord [0x22])).encode 65535 = .ok (dsOctets [0x22]) ∧
      ∃ message, Message.parse (dsOctets [0x22]) = .ok message ∧
        message.answers = (placed 3 response (dsRecord [0x22])).answers ∧
        message.additionals = (placed 3 response (dsRecord [0x22])).additionals := by
  have encoded : (placed 3 response (dsRecord [0x22])).encode 65535 = .ok (dsOctets [0x22]) := by
    rfl
  refine ⟨encoded, ?_⟩
  have complete : (dsRecord [0x22]).rdata.Complete := by simp [dsRecord, Rdata.Complete]
  exact (parse_placed_iff rfl (by decide) encoded (by decide)).mpr ⟨by decide, complete⟩

open ExampleMessage in
/-- A DS record without a digest is encoded, and the result is refused. -/
theorem parse_dsRecord_without_digest :
    RecordType.fromCode (dsRecord []).recordType.code = (dsRecord []).recordType ∧
      response.isResponse = true ∧
      (placed 3 response (dsRecord [])).encode 65535 = .ok (dsOctets []) ∧
      (dsOctets []).length ≤ 65535 ∧ Message.parse (dsOctets []) = .error .invalidRdata := by
  decide

end HnsDaneEngine.Wire
