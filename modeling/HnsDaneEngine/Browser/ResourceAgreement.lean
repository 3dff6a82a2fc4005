import HnsDaneEngine.Browser.Resource
import HnsDaneEngine.Light.Resource

/-!
# The two resource decoders

What both decoders accept, both read alike: they walk through the same octets, so that
the DNS records of the browser are the projection of the records of the light chain.
-/

namespace HnsDaneEngine.Browser

open Buffer Codec Control Light Wire

/-- A DNS record with its owner as labels. -/
structure RecordView where
  labels : List Label
  recordType : RecordType
  class_ : UInt16
  ttl : UInt32
  rdata : Octets

def ResourceRecord.view (record : ResourceRecord) : RecordView :=
  ⟨record.name.labels, record.recordType, record.class_, record.ttl, record.rdata⟩

/-- A name in lower case. -/
def lowerLabels (name : ResourceName) : List Label :=
  name.labels.map canonicalLabel

/-- A server, and its address when the name is at or below the owner. -/
def projectGlue (owner : DnsName) (ttl : UInt32) (addressType : RecordType) (name : ResourceName)
    (address : Octets) : List RecordView :=
  ⟨owner.labels, .ns, 1, ttl, wireOf (lowerLabels name)⟩ ::
    if owner.labels <:+ lowerLabels name then [⟨lowerLabels name, addressType, 1, ttl, address⟩]
    else []

/-- A server named after its address, and the address. -/
def projectSynth (owner : DnsName) (ttl : UInt32) (addressType : RecordType)
    (address : Octets) : List RecordView :=
  let labels := [0x5f :: Base32Hex.encode address, synthLabel]
  [⟨owner.labels, .ns, 1, ttl, wireOf labels⟩, ⟨labels, addressType, 1, ttl, address⟩]

/-- The DNS records that a record of the resource stands for. -/
def projectRecord (owner : DnsName) (ttl : UInt32) : HnsResourceRecord → List RecordView
  | .ds signer =>
    [⟨owner.labels, .ds, 1, ttl, (leOctets 2 signer.keyTag.toNat).reverse ++
      signer.algorithm :: signer.digestType :: signer.digest⟩]
  | .ns name => [⟨owner.labels, .ns, 1, ttl, wireOf (lowerLabels name)⟩]
  | .glue4 name address => projectGlue owner ttl .a name address
  | .glue6 name address => projectGlue owner ttl .aaaa name address
  | .synth4 address => projectSynth owner ttl .a address
  | .synth6 address => projectSynth owner ttl .aaaa address
  | .txt strings =>
    [⟨owner.labels, .txt, 1, ttl,
      strings.flatMap fun text => UInt8.ofNat text.length :: text⟩]

section

variable {CovenantError : Type} {input : Octets}

/-- Both decoders are at the same place of the input. -/
def Aligned (input : Octets) (reader : ResourceReader) (offset : Nat) : Prop :=
  reader.position = offset ∧ offset ≤ input.length

/-- Readers of the two decoders that stay at the same place. -/
abbrev InStep {α β : Type} (input : Octets) (results : α → β → Prop)
    (light : ResourceRead CovenantError α) (browser : CursorRead β) : Prop :=
  Agrees (Aligned input) results light browser

theorem readU8_inStep :
    InStep input Eq (ResourceReader.readU8 input : ResourceRead CovenantError _)
      (Cursor.readU8 input) := by
  intro reader offset _ _ _ _ aligned light browser
  obtain ⟨rfl, -⟩ := aligned
  obtain ⟨position_eq, inside⟩ := ResourceReader.readU8_position light
  obtain ⟨offset_eq, -⟩ := Cursor.readU8_offset browser
  unfold ResourceReader.readU8 at light
  unfold Cursor.readU8 at browser
  cases found : input[reader.position]? with
  | none =>
    rw [found] at light
    cases light
  | some byte =>
    rw [found] at light browser
    cases light
    cases browser
    exact ⟨rfl, rfl, inside⟩

theorem readBytes_inStep (length : Nat) :
    InStep input (fun first second => first = second ∧ second.length = length)
      (ResourceReader.readBytes input length : ResourceRead CovenantError _)
      (Cursor.readBytes input length) := by
  intro reader offset _ _ _ _ aligned light browser
  obtain ⟨rfl, -⟩ := aligned
  obtain ⟨fits, light⟩ := of_guard_ok light
  obtain ⟨-, browser⟩ := of_guard_ok browser
  cases light
  cases browser
  refine ⟨⟨rfl, ?_⟩, rfl, Nat.not_lt.mp fits⟩
  rw [List.length_take, List.length_drop]
  omega

theorem readU16Be_inStep :
    InStep input Eq (ResourceReader.readU16Be input : ResourceRead CovenantError _)
      (Cursor.readU16Be input) :=
  (readBytes_inStep 2).bind fun _ _ same => Agrees.pure (by rw [same.1])

theorem readLength_inStep :
    InStep input Eq (ResourceReader.readLengthPrefixedBytes input : ResourceRead CovenantError _)
      (Cursor.readLenU8Bytes input) := by
  refine readU8_inStep.bind fun length _ same => ?_
  subst same
  intro _ _ _ _ _ _ aligned light browser
  obtain ⟨⟨same, -⟩, after⟩ := readBytes_inStep length.toNat aligned light browser
  exact ⟨same, after⟩

theorem readStrings_inStep (count : Nat) :
    InStep input
      (fun strings rdata => rdata = strings.flatMap fun text => UInt8.ofNat text.length :: text)
      (ResourceReader.readStrings input count : ResourceRead CovenantError _)
      (Cursor.readTexts input count) := by
  induction count with
  | zero => exact Agrees.pure rfl
  | succ count ih =>
    refine readLength_inStep.bind fun text _ same => ?_
    subst same
    refine ih.bind fun texts rdata rdata_eq => Agrees.pure ?_
    rw [List.flatMap_cons, rdata_eq]

/-- A computation of the browser that reads nothing may come in between. -/
theorem InStep.lift_bind {α β γ : Type} {results : α → γ → Prop}
    {light : ResourceRead CovenantError α} {result : Except ResourceError β}
    {next : β → CursorRead γ}
    (continue_ : ∀ value, result = .ok value → InStep input results light (next value)) :
    InStep input results light (CursorRead.lift result >>= next) := by
  intro reader offset _ _ _ _ aligned lightRead browser
  obtain ⟨value, middle, lifted, rest⟩ := state_bind_eq_ok_iff.mp browser
  cases result with
  | error error => cases lifted
  | ok returned =>
    cases lifted
    exact continue_ _ rfl aligned lightRead rest

/-- The two decompressors follow the same labels and pointers. -/
theorem readNameFrom_agree {rounds rounds' cursor : Nat} {resume : Option Nat}
    {labels parsed labels' parsed' : List Label}
    {expandedWireLength jumps jumps' position stop : Nat}
    {visited known known' : List Nat} (labels_eq : labels' = labels.map canonicalLabel)
    (light : (ResourceReader.readNameFrom input rounds cursor resume labels expandedWireLength jumps
      visited known : Except (ResourceDecodeError CovenantError) _) =
        .ok (parsed, position, known'))
    (browser : parseWireFrom input rounds' cursor labels' resume jumps' = .ok (parsed', stop)) :
    parsed' = parsed.map canonicalLabel ∧ position = stop := by
  induction rounds generalizing rounds' cursor resume labels labels' expandedWireLength jumps jumps'
    visited known with
  | zero => cases light
  | succ rounds ih =>
    cases rounds' with
    | zero => cases browser
    | succ rounds' =>
      unfold ResourceReader.readNameFrom at light
      obtain ⟨-, light⟩ := of_guard_ok light
      rcases parseWireFrom_eq_ok browser with
        ⟨read, rfl, rfl⟩ | ⟨bytes, read, -, browser⟩ | ⟨target, read, -, browser⟩
      · have at_cursor := (readWireItem_eq_ok_iff.mp read).getElem?
        simp only [at_cursor] at light
        rw [if_neg (by decide)] at light
        obtain ⟨-, light⟩ := of_guard_ok light
        rw [if_pos trivial] at light
        cases light
        exact ⟨labels_eq, rfl⟩
      · rcases readWireItem_eq_ok_iff.mp read with ⟨occurs, nonempty, bounded, -⟩
        simp only [occurs.getElem?, lengthOctet_high bytes.length (Nat.lt_succ_of_le bounded),
          toNat_ofNat_label bounded, (occurs_cons_iff.mp occurs).2.take_drop] at light
        rw [if_neg (by decide), if_neg (by simp), if_neg (ofNat_label_ne_zero nonempty bounded)]
          at light
        obtain ⟨-, light⟩ := of_guard_ok light
        obtain ⟨-, light⟩ := of_guard_ok light
        obtain ⟨-, light⟩ := of_guard_ok light
        refine ih ?_ light browser
        rw [labels_eq, List.map_append, List.map_singleton]
      · rcases readWireItem_eq_ok_iff.mp read with ⟨high, low, occurs, marked, rfl, -⟩
        simp only [occurs.getElem?, (occurs_cons_iff.mp occurs).2.getElem?] at light
        rw [if_pos marked] at light
        obtain ⟨-, light⟩ := of_guard_ok light
        obtain ⟨-, light⟩ := of_guard_ok light
        exact ih labels_eq light browser

theorem readName_inStep :
    InStep input (fun light name => name.labels = lowerLabels light)
      (ResourceReader.readName input : ResourceRead CovenantError _) (Cursor.readName input) := by
  intro reader offset _ _ _ _ aligned light browser
  obtain ⟨rfl, -⟩ := aligned
  unfold ResourceReader.readName at light
  unfold Cursor.readName at browser
  split at light
  next => cases light
  next labels position known light_eq =>
    cases light
    split at browser
    next => cases browser
    next name next parsed =>
      obtain ⟨inside, browser⟩ := of_guard_ok browser
      cases browser
      obtain ⟨labels_eq, rfl⟩ :=
        readNameFrom_agree rfl light_eq (DnsName.parseWire_eq_ok.mp parsed)
      exact ⟨labels_eq, rfl, Nat.not_lt.mp (not_or.mp inside).2⟩

theorem nameRdata_eq_ok {name : DnsName} {rdata : Octets}
    (encoded : nameRdata name = .ok rdata) : rdata = wireOf name.labels := by
  unfold nameRdata at encoded
  rw [DnsName.encodeWire_eq] at encoded
  exact (Except.ok.inj encoded).symm

theorem isSubdomainOrEqual_iff {name parent : DnsName} :
    isSubdomainOrEqual name parent = true ↔ parent.labels <:+ name.labels := by
  rw [isSubdomainOrEqual, List.isSuffixOf_iff_suffix]

/-- The DNS records are those that the record of the light chain stands for. -/
def Projects (owner : DnsName) (ttl : UInt32) (record : HnsResourceRecord)
    (added : List ResourceRecord) : Prop :=
  added.map ResourceRecord.view = projectRecord owner ttl record

variable {ttl : UInt32} {addressType : RecordType} {owner : DnsName}

theorem readGlue_inStep {width : Nat} {build : ResourceName → Octets → HnsResourceRecord}
    (projected : ∀ name address,
      projectRecord owner ttl (build name address) = projectGlue owner ttl addressType name address) :
    InStep input (Projects owner ttl)
      (do
        let name ← ResourceReader.readName input
        let address ← ResourceReader.readBytes input width
        pure (build name address) : ResourceRead CovenantError _)
      (readGlue input owner ttl addressType width) := by
  refine readName_inStep.bind fun light name labels_eq => (readBytes_inStep width).bind
    fun address _ same => InStep.lift_bind fun rdata encoded => ?_
  obtain rfl := same.1
  have rdata_eq := nameRdata_eq_ok encoded
  have below_iff : isSubdomainOrEqual name owner = true ↔ owner.labels <:+ name.labels :=
    isSubdomainOrEqual_iff
  rw [labels_eq] at rdata_eq below_iff
  by_cases below : isSubdomainOrEqual name owner = true
  · rw [if_pos below]
    refine Agrees.pure ?_
    rw [Projects, projected, projectGlue, if_pos (below_iff.mp below), rdata_eq]
    simp [ResourceRecord.view, record, labels_eq]
  · rw [if_neg below]
    refine Agrees.pure ?_
    rw [Projects, projected, projectGlue, if_neg (mt below_iff.mpr below), rdata_eq]
    simp [ResourceRecord.view, record]

theorem readSynth_inStep {width : Nat} (short : width ≤ 16)
    {build : Octets → HnsResourceRecord} (projected : ∀ address,
      projectRecord owner ttl (build address) = projectSynth owner ttl addressType address) :
    InStep input (Projects owner ttl)
      (do
        let address ← ResourceReader.readBytes input width
        pure (build address) : ResourceRead CovenantError _)
      (readSynth input owner ttl addressType width) := by
  refine (readBytes_inStep width).bind fun address _ same => InStep.lift_bind
    fun ns synthesized => InStep.lift_bind fun rdata encoded => ?_
  obtain ⟨rfl, length_eq⟩ := same
  have labels_eq := synthName_labels (length_eq.trans_le short) synthesized
  have rdata_eq := nameRdata_eq_ok encoded
  rw [labels_eq] at rdata_eq
  refine Agrees.pure ?_
  rw [Projects, projected, projectSynth, rdata_eq]
  simp [ResourceRecord.view, record, labels_eq]

/-- One entry of the resource. -/
theorem readEntry_inStep (owner : DnsName) (ttl : UInt32) (kind : UInt8) :
    InStep input (Projects owner ttl) (readResourceRecord input kind : ResourceRead CovenantError _)
      (readEntry input owner ttl kind) := by
  unfold readResourceRecord readEntry
  generalize kind.toNat = number
  split
  next =>
    refine readU16Be_inStep.bind fun keyTag _ tag_eq => readU8_inStep.bind
      fun algorithm _ algorithm_eq => readU8_inStep.bind fun digestType _ type_eq =>
        readLength_inStep.bind fun digest _ digest_eq => Agrees.pure ?_
    subst tag_eq algorithm_eq type_eq digest_eq
    rfl
  next =>
    refine readName_inStep.bind fun light name labels_eq => InStep.lift_bind
      fun rdata encoded => Agrees.pure ?_
    have rdata_eq := nameRdata_eq_ok encoded
    rw [labels_eq] at rdata_eq
    rw [Projects, projectRecord, rdata_eq]
    rfl
  next =>
    exact readGlue_inStep fun _ _ => rfl
  next =>
    exact readGlue_inStep fun _ _ => rfl
  next =>
    exact readSynth_inStep (by decide) fun _ => rfl
  next =>
    exact readSynth_inStep (by decide) fun _ => rfl
  next =>
    refine readU8_inStep.bind fun count _ same => ?_
    subst same
    split
    next => exact Agrees.error_right fun _ => ⟨_, rfl⟩
    next =>
      refine (readStrings_inStep count.toNat).bind fun strings rdata rdata_eq => Agrees.pure ?_
      rw [Projects, projectRecord, rdata_eq]
      rfl
  next => exact fun _ _ _ _ _ _ _ failed => nomatch failed

theorem foldlM_pushRecord_eq_ok {records added final : List ResourceRecord}
    (pushed : added.foldlM pushRecord records = .ok final) : final = records ++ added := by
  induction added generalizing records with
  | nil =>
    obtain rfl := Except.ok.inj pushed
    exact (List.append_nil _).symm
  | cons record added ih =>
    rw [List.foldlM_cons] at pushed
    obtain ⟨middle, pushedFirst, rest⟩ := of_bind_ok pushed
    obtain ⟨-, middle_eq⟩ := of_guard_ok pushedFirst
    obtain rfl := Except.ok.inj middle_eq
    rw [ih rest, List.append_assoc, List.singleton_append]

/-- Both decoders are at one place, with the same records so far. -/
def SameProgress (input : Octets) (owner : DnsName) (ttl : UInt32)
    (light : ResourceReader × List HnsResourceRecord) (browser : Nat × List ResourceRecord) :
    Prop :=
  Aligned input light.1 browser.1 ∧
    browser.2.map ResourceRecord.view = light.2.flatMap (projectRecord owner ttl)

/-- One round of both loops. -/
theorem sameProgress_step {light light' : ResourceReader × List HnsResourceRecord}
    {browser browser' : Nat × List ResourceRecord}
    (same : SameProgress input owner ttl light browser)
    (lightStep : (readNextRecord input light : Except (ResourceDecodeError CovenantError) _) =
      .ok light') (browserStep : decodeNextEntry input owner ttl browser = .ok browser') :
    SameProgress input owner ttl light' browser' := by
  obtain ⟨⟨kind, reader₁⟩, kindRead, lightStep⟩ := of_bind_ok lightStep
  obtain ⟨⟨record, reader₂⟩, recordRead, returned⟩ := of_bind_ok lightStep
  obtain rfl := Except.ok.inj returned
  obtain ⟨⟨kind', offset₁⟩, kindRead', browserStep⟩ := of_bind_ok browserStep
  obtain ⟨⟨added, offset₂⟩, entryRead, browserStep⟩ := of_bind_ok browserStep
  obtain ⟨records, pushed, returned⟩ := of_bind_ok browserStep
  obtain rfl := Except.ok.inj returned
  obtain ⟨aligned, views_eq⟩ := same
  obtain ⟨rfl, aligned₁⟩ := readU8_inStep aligned kindRead kindRead'
  obtain ⟨projects, aligned₂⟩ := readEntry_inStep owner ttl kind aligned₁ recordRead entryRead
  refine ⟨aligned₂, ?_⟩
  rw [foldlM_pushRecord_eq_ok pushed, List.map_append, views_eq, projects, List.flatMap_append,
    List.flatMap_singleton]

/-- The browser's records of a resource are the projection of the light chain's, in order
and with every name in lower case, whenever both decoders accept it. -/
theorem decoders_agree {maxResourceSize : Nat}
    {newCovenantResource : Octets → Except CovenantError Unit} {raw : Octets}
    {owner : DnsName} {resource : HnsResource} {records : List ResourceRecord}
    (light : HnsResource.decode maxResourceSize newCovenantResource raw = .ok resource)
    (browser : decodeHandshakeResourceRecords owner raw = .ok records) :
    records.map ResourceRecord.view =
      resource.records.flatMap (projectRecord owner defaultHandshakeResourceTtl) := by
  obtain ⟨-, light⟩ := guard_eq_ok_iff.mp light
  obtain ⟨⟨version, offset⟩, versionRead, browser⟩ := of_bind_ok browser
  obtain ⟨-, browser⟩ := guard_eq_ok_iff.mp browser
  obtain ⟨⟨stop, decoded⟩, browserLoop, returned⟩ := of_bind_ok browser
  obtain rfl := Except.ok.inj returned
  split at light
  next => cases light
  next lightVersion reader lightRead =>
    obtain ⟨-, light⟩ := guard_eq_ok_iff.mp light
    split at light
    next => cases light
    next final lightRecords lightLoop =>
      split at light
      next => cases light
      next =>
        obtain rfl := Except.ok.inj light
        have start : Aligned raw ⟨0, []⟩ 0 := ⟨rfl, Nat.zero_le _⟩
        obtain ⟨-, aligned⟩ := readU8_inStep start lightRead versionRead
        have same : SameProgress raw owner defaultHandshakeResourceTtl (reader, []) (offset, []) :=
          ⟨aligned, rfl⟩
        refine (repeatUntil_agree ?_ sameProgress_step same lightLoop browserLoop).2
        intro light browser related
        obtain ⟨⟨position_eq, inside⟩, -⟩ := related
        rw [position_eq]
        exact decide_eq_decide.mpr (by omega)

end

namespace ExampleResource

/-- `example`. -/
def owner : DnsName :=
  ⟨[[101, 120, 97, 109, 112, 108, 101]], by decide⟩

/-- A server `Ns.example`, and its address with the name compressed. -/
def raw : Octets :=
  [0, 1, 2, 78, 115, 7, 101, 120, 97, 109, 112, 108, 101, 0, 2, 0xc0, 2, 127, 0, 0, 1]

def name : ResourceName :=
  ⟨[[78, 115], [101, 120, 97, 109, 112, 108, 101]]⟩

def resource : HnsResource :=
  ⟨raw, [.ns name, .glue4 name [127, 0, 0, 1]]⟩

def server : DnsName :=
  ⟨[[110, 115], [101, 120, 97, 109, 112, 108, 101]], by decide⟩

def serverRecord : ResourceRecord :=
  record owner .ns defaultHandshakeResourceTtl [2, 110, 115, 7, 101, 120, 97, 109, 112, 108, 101, 0]

def records : List ResourceRecord :=
  [serverRecord, serverRecord, record server .a defaultHandshakeResourceTtl [127, 0, 0, 1]]

theorem decoders_agree_compressed :
    HnsResource.decode 512 (fun _ => (.ok () : Except Unit Unit)) raw = .ok resource ∧
      decodeHandshakeResourceRecords owner raw = .ok records ∧
      records.map ResourceRecord.view =
        resource.records.flatMap (projectRecord owner defaultHandshakeResourceTtl) := by
  have light : HnsResource.decode 512 (fun _ => (.ok () : Except Unit Unit)) raw = .ok resource :=
    rfl
  have browser : decodeHandshakeResourceRecords owner raw = .ok records := rfl
  exact ⟨light, browser, decoders_agree light browser⟩

end ExampleResource

end HnsDaneEngine.Browser
