import HnsDaneEngine.Encoding.ReadBack
import HnsDaneEngine.NamedRoute.Sequences

/-!
# Persistence of the named-route state

A state is stored as a header of fixed length, one row of fixed length for each endpoint, and
a checksum over both.  A slot that is absent is stored as zeros under a flag that says so.
The checksum is BLAKE2b over a domain text and the payload and is a parameter here.
-/

namespace HnsDaneEngine.NamedRoute

open Codec Control Data HnsDaneEngine.Order Primitives HnsaNamedRouteState

def maxHnsaNamedRouteStateBytes : Nat := 7519

/-- `HNS1`. -/
def hnsaNamedRouteStateMagic : Octets := [72, 78, 83, 49]

/-- `HNS-DANE-HNSA-STATE-CHECKSUM-V1` with a final zero. -/
def hnsaStateChecksumDomain : Octets :=
  [72, 78, 83, 45, 68, 65, 78, 69, 45, 72, 78, 83, 65, 45, 83, 84, 65, 84, 69, 45, 67, 72, 69, 67,
    75, 83, 85, 77, 45, 86, 49, 0]

def hnsaStateHeaderSize : Nat := 127

def hnsaEndpointStateSize : Nat := 115

def hnsaStateChecksumSize : Nat := 32

namespace HnsaSequenceStateStatus

def tag : HnsaSequenceStateStatus → Nat
  | active => 1
  | conflicted => 2
  | exhausted => 3

def ofTag (tag : Nat) : Except SequenceStateError HnsaSequenceStateStatus :=
  if tag = 1 then .ok active
  else if tag = 2 then .ok conflicted
  else if tag = 3 then .ok exhausted
  else .error .invalidSequenceState

theorem ofTag_eq_ok_iff {tag : Nat} {status : HnsaSequenceStateStatus} :
    ofTag tag = .ok status ↔ tag = status.tag := by
  unfold ofTag
  cases status <;> split_ifs <;> simp_all [HnsaSequenceStateStatus.tag]

end HnsaSequenceStateStatus

/-- The all-zero key. -/
def EndpointKey.zero : EndpointKey :=
  ⟨List.replicate 33 0, List.length_replicate⟩

/-- `u8::from` of whether the slot is taken. -/
def presentTag {ι : Type} (slot : Option ι) : Nat :=
  if slot.isSome then 1 else 0

/-- The number and the id of a slot, or zeros. -/
def encodeSlot : Option (Sequenced Hash) → Octets
  | some held => leOctets 8 held.sequence ++ held.id.bytes
  | none => List.replicate 8 0 ++ List.replicate 32 0

/-- The slot under a flag; an absent one has zeros, and a present one has none. -/
def slotOf (present sequence : Nat) (id : Hash) :
    Except SequenceStateError (Option (Sequenced Hash)) :=
  if present = 0 ∧ sequence = 0 ∧ id = .zero then .ok none
  else if present = 1 ∧ sequence ≠ 0 ∧ id ≠ .zero then .ok (some ⟨sequence, id⟩)
  else .error .invalidSequenceState

def readNumber (width : Nat) : Reader SequenceStateError Nat :=
  readLe .invalidSequenceState width id

def readHash : Reader SequenceStateError Hash :=
  readExactly .invalidSequenceState 32 Hash.mk

def readEndpointKey : Reader SequenceStateError EndpointKey :=
  readExactly .invalidSequenceState 33 EndpointKey.mk

def readSlot : Reader SequenceStateError (Option (Sequenced Hash)) := do
  let present ← readNumber 1
  let sequence ← readNumber 8
  let id ← readHash
  Reader.lift (slotOf present sequence id)

/-- An endpoint as it is stored. -/
abbrev EndpointRow : Type :=
  EndpointKey × HnsaEndpointState

def encodeEndpoint (row : EndpointRow) : Octets :=
  row.1.octets ++
    (leOctets 1 (presentTag row.2.delegation) ++ encodeSlot row.2.delegation ++
      (leOctets 1 (presentTag row.2.route) ++ encodeSlot row.2.route))

/-- The loop over the endpoints, whose keys ascend. -/
def readEndpoints : Option EndpointKey → Nat → Reader SequenceStateError (List EndpointRow)
  | _, 0 => pure []
  | previous, count + 1 => do
    let endpointKey ← readEndpointKey
    Reader.ensure (endpointKey ≠ .zero ∧ ¬ previous.any fun previous => endpointKey ≤ previous)
      .invalidSequenceState
    let delegation ← readSlot
    let route ← readSlot
    let rest ← readEndpoints (some endpointKey) count
    pure ((endpointKey, ⟨delegation, route⟩) :: rest)

/-- The fields of a stored state. -/
structure StateFields where
  magic : Octets
  generation : Nat
  resourceGeneration : Nat
  status : HnsaSequenceStateStatus
  authorityDigest : Hash
  routeKey : Hash
  authorization : Option HnsaAuthorizationState
  endpoints : List EndpointRow

def encodeFields (fields : StateFields) : Octets :=
  fields.magic ++ (leOctets 8 fields.generation ++ (leOctets 8 fields.resourceGeneration ++
    (leOctets 1 fields.status.tag ++ (leOctets 1 (presentTag fields.authorization) ++
      (fields.authorityDigest.bytes ++ (fields.routeKey.bytes ++
        (encodeSlot fields.authorization ++ (leOctets 1 fields.endpoints.length ++
          fields.endpoints.flatMap encodeEndpoint))))))))

def readFields : Reader SequenceStateError StateFields := do
  let magic ← readOctets .invalidSequenceState 4
  let generation ← readNumber 8
  let resourceGeneration ← readNumber 8
  let tag ← readNumber 1
  let status ← Reader.lift (HnsaSequenceStateStatus.ofTag tag)
  let authorizationPresent ← readNumber 1
  let authorityDigest ← readHash
  let routeKey ← readHash
  let authorizationSerial ← readNumber 8
  let authorizationId ← readHash
  let authorization ← Reader.lift (slotOf authorizationPresent authorizationSerial authorizationId)
  let endpointCount ← readNumber 1
  Reader.ensure (endpointCount ≤ maxHnsaNamedRouteEndpoints) .invalidSequenceState
  let endpoints ← readEndpoints none endpointCount
  pure ⟨magic, generation, resourceGeneration, status, authorityDigest, routeKey, authorization,
    endpoints⟩

namespace HnsaNamedRouteState

def fields (state : HnsaNamedRouteState) : StateFields where
  magic := hnsaNamedRouteStateMagic
  generation := state.generation
  resourceGeneration := state.resourceGeneration
  status := state.status
  authorityDigest := state.authorityDigest
  routeKey := state.routeKey
  authorization := state.authorization
  endpoints := state.endpoints.rows

variable (blake2b256 : Octets → Hash)

/-- Encode the scoped state as one bounded checksummed blob. -/
def encode (state : HnsaNamedRouteState) : Except SequenceStateError Octets :=
  if ¬ state.isScoped ∨ maxHnsaNamedRouteEndpoints < state.endpoints.rows.length then
    .error .invalidSequenceState
  else
    let output := encodeFields state.fields
    if output.length ≠ hnsaStateHeaderSize + state.endpoints.rows.length * hnsaEndpointStateSize then
      .error .invalidSequenceState
    else .ok (output ++ (blake2b256 (hnsaStateChecksumDomain ++ output)).bytes)

/-- The checks on the fields, and the state they make. -/
def ofFields (fields : StateFields) (rest : Octets) :
    Except SequenceStateError HnsaNamedRouteState :=
  if fields.magic ≠ hnsaNamedRouteStateMagic ∨ fields.generation = 0 ∨
      fields.resourceGeneration = 0 ∨ fields.authorityDigest = .zero ∨ fields.routeKey = .zero ∨
      rest ≠ [] ∨ fields.authorization = none ∧ fields.endpoints ≠ [] then
    .error .invalidSequenceState
  else
    -- The loop over the endpoints has established both conditions.
    if valid : fields.endpoints.Pairwise (fun first second => first.1 < second.1) ∧
        fields.endpoints.length ≤ maxHnsaNamedRouteEndpoints then
      .ok
        { generation := fields.generation
          resourceGeneration := fields.resourceGeneration
          authorityDigest := fields.authorityDigest
          routeKey := fields.routeKey
          status := fields.status
          authorization := fields.authorization
          endpoints := ⟨fields.endpoints, valid.1, valid.2⟩ }
    else .error .invalidSequenceState

/-- Decode one canonical state. -/
def decode (input : Octets) : Except SequenceStateError HnsaNamedRouteState :=
  if input.length < hnsaStateChecksumSize then .error .invalidSequenceState
  else if maxHnsaNamedRouteStateBytes < input.length ∨
      input.length - hnsaStateChecksumSize < hnsaStateHeaderSize then
    .error .invalidSequenceState
  else
    let payload := input.take (input.length - hnsaStateChecksumSize)
    let checksum := input.drop (input.length - hnsaStateChecksumSize)
    if (blake2b256 (hnsaStateChecksumDomain ++ payload)).bytes ≠ checksum then
      .error .invalidSequenceState
    else do
      let (fields, rest) ← readFields payload
      ofFields fields rest

end HnsaNamedRouteState

theorem canonical_number (width : Nat) :
    Canonical (readNumber width) (leOctets width) fun number => number < 256 ^ width :=
  Canonical.le _ width

theorem canonical_hash : Canonical readHash Hash.bytes fun _ => True :=
  Canonical.exactly _ Hash.length_eq (fun _ => rfl) fun _ _ => rfl

theorem canonical_endpointKey : Canonical readEndpointKey EndpointKey.octets fun _ => True :=
  Canonical.exactly _ EndpointKey.length_eq (fun _ => rfl) fun _ _ => rfl

/-- A taken slot has a number that fits and is not zero, and an id that is not zero. -/
def ValidSlot (slot : Option (Sequenced Hash)) : Prop :=
  ∀ held, slot = some held → held.sequence < 256 ^ 8 ∧ held.sequence ≠ 0 ∧ held.id ≠ .zero

theorem validSlot_none : ValidSlot none := by
  intro held taken
  cases taken

def sequenceOf (slot : Option (Sequenced Hash)) : Nat :=
  (slot.map Sequenced.sequence).getD 0

def idOf (slot : Option (Sequenced Hash)) : Hash :=
  (slot.map Sequenced.id).getD .zero

theorem encodeSlot_eq (slot : Option (Sequenced Hash)) :
    encodeSlot slot = leOctets 8 (sequenceOf slot) ++ (idOf slot).bytes := by
  cases slot with
  | none => rfl
  | some held => rfl

@[simp]
theorem length_encodeSlot (slot : Option (Sequenced Hash)) : (encodeSlot slot).length = 40 := by
  rw [encodeSlot_eq, List.length_append, length_leOctets, Hash.length_eq]

theorem presentTag_lt {ι : Type} (slot : Option ι) : presentTag slot < 256 ^ 1 := by
  unfold presentTag
  split <;> decide

variable {slot : Option (Sequenced Hash)} {input rest : Octets} {previous : Option EndpointKey}
  {state : HnsaNamedRouteState}

theorem slotOf_eq_ok_iff {present sequence : Nat} {id : Hash} (fits : sequence < 256 ^ 8) :
    slotOf present sequence id = .ok slot ↔
      ValidSlot slot ∧ present = presentTag slot ∧ sequence = sequenceOf slot ∧ id = idOf slot := by
  unfold slotOf
  cases slot with
  | none =>
    split_ifs with absent taken
    · simp [validSlot_none, presentTag, sequenceOf, idOf, absent]
    · simp [presentTag, taken.1]
    · simp only [false_iff]
      rintro ⟨-, present_eq, sequence_eq, id_eq⟩
      exact absent ⟨present_eq, sequence_eq, id_eq⟩
  | some held =>
    rcases held with ⟨heldSequence, heldId⟩
    have valid_iff : ValidSlot (some ⟨heldSequence, heldId⟩) ↔
        heldSequence < 256 ^ 8 ∧ heldSequence ≠ 0 ∧ heldId ≠ .zero := by
      simp [ValidSlot]
    rw [valid_iff]
    split_ifs with absent taken
    · simp [presentTag, absent.1]
    · simp only [Except.ok.injEq, Option.some.injEq, Sequenced.mk.injEq, presentTag, sequenceOf,
        idOf, Option.isSome_some, if_true, Option.map_some, Option.getD_some]
      constructor
      · rintro ⟨rfl, rfl⟩
        exact ⟨⟨fits, taken.2⟩, taken.1, rfl, rfl⟩
      · rintro ⟨-, -, rfl, rfl⟩
        exact ⟨rfl, rfl⟩
    · simp only [false_iff]
      rintro ⟨valid, present_eq, sequence_eq, id_eq⟩
      change sequence = heldSequence at sequence_eq
      change id = heldId at id_eq
      rw [← sequence_eq, ← id_eq] at valid
      exact taken ⟨present_eq, valid.2⟩

theorem sequenceOf_lt (valid : ValidSlot slot) : sequenceOf slot < 256 ^ 8 := by
  cases slot with
  | none => decide
  | some held => exact (valid held rfl).1

/-- A slot with its flag. -/
def encodeFlaggedSlot (slot : Option (Sequenced Hash)) : Octets :=
  leOctets 1 (presentTag slot) ++ encodeSlot slot

theorem readsBack_presentTag {ι : Type} (slot : Option ι) :
    ReadsBack (readNumber 1) (leOctets 1 (presentTag slot)) (presentTag slot) :=
  (canonical_number 1).read_write (presentTag_lt slot)

theorem readsBack_sequence (valid : ValidSlot slot) :
    ReadsBack (readNumber 8) (leOctets 8 (sequenceOf slot)) (sequenceOf slot) :=
  (canonical_number 8).read_write (sequenceOf_lt valid)

theorem readsBack_hash (hash : Hash) : ReadsBack readHash hash.bytes hash :=
  canonical_hash.read_write trivial

theorem readsBack_endpointKey (endpointKey : EndpointKey) :
    ReadsBack readEndpointKey endpointKey.octets endpointKey :=
  canonical_endpointKey.read_write trivial

theorem readsBack_slotOf (valid : ValidSlot slot) :
    ReadsBack (Reader.lift (slotOf (presentTag slot) (sequenceOf slot) (idOf slot))) [] slot := by
  intro rest
  rw [Reader.lift_eq_ok_iff, slotOf_eq_ok_iff (sequenceOf_lt valid)]
  exact ⟨⟨valid, rfl, rfl, rfl⟩, rfl⟩

theorem readSlot_readsBack (valid : ValidSlot slot) :
    ReadsBack readSlot (encodeFlaggedSlot slot) slot := by
  rw [readSlot, encodeFlaggedSlot, encodeSlot_eq]
  apply (readsBack_presentTag slot).bind
  apply (readsBack_sequence valid).bind
  have octets_eq : (idOf slot).bytes = (idOf slot).bytes ++ [] := (List.append_nil _).symm
  rw [octets_eq]
  exact (readsBack_hash (idOf slot)).bind (readsBack_slotOf valid)

theorem readSlot_eq_ok (read : readSlot input = .ok (slot, rest)) :
    ValidSlot slot ∧ input = encodeFlaggedSlot slot ++ rest := by
  rcases Reader.of_bind_ok read with ⟨present, afterPresent, present_eq, read⟩
  rcases Reader.of_bind_ok read with ⟨sequence, afterSequence, sequence_eq, read⟩
  rcases Reader.of_bind_ok read with ⟨id, afterId, id_eq, read⟩
  rcases Reader.lift_eq_ok_iff.mp read with ⟨made, rfl⟩
  rcases (canonical_number 1).write_read present_eq with ⟨-, rfl⟩
  rcases (canonical_number 8).write_read sequence_eq with ⟨fits, rfl⟩
  rcases canonical_hash.write_read id_eq with ⟨-, rfl⟩
  rcases (slotOf_eq_ok_iff fits).mp made with ⟨valid, rfl, rfl, rfl⟩
  refine ⟨valid, ?_⟩
  rw [encodeFlaggedSlot, encodeSlot_eq, List.append_assoc, List.append_assoc]

theorem canonical_slot : Canonical readSlot encodeFlaggedSlot ValidSlot :=
  ⟨readSlot_readsBack, readSlot_eq_ok⟩

/-- A row has a key that is not zero, and valid slots. -/
structure ValidEndpoint (row : EndpointRow) : Prop where
  key_ne : row.1 ≠ .zero
  delegation : ValidSlot row.2.delegation
  route : ValidSlot row.2.route

/-- Rows that may follow a key. -/
structure ValidEndpoints (previous : Option EndpointKey) (rows : List EndpointRow) : Prop where
  ascending : rows.Pairwise fun first second => first.1 < second.1
  above : ∀ key ∈ previous, ∀ row ∈ rows, key < row.1
  each : ∀ row ∈ rows, ValidEndpoint row

theorem validEndpoints_cons_iff {row : EndpointRow} {rows : List EndpointRow} :
    ValidEndpoints previous (row :: rows) ↔
      ValidEndpoint row ∧ (∀ key ∈ previous, key < row.1) ∧ ValidEndpoints (some row.1) rows := by
  constructor
  · rintro ⟨ascending, above, each⟩
    rw [List.pairwise_cons] at ascending
    rw [List.forall_mem_cons] at each
    refine ⟨each.1, fun key member => above key member row List.mem_cons_self, ?_⟩
    refine ⟨ascending.2, ?_, each.2⟩
    intro key member other inRows
    cases member
    exact ascending.1 other inRows
  · rintro ⟨head, above, ⟨ascending, later, each⟩⟩
    have head_lt := later row.1 rfl
    refine ⟨List.pairwise_cons.mpr ⟨head_lt, ascending⟩, ?_, List.forall_mem_cons.mpr ⟨head, each⟩⟩
    intro key member
    rw [List.forall_mem_cons]
    exact ⟨above key member, fun other inRows => (above key member).trans (head_lt other inRows)⟩

theorem above_iff {endpointKey : EndpointKey} :
    (¬ previous.any fun previous => endpointKey ≤ previous) ↔
      ∀ key ∈ previous, key < endpointKey := by
  cases previous with
  | none => simp
  | some key => simp

theorem canonical_endpoints (previous : Option EndpointKey) (count : Nat) :
    Canonical (readEndpoints previous count) (fun rows => rows.flatMap encodeEndpoint) fun rows =>
      rows.length = count ∧ ValidEndpoints previous rows where
  read_write := by
    rintro rows ⟨rfl, valid⟩
    induction rows generalizing previous with
    | nil => exact ReadsBack.pure []
    | cons row rows ih =>
      rcases validEndpoints_cons_iff.mp valid with ⟨head, above, later⟩
      rcases row with ⟨endpointKey, ⟨delegation, route⟩⟩
      have octets_eq : ((endpointKey, ⟨delegation, route⟩) :: rows : List EndpointRow).flatMap
          encodeEndpoint = endpointKey.octets ++ (encodeFlaggedSlot delegation ++
            (encodeFlaggedSlot route ++ rows.flatMap encodeEndpoint)) := by
        simp [encodeEndpoint, encodeFlaggedSlot]
      rw [octets_eq, List.length_cons, readEndpoints]
      apply (readsBack_endpointKey endpointKey).bind
      apply ReadsBack.ensure_bind ⟨head.key_ne, above_iff.mpr above⟩
      apply (readSlot_readsBack head.delegation).bind
      apply (readSlot_readsBack head.route).bind
      exact (ih (some endpointKey) later).bind_pure
  write_read := by
    intro input rows rest read
    induction count generalizing previous input rows with
    | zero =>
      rcases Reader.pure_eq_ok_iff.mp read with ⟨rfl, rfl⟩
      exact ⟨⟨rfl, List.Pairwise.nil, by simp, by simp⟩, rfl⟩
    | succ count ih =>
      rcases Reader.of_bind_ok read with ⟨endpointKey, afterKey, key_eq, read⟩
      rcases Reader.of_bind_ok read with ⟨⟨⟩, afterCheck, checked, read⟩
      rcases Reader.of_bind_ok read with ⟨delegation, afterDelegation, delegation_eq, read⟩
      rcases Reader.of_bind_ok read with ⟨route, afterRoute, route_eq, read⟩
      rcases Reader.of_bind_ok read with ⟨later, afterRows, rows_eq, read⟩
      rcases Reader.pure_eq_ok_iff.mp read with ⟨rfl, rfl⟩
      rcases Reader.ensure_eq_ok_iff.mp checked with ⟨⟨key_ne, above⟩, rfl⟩
      rcases canonical_endpointKey.write_read key_eq with ⟨-, rfl⟩
      rcases canonical_slot.write_read delegation_eq with ⟨delegation_valid, rfl⟩
      rcases canonical_slot.write_read route_eq with ⟨route_valid, rfl⟩
      rcases ih (some endpointKey) rows_eq with ⟨⟨length_eq, valid⟩, rfl⟩
      refine ⟨⟨by rw [List.length_cons, length_eq], ?_⟩, ?_⟩
      · exact validEndpoints_cons_iff.mpr
          ⟨⟨key_ne, delegation_valid, route_valid⟩, above_iff.mp above, valid⟩
      · simp [encodeEndpoint, encodeFlaggedSlot]

/-- Fields that may be stored. -/
structure ValidFields (fields : StateFields) : Prop where
  magic_length : fields.magic.length = 4
  generation_lt : fields.generation < 256 ^ 8
  resourceGeneration_lt : fields.resourceGeneration < 256 ^ 8
  authorization : ValidSlot fields.authorization
  endpoints_le : fields.endpoints.length ≤ maxHnsaNamedRouteEndpoints
  endpoints : ValidEndpoints none fields.endpoints

theorem HnsaSequenceStateStatus.tag_lt (status : HnsaSequenceStateStatus) :
    status.tag < 256 ^ 1 := by
  cases status <;> decide

theorem readsBack_status (status : HnsaSequenceStateStatus) :
    ReadsBack (readNumber 1) (leOctets 1 status.tag) status.tag :=
  (canonical_number 1).read_write status.tag_lt

variable {fields : StateFields}

theorem readFields_readsBack (valid : ValidFields fields) :
    ReadsBack readFields (encodeFields fields) fields := by
  have status_eq : ReadsBack (Reader.lift (HnsaSequenceStateStatus.ofTag fields.status.tag)) []
      fields.status := fun rest =>
    Reader.lift_eq_ok_iff.mpr ⟨HnsaSequenceStateStatus.ofTag_eq_ok_iff.mpr rfl, rfl⟩
  have count_lt : fields.endpoints.length < 256 ^ 1 :=
    Nat.lt_of_le_of_lt valid.endpoints_le (by decide)
  have endpoints_eq := (canonical_endpoints none fields.endpoints.length).read_write
    ⟨@rfl _ fields.endpoints.length, valid.endpoints⟩
  rw [encodeFields, encodeSlot_eq, List.append_assoc]
  apply ((Canonical.octets _ 4).read_write valid.magic_length).bind
  apply ((canonical_number 8).read_write valid.generation_lt).bind
  apply ((canonical_number 8).read_write valid.resourceGeneration_lt).bind
  apply (readsBack_status fields.status).bind
  rw [← List.nil_append (leOctets 1 _ ++ _)]
  apply status_eq.bind
  apply (readsBack_presentTag fields.authorization).bind
  apply (readsBack_hash fields.authorityDigest).bind
  apply (readsBack_hash fields.routeKey).bind
  apply (readsBack_sequence valid.authorization).bind
  apply (readsBack_hash (idOf fields.authorization)).bind
  rw [← List.nil_append (leOctets 1 _ ++ _)]
  apply (readsBack_slotOf valid.authorization).bind
  apply ((canonical_number 1).read_write count_lt).bind
  apply ReadsBack.ensure_bind valid.endpoints_le
  exact endpoints_eq.bind_pure

theorem readFields_eq_ok (read : readFields input = .ok (fields, rest)) :
    ValidFields fields ∧ input = encodeFields fields ++ rest := by
  rcases Reader.of_bind_ok read with ⟨magic, afterMagic, magic_eq, read⟩
  rcases Reader.of_bind_ok read with ⟨generation, afterGeneration, generation_eq, read⟩
  rcases Reader.of_bind_ok read with ⟨resourceGeneration, afterResource, resource_eq, read⟩
  rcases Reader.of_bind_ok read with ⟨tag, afterTag, tag_eq, read⟩
  rcases Reader.of_bind_ok read with ⟨status, afterStatus, status_eq, read⟩
  rcases Reader.of_bind_ok read with ⟨present, afterPresent, present_eq, read⟩
  rcases Reader.of_bind_ok read with ⟨authorityDigest, afterDigest, digest_eq, read⟩
  rcases Reader.of_bind_ok read with ⟨routeKey, afterKey, key_eq, read⟩
  rcases Reader.of_bind_ok read with ⟨serial, afterSerial, serial_eq, read⟩
  rcases Reader.of_bind_ok read with ⟨id, afterId, id_eq, read⟩
  rcases Reader.of_bind_ok read with ⟨authorization, afterSlot, slot_eq, read⟩
  rcases Reader.of_bind_ok read with ⟨count, afterCount, count_eq, read⟩
  rcases Reader.of_bind_ok read with ⟨⟨⟩, afterCheck, checked, read⟩
  rcases Reader.of_bind_ok read with ⟨endpoints, afterRows, rows_eq, read⟩
  rcases Reader.pure_eq_ok_iff.mp read with ⟨rfl, rfl⟩
  rcases (Canonical.octets _ 4).write_read magic_eq with ⟨magic_length, rfl⟩
  rcases (canonical_number 8).write_read generation_eq with ⟨generation_lt, rfl⟩
  rcases (canonical_number 8).write_read resource_eq with ⟨resource_lt, rfl⟩
  rcases (canonical_number 1).write_read tag_eq with ⟨-, rfl⟩
  rcases Reader.lift_eq_ok_iff.mp status_eq with ⟨status_made, rfl⟩
  rcases (canonical_number 1).write_read present_eq with ⟨-, rfl⟩
  rcases canonical_hash.write_read digest_eq with ⟨-, rfl⟩
  rcases canonical_hash.write_read key_eq with ⟨-, rfl⟩
  rcases (canonical_number 8).write_read serial_eq with ⟨serial_lt, rfl⟩
  rcases canonical_hash.write_read id_eq with ⟨-, rfl⟩
  rcases Reader.lift_eq_ok_iff.mp slot_eq with ⟨slot_made, rfl⟩
  rcases (canonical_number 1).write_read count_eq with ⟨-, rfl⟩
  rcases Reader.ensure_eq_ok_iff.mp checked with ⟨count_le, rfl⟩
  rcases (canonical_endpoints none count).write_read rows_eq with ⟨⟨rfl, valid⟩, rfl⟩
  rcases (slotOf_eq_ok_iff serial_lt).mp slot_made with ⟨slot_valid, rfl, rfl, rfl⟩
  cases HnsaSequenceStateStatus.ofTag_eq_ok_iff.mp status_made
  refine ⟨⟨magic_length, generation_lt, resource_lt, slot_valid, count_le, valid⟩, ?_⟩
  simp [encodeFields, encodeSlot_eq]

theorem length_encodeEndpoint (row : EndpointRow) :
    (encodeEndpoint row).length = hnsaEndpointStateSize := by
  simp [encodeEndpoint, row.1.length_eq, hnsaEndpointStateSize]

theorem length_encodeFields (magic_length : fields.magic.length = 4) :
    (encodeFields fields).length =
      hnsaStateHeaderSize + fields.endpoints.length * hnsaEndpointStateSize := by
  have rows_length : (fields.endpoints.flatMap encodeEndpoint).length =
      fields.endpoints.length * hnsaEndpointStateSize := by
    induction fields.endpoints with
    | nil => simp
    | cons row rows ih =>
      rw [List.flatMap_cons, List.length_append, length_encodeEndpoint, ih, List.length_cons,
        Nat.add_one_mul, Nat.add_comm]
  simp only [encodeFields, List.length_append, length_leOctets, length_encodeSlot, Hash.length_eq,
    magic_length, rows_length, hnsaStateHeaderSize]
  omega

/-- What a stored state has to satisfy. -/
structure Storable (state : HnsaNamedRouteState) : Prop where
  generation_lt : state.generation < 256 ^ 8
  resourceGeneration_lt : state.resourceGeneration < 256 ^ 8
  authorization : ValidSlot state.authorization
  each : ∀ row ∈ state.endpoints.rows, ValidEndpoint row
  authorized : state.authorization = none → state.endpoints.rows = []

theorem Storable.validFields (storable : Storable state) :
    ValidFields state.fields where
  magic_length := rfl
  generation_lt := storable.generation_lt
  resourceGeneration_lt := storable.resourceGeneration_lt
  authorization := storable.authorization
  endpoints_le := state.endpoints.bounded
  endpoints := ⟨state.endpoints.sorted, by simp, storable.each⟩

theorem ofFields_fields (storable : Storable state) (inScope : state.isScoped) :
    ofFields state.fields [] = .ok state := by
  rcases inScope with ⟨generation_ne, resource_ne, digest_ne, key_ne⟩
  have checks : ¬ (state.fields.magic ≠ hnsaNamedRouteStateMagic ∨ state.fields.generation = 0 ∨
      state.fields.resourceGeneration = 0 ∨ state.fields.authorityDigest = .zero ∨
      state.fields.routeKey = .zero ∨ ([] : Octets) ≠ [] ∨
      state.fields.authorization = none ∧ state.fields.endpoints ≠ []) := by
    rintro (magic | generation | resource | digest | key | rest | ⟨absent, rows⟩)
    · exact magic rfl
    · exact generation_ne generation
    · exact resource_ne resource
    · exact digest_ne digest
    · exact key_ne key
    · exact rest rfl
    · exact rows (storable.authorized absent)
  rw [ofFields, if_neg checks, dif_pos ⟨state.endpoints.sorted, state.endpoints.bounded⟩]
  rfl

theorem ofFields_eq_ok (valid : ValidFields fields) (made : ofFields fields rest = .ok state) :
    Storable state ∧ state.isScoped ∧ state.fields = fields ∧ rest = [] := by
  unfold ofFields at made
  split at made
  next => cases made
  next checks =>
    simp only [not_or, not_and, not_not] at checks
    rcases checks with ⟨magic, generation, resource, digest, key, nothing, authorized⟩
    split at made
    next =>
      cases made
      refine ⟨⟨valid.generation_lt, valid.resourceGeneration_lt, valid.authorization,
        valid.endpoints.each, authorized⟩, ⟨generation, resource, digest, key⟩, ?_, nothing⟩
      rcases fields with ⟨fieldsMagic, _, _, _, _, _, _, _⟩
      change fieldsMagic = hnsaNamedRouteStateMagic at magic
      rw [magic]
      rfl
    next => cases made

variable (blake2b256 : Octets → Hash)

/-- The stored form of a state. -/
def stored (state : HnsaNamedRouteState) : Octets :=
  encodeFields state.fields ++
    (blake2b256 (hnsaStateChecksumDomain ++ encodeFields state.fields)).bytes

variable {blake2b256}

theorem encode_eq_ok (inScope : state.isScoped) :
    state.encode blake2b256 = .ok (stored blake2b256 state) := by
  have admitted : ¬ (¬ state.isScoped ∨
      maxHnsaNamedRouteEndpoints < state.endpoints.rows.length) := by
    rintro (unscoped | long)
    · exact unscoped inScope
    · exact absurd state.endpoints.bounded (Nat.not_le.mpr long)
  have length_eq := @length_encodeFields state.fields rfl
  rw [encode, if_neg admitted]
  exact if_neg (not_not.mpr length_eq)

theorem length_stored (state : HnsaNamedRouteState) :
    (stored blake2b256 state).length = hnsaStateHeaderSize +
      state.endpoints.rows.length * hnsaEndpointStateSize + hnsaStateChecksumSize := by
  rw [stored, List.length_append, length_encodeFields rfl, Hash.length_eq]
  rfl

theorem length_stored_le (state : HnsaNamedRouteState) :
    (stored blake2b256 state).length ≤ maxHnsaNamedRouteStateBytes := by
  have bounded : state.endpoints.rows.length * hnsaEndpointStateSize ≤
      maxHnsaNamedRouteEndpoints * hnsaEndpointStateSize :=
    Nat.mul_le_mul_right _ state.endpoints.bounded
  have total : hnsaStateHeaderSize + maxHnsaNamedRouteEndpoints * hnsaEndpointStateSize +
      hnsaStateChecksumSize = maxHnsaNamedRouteStateBytes := by decide
  rw [length_stored, ← total]
  omega

/-- The decoder accepts exactly the stored forms of scoped states. -/
theorem decode_eq_ok_iff :
    decode blake2b256 input = .ok state ↔
      Storable state ∧ state.isScoped ∧ input = stored blake2b256 state := by
  constructor
  · intro decoded
    rw [decode, guard_eq_ok_iff, guard_eq_ok_iff] at decoded
    rcases decoded with ⟨-, -, decoded⟩
    dsimp only at decoded
    rw [guard_eq_ok_iff, not_not] at decoded
    rcases decoded with ⟨checksum_eq, decoded⟩
    rcases of_bind_ok decoded with ⟨⟨fields, rest⟩, read, made⟩
    rcases readFields_eq_ok read with ⟨valid, payload_eq⟩
    rcases ofFields_eq_ok valid made with ⟨storable, inScope, rfl, rfl⟩
    rw [List.append_nil] at payload_eq
    refine ⟨storable, inScope, ?_⟩
    rw [stored, ← payload_eq, checksum_eq, List.take_append_drop]
  · rintro ⟨storable, inScope, rfl⟩
    have length_eq := @length_stored blake2b256 state
    have length_le := @length_stored_le blake2b256 state
    have payload_length : (stored blake2b256 state).length - hnsaStateChecksumSize =
        (encodeFields state.fields).length := by
      rw [length_eq, Nat.add_sub_cancel, length_encodeFields rfl]
      rfl
    have payload_le : hnsaStateHeaderSize ≤ (encodeFields state.fields).length := by
      rw [length_encodeFields rfl]
      exact Nat.le_add_right _ _
    have read := (readFields_readsBack storable.validFields).eq_ok
    rw [decode, guard_eq_ok_iff, guard_eq_ok_iff]
    refine ⟨by omega, by omega, ?_⟩
    dsimp only
    rw [guard_eq_ok_iff, not_not, payload_length, stored, List.take_left, List.drop_left]
    refine ⟨rfl, ?_⟩
    rw [read]
    exact ofFields_fields storable inScope

end HnsDaneEngine.NamedRoute
