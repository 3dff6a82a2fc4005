import HnsDaneEngine.Control.Run
import HnsDaneEngine.Wire.Parse

/-!
# Names with compression pointers

What the octets of a message spell from a position on: labels that follow each
other, and pointers to earlier positions.  `decode_name` comes to its end on every
message, and a name that it returns is the one spelled at its offset, within all
limits.  The typed parsers of record data accept a name only when its contiguous
part lies inside the data.
-/

namespace HnsDaneEngine.Wire

open Buffer Control

/-- The message spells labels from a position on, by way of a number of strictly
backward pointers.  The part that stands there contiguously ends before the last
position: it goes up to the root or to the first pointer. -/
inductive Spells (message : Octets) : Nat → List Label → Nat → Nat → Prop
  | root {position : Nat} (zero : message[position]? = some 0) :
      Spells message position [] 0 (position + 1)
  | label {position jumps stop : Nat} {length : UInt8} {octets : Octets} {rest : List Label}
      (length_eq : message[position]? = some length) (plain : length &&& 0xc0 = 0)
      (nonzero : length ≠ 0) (occurs : Occurs octets message (position + 1))
      (octets_length : octets.length = length.toNat)
      (spells : Spells message (position + 1 + length.toNat) rest jumps stop) :
      Spells message position (canonicalLabel octets :: rest) jumps stop
  | pointer {position jumps stop : Nat} {high low : UInt8} {labels : List Label}
      (high_eq : message[position]? = some high) (marked : high &&& 0xc0 = 0xc0)
      (low_eq : message[position + 1]? = some low)
      (backward : pointerTarget high low < position)
      (spells : Spells message (pointerTarget high low) labels jumps stop) :
      Spells message position labels (jumps + 1) (position + 2)

variable {labels : List Label}

theorem Spells.lt_stop {message : Octets} {position jumps stop : Nat}
    (spells : Spells message position labels jumps stop) : position < stop := by
  induction spells with
  | root _ => exact Nat.lt_succ_self _
  | label _ _ _ _ _ _ ih => exact Nat.lt_of_le_of_lt (by omega) ih
  | pointer _ _ _ _ _ _ => omega

section

variable (message : Octets) (contiguousEnd : Nat) (limits : ParseLimits)

/-- One round of the loop of `decode_name`. -/
def NameCursor.round (state : NameCursor) : Except Error (NameCursor ⊕ (List Label × Nat)) :=
  if message.length ≤ state.cursor then .error .pointerOutOfBounds
  else if state.cursor ∈ state.visited then .error .compressionLoop
  else
    match message[state.cursor]? with
    | none => .error .unexpectedEof
    | some length =>
      let state := { state with visited := state.cursor :: state.visited }
      if length &&& 0xc0 = 0xc0 then
        .inl <$> state.followPointer message contiguousEnd limits length
      else if length &&& 0xc0 ≠ 0 then .error .invalidLabel
      else if length = 0 then
        .ok (.inr (state.labels, state.consumedEnd.getD (state.cursor + 1)))
      else .inl <$> state.readLabel message contiguousEnd limits length

variable {message contiguousEnd limits}

theorem decodeLabels_eq_loopFor (rounds : Nat) (state : NameCursor) :
    decodeLabels message contiguousEnd limits rounds state =
      loopFor (NameCursor.round message contiguousEnd limits) .compressionLoop rounds state := by
  induction rounds generalizing state with
  | zero => rfl
  | succ rounds ih =>
    rw [decodeLabels, loopFor, NameCursor.round]
    split
    next => rfl
    next =>
      split
      next => rfl
      next =>
        cases message[state.cursor]? with
        | none => rfl
        | some length =>
          dsimp only
          split
          next =>
            cases NameCursor.followPointer message contiguousEnd limits
              { state with visited := state.cursor :: state.visited } length with
            | error error => rfl
            | ok next => exact ih next
          next =>
            split
            next => rfl
            next =>
              split
              next => rfl
              next =>
                cases NameCursor.readLabel message contiguousEnd limits
                  { state with visited := state.cursor :: state.visited } length with
                | error error => rfl
                | ok next => exact ih next

variable {state next : NameCursor}

/-- The loop is at a position that it has not visited.  It returns at the root, and goes on after
a pointer or a label. -/
theorem NameCursor.round_eq_ok {outcome : NameCursor ⊕ (List Label × Nat)}
    (returned : state.round message contiguousEnd limits = .ok outcome) :
    (state.cursor < message.length ∧ state.cursor ∉ state.visited) ∧
      ∃ length, message[state.cursor]? = some length ∧
        ((length = 0 ∧ outcome = .inr (state.labels, state.consumedEnd.getD (state.cursor + 1))) ∨
          ∃ next, outcome = .inl next ∧
            ((length &&& 0xc0 = 0xc0 ∧ NameCursor.followPointer message contiguousEnd limits
                { state with visited := state.cursor :: state.visited } length = .ok next) ∨
            ((length &&& 0xc0 = 0 ∧ length ≠ 0) ∧ NameCursor.readLabel message contiguousEnd limits
                { state with visited := state.cursor :: state.visited } length = .ok next))) := by
  rw [NameCursor.round, guard_eq_ok_iff, guard_eq_ok_iff] at returned
  rcases returned with ⟨inside, fresh, returned⟩
  refine ⟨⟨Nat.not_le.mp inside, fresh⟩, ?_⟩
  split at returned
  next => cases returned
  next length length_eq =>
    refine ⟨length, length_eq, ?_⟩
    dsimp only at returned
    split at returned
    next marked =>
      rw [← bind_pure_comp] at returned
      rcases of_bind_ok returned with ⟨next, followed, returned⟩
      exact .inr ⟨next, (Except.ok.inj returned).symm, .inl ⟨marked, followed⟩⟩
    next =>
      rw [guard_eq_ok_iff, not_not] at returned
      rcases returned with ⟨plain, returned⟩
      split at returned
      next zero => exact .inl ⟨zero, (Except.ok.inj returned).symm⟩
      next nonzero =>
        rw [← bind_pure_comp] at returned
        rcases of_bind_ok returned with ⟨next, read, returned⟩
        exact .inr ⟨next, (Except.ok.inj returned).symm, .inr ⟨⟨plain, nonzero⟩, read⟩⟩

/-- A round visits one more octet of the message. -/
theorem NameCursor.Visits.round (visits : state.Visits message)
    (continued : state.round message contiguousEnd limits = .ok (.inl next)) :
    next.Visits message ∧
      message.length - next.visited.length < message.length - state.visited.length := by
  rcases NameCursor.round_eq_ok continued with
    ⟨⟨inside, fresh⟩, length, -, ⟨-, ⟨⟩⟩ | ⟨_, ⟨⟩, cases_⟩⟩
  have visited_eq : next.visited = state.cursor :: state.visited := by
    rcases cases_ with ⟨-, followed⟩ | ⟨-, read⟩
    · rcases NameCursor.followPointer_eq_ok followed with ⟨_, -, -, -, -, rfl⟩
      rfl
    · rcases (NameCursor.readLabel_eq_ok read).2 with ⟨_, -, -, -, rfl⟩
      rfl
  have nextVisits := visits.visit inside fresh visited_eq
  have bound := nextVisits.length_le
  rw [visited_eq, List.length_cons] at bound ⊢
  exact ⟨nextVisits, by omega⟩

/-- The loop comes to its end from the start of every name, and `decodeLabels` has
what it returns. -/
theorem loopReturns_decodeLabels (offset : Nat) :
    LoopReturns (NameCursor.round message contiguousEnd limits) (.start offset)
      (decodeLabels message contiguousEnd limits (message.length + 1) (.start offset)) := by
  rw [decodeLabels_eq_loopFor]
  have decreases (state next : NameCursor) (visits : state.Visits message)
      (continued : state.round message contiguousEnd limits = .ok (.inl next)) :
      next.Visits message ∧
        message.length - next.visited.length < message.length - state.visited.length :=
    visits.round continued
  have start : (NameCursor.start offset).Visits message :=
    ⟨List.nodup_nil, by simp [NameCursor.start]⟩
  exact loopReturns_loopFor decreases start (Nat.lt_succ_of_le (Nat.sub_le _ _))

end

section

variable {message : Octets} {contiguousEnd : Nat} {limits : ParseLimits} {next offset : Nat}
  {name : Name}

/-- The labels that the loop adds are the ones spelled at its cursor. -/
theorem LoopReturns.spells {state : NameCursor}
    (returns : LoopReturns (NameCursor.round message contiguousEnd limits) state
      (.ok (labels, next))) (few : state.jumps ≤ limits.maxCompressionJumps) :
    ∃ rest jumps stop, labels = state.labels ++ rest ∧ Spells message state.cursor rest jumps stop ∧
      state.jumps + jumps ≤ limits.maxCompressionJumps ∧ next = state.consumedEnd.getD stop := by
  generalize outcome_eq : Except.ok (labels, next) = outcome at returns
  induction returns with
  | fails _ => cases outcome_eq
  | returns returned =>
    rcases NameCursor.round_eq_ok returned with ⟨-, _, zero, ⟨rfl, ⟨⟩⟩ | ⟨_, ⟨⟩, -⟩⟩
    rcases Prod.mk.inj (Except.ok.inj outcome_eq) with ⟨rfl, rfl⟩
    exact ⟨[], 0, _, (List.append_nil _).symm, .root zero, few, rfl⟩
  | @continues state found outcome continued _ ih =>
    rcases NameCursor.round_eq_ok continued with
      ⟨-, length, length_eq, ⟨-, ⟨⟩⟩ |
        ⟨_, ⟨⟩, ⟨marked, followed⟩ | ⟨⟨plain, nonzero⟩, read⟩⟩⟩
    · rcases NameCursor.followPointer_eq_ok followed with
        ⟨low, low_eq, backward, fewer, -, rfl⟩
      rcases ih fewer outcome_eq with ⟨rest, jumps, stop, labels_eq, spells, total, next_eq⟩
      refine ⟨rest, jumps + 1, state.cursor + 2, labels_eq,
        .pointer length_eq marked low_eq backward spells, ?_, ?_⟩
      · dsimp only at total
        omega
      · rw [next_eq]
        cases state.consumedEnd <;> rfl
    · rcases (NameCursor.readLabel_eq_ok read).2 with ⟨octets, occurs, octets_length, -, rfl⟩
      rcases ih few outcome_eq with ⟨rest, jumps, stop, labels_eq, spells, total, next_eq⟩
      refine ⟨canonicalLabel octets :: rest, jumps, stop, ?_,
        .label length_eq plain nonzero occurs octets_length spells, total, next_eq⟩
      rw [labels_eq, List.append_assoc, List.singleton_append]

/-- The contiguous part goes at most one octet past its limit: only the root is not
compared with it. -/
theorem LoopReturns.next_le {state : NameCursor}
    (returns : LoopReturns (NameCursor.round message contiguousEnd limits) state
      (.ok (labels, next))) (cursor_le : state.consumedEnd = none → state.cursor ≤ contiguousEnd)
    (consumed_le : ∀ stop, state.consumedEnd = some stop → stop ≤ contiguousEnd) :
    next ≤ contiguousEnd + 1 := by
  generalize outcome_eq : Except.ok (labels, next) = outcome at returns
  induction returns with
  | fails _ => cases outcome_eq
  | @returns state _ returned =>
    rcases NameCursor.round_eq_ok returned with ⟨-, _, -, ⟨-, ⟨⟩⟩ | ⟨_, ⟨⟩, -⟩⟩
    rcases Prod.mk.inj (Except.ok.inj outcome_eq) with ⟨-, rfl⟩
    cases consumed : state.consumedEnd with
    | none => exact Nat.succ_le_succ (cursor_le consumed)
    | some stop => exact Nat.le_succ_of_le (consumed_le stop consumed)
  | @continues state found outcome continued _ ih =>
    rcases NameCursor.round_eq_ok continued with
      ⟨-, length, -, ⟨-, ⟨⟩⟩ | ⟨_, ⟨⟩, ⟨-, followed⟩ | ⟨-, read⟩⟩⟩
    · rcases NameCursor.followPointer_eq_ok followed with ⟨low, -, -, -, within, rfl⟩
      apply ih _ _ outcome_eq
      · intro consumed
        dsimp only at consumed
        rw [Option.or_eq_none_iff] at consumed
        cases consumed.2
      intro stop consumed
      cases before : state.consumedEnd with
      | none =>
        dsimp only at consumed
        rw [before] at consumed
        obtain rfl := Option.some.inj consumed
        exact within before
      | some earlier =>
        dsimp only at consumed
        rw [before] at consumed
        obtain rfl := Option.some.inj consumed
        exact consumed_le earlier before
    · rcases (NameCursor.readLabel_eq_ok read).2 with ⟨octets, -, -, within, rfl⟩
      exact ih within consumed_le outcome_eq

section

variable (decoded : decodeName message offset contiguousEnd limits = .ok (name, next))

include decoded

/-- A decoded name is the one spelled at its offset, with few enough pointers. -/
theorem spells_decodeName :
    ∃ jumps, Spells message offset name.labels jumps next ∧ jumps ≤ limits.maxCompressionJumps := by
  have returns := @loopReturns_decodeLabels message contiguousEnd limits offset
  rw [(decodeName_eq_ok_iff.mp decoded).2] at returns
  rcases LoopReturns.spells returns (Nat.zero_le _) with
    ⟨rest, jumps, stop, labels_eq, spells, few, rfl⟩
  rw [labels_eq]
  exact ⟨jumps, spells, (Nat.zero_add jumps).symm.trans_le few⟩

theorem lt_next_of_decodeName : offset < next := by
  rcases spells_decodeName decoded with ⟨jumps, spells, -⟩
  exact spells.lt_stop

theorem next_le_of_decodeName : next ≤ contiguousEnd + 1 := by
  rcases decodeName_eq_ok_iff.mp decoded with ⟨⟨-, before⟩, labels_eq⟩
  have returns := @loopReturns_decodeLabels message contiguousEnd limits offset
  rw [labels_eq] at returns
  apply LoopReturns.next_le returns
  · intro _
    exact Nat.le_of_lt before
  · intro stop consumed
    cases consumed

end

end

/-- A decoded name with the position of its first octet and the position after its
contiguous part. -/
structure NameSpan where
  name : Name
  first : Nat
  next : Nat

/-- Names decoded one after the other, each from the position where the contiguous
part of the one before it ends. -/
inductive DecodedSpans (message : Octets) (stop : Nat) (limits : ParseLimits) :
    Nat → List NameSpan → Nat → Prop
  | nil (position : Nat) : DecodedSpans message stop limits position [] position
  | cons {position next last : Nat} {name : Name} {spans : List NameSpan}
      (decoded : decodeName message position stop limits = .ok (name, next))
      (rest : DecodedSpans message stop limits next spans last) :
      DecodedSpans message stop limits position (⟨name, position, next⟩ :: spans) last

/-- The number of octets before the first name. -/
def Rdata.namesOffset : Rdata → Nat
  | .mx _ => 2
  | .srv _ => 6
  | .rrsig _ => 18
  | _ => 0

section

variable {message : Octets} {start stop : Nat} {limits : ParseLimits}

/-- The names of the data are decoded in a row, which ends inside the data. -/
def NamesInside (message : Octets) (start stop : Nat) (limits : ParseLimits)
    (rdata : Rdata) : Prop :=
  ∃ spans last, spans.map (·.name) = rdata.names ∧
    DecodedSpans message stop limits (start + rdata.namesOffset) spans last ∧ last ≤ stop

variable {spans : List NameSpan} {rdata : Rdata}

theorem DecodedSpans.le_last {position last : Nat}
    (decoded : DecodedSpans message stop limits position spans last) : position ≤ last := by
  induction decoded with
  | nil position => exact Nat.le_refl position
  | cons decoded _ ih => exact (Nat.le_of_lt (lt_next_of_decodeName decoded)).trans ih

/-- Every contiguous part lies between the two ends of the row. -/
theorem DecodedSpans.inside {position last : Nat}
    (decoded : DecodedSpans message stop limits position spans last) :
    ∀ span ∈ spans, position ≤ span.first ∧ span.next ≤ last := by
  induction decoded with
  | nil _ => simp
  | cons decoded rest ih =>
    rw [List.forall_mem_cons]
    constructor
    · exact ⟨Nat.le_refl _, rest.le_last⟩
    · intro span spanMem
      have later := ih span spanMem
      exact ⟨(Nat.le_of_lt (lt_next_of_decodeName decoded)).trans later.1, later.2⟩

/-- One name, after some octets of the data. -/
theorem namesInside_of_single {name : Name} {next : Nat} (names_eq : rdata.names = [name])
    (decoded : decodeName message (start + rdata.namesOffset) stop limits = .ok (name, next))
    (inside : next ≤ stop) : NamesInside message start stop limits rdata :=
  ⟨[⟨name, start + rdata.namesOffset, next⟩], next, names_eq.symm, .cons decoded (.nil next),
    inside⟩

theorem namesInside_of_none (names_eq : rdata.names = [])
    (inside : start + rdata.namesOffset ≤ stop) : NamesInside message start stop limits rdata :=
  ⟨[], _, names_eq.symm, .nil _, inside⟩

theorem parseExactName_eq_ok_iff {name : Name} :
    parseExactName message start stop limits = .ok name ↔
      decodeName message start stop limits = .ok (name, stop) := by
  rw [parseExactName, bind_eq_ok_iff]
  constructor
  · rintro ⟨⟨found, next⟩, decoded, exact_⟩
    dsimp only at exact_
    rw [guard_eq_ok_iff, not_not] at exact_
    rcases exact_ with ⟨rfl, found_eq⟩
    rw [decoded, Except.ok.inj found_eq]
  · intro decoded
    exact ⟨_, decoded, by simp⟩

theorem namesInside_soa {soa : Soa} (parsed : parseSoa message start stop limits = .ok soa) :
    NamesInside message start stop limits (.soa soa) := by
  rcases of_bind_ok parsed with ⟨⟨mname, middle⟩, first, parsed⟩
  rcases of_bind_ok parsed with ⟨⟨rname, last⟩, second, parsed⟩
  rcases of_bind_ok parsed with ⟨fixed, -, parsed⟩
  rw [guard_eq_ok_iff, not_not] at parsed
  rcases parsed with ⟨fixedEnd, parsed⟩
  rcases of_bind_ok parsed with ⟨serial, -, parsed⟩
  rcases of_bind_ok parsed with ⟨refresh, -, parsed⟩
  rcases of_bind_ok parsed with ⟨retry, -, parsed⟩
  rcases of_bind_ok parsed with ⟨expire, -, parsed⟩
  rcases of_bind_ok parsed with ⟨minimum, -, parsed⟩
  obtain rfl := Except.ok.inj parsed
  exact ⟨_, last, rfl, .cons first (.cons second (.nil last)), by omega⟩

theorem namesInside_mx {mx : Mx} (parsed : parseMx message start stop limits = .ok mx) :
    NamesInside message start stop limits (.mx mx) := by
  rcases of_bind_ok parsed with ⟨raw, -, parsed⟩
  rcases of_bind_ok parsed with ⟨preference, -, parsed⟩
  rcases of_bind_ok parsed with ⟨⟨exchange, next⟩, decoded, parsed⟩
  dsimp only at parsed
  rw [guard_eq_ok_iff, not_not] at parsed
  rcases parsed with ⟨last, found⟩
  obtain rfl := Except.ok.inj found
  exact namesInside_of_single rfl decoded (Nat.le_of_eq last)

theorem namesInside_srv {srv : Srv} (parsed : parseSrv message start stop limits = .ok srv) :
    NamesInside message start stop limits (.srv srv) := by
  rcases of_bind_ok parsed with ⟨raw, -, parsed⟩
  rcases of_bind_ok parsed with ⟨⟨target, next⟩, decoded, parsed⟩
  dsimp only at parsed
  rw [guard_eq_ok_iff, not_not] at parsed
  rcases parsed with ⟨last, parsed⟩
  rcases of_bind_ok parsed with ⟨priority, -, parsed⟩
  rcases of_bind_ok parsed with ⟨weight, -, parsed⟩
  rcases of_bind_ok parsed with ⟨port, -, parsed⟩
  obtain rfl := Except.ok.inj parsed
  exact namesInside_of_single rfl decoded (Nat.le_of_eq last)

/-- The signer ends before the signature, which is not empty. -/
theorem namesInside_rrsig {signature : Rrsig}
    (parsed : parseRrsig message start stop limits = .ok signature) :
    NamesInside message start stop limits (.rrsig signature) := by
  rcases of_bind_ok parsed with ⟨fixed, -, parsed⟩
  rcases of_bind_ok parsed with ⟨⟨signer, next⟩, decoded, parsed⟩
  rcases of_bind_ok parsed with ⟨octets, octets_eq, parsed⟩
  have inside : next ≤ stop := by
    rw [(getRange_eq_ok_iff.mp octets_eq).2]
    exact Nat.le_add_right _ _
  rw [guard_eq_ok_iff] at parsed
  rcases of_bind_ok parsed.2 with ⟨typeCovered, -, parsed⟩
  rcases of_bind_ok parsed with ⟨algorithm, -, parsed⟩
  rcases of_bind_ok parsed with ⟨labels, -, parsed⟩
  rcases of_bind_ok parsed with ⟨originalTtl, -, parsed⟩
  rcases of_bind_ok parsed with ⟨expiration, -, parsed⟩
  rcases of_bind_ok parsed with ⟨inception, -, parsed⟩
  rcases of_bind_ok parsed with ⟨keyTag, -, parsed⟩
  obtain rfl := Except.ok.inj parsed
  exact namesInside_of_single rfl decoded inside

theorem namesInside_nsec {nsec : Nsec} (parsed : parseNsec message start stop limits = .ok nsec) :
    NamesInside message start stop limits (.nsec nsec) := by
  rcases of_bind_ok parsed with ⟨⟨nextDomain, next⟩, decoded, parsed⟩
  rcases of_bind_ok parsed with ⟨bitmap, bitmap_eq, parsed⟩
  rcases of_bind_ok parsed with ⟨⟨⟩, -, parsed⟩
  have inside : next ≤ stop := by
    rw [(getRange_eq_ok_iff.mp bitmap_eq).2]
    exact Nat.le_add_right _ _
  obtain rfl := Except.ok.inj parsed
  exact namesInside_of_single rfl decoded inside

/-- All names of accepted data lie inside it. -/
theorem namesInside_of_parseRdata {recordType : RecordType}
    (parsed : parseRdata message start stop limits recordType = .ok rdata) :
    NamesInside message start stop limits rdata := by
  rcases of_bind_ok parsed with ⟨raw, raw_eq, parsed⟩
  have inside : start ≤ stop := by
    rw [(getRange_eq_ok_iff.mp raw_eq).2]
    exact Nat.le_add_right _ _
  cases recordType with
  | ns | cname =>
    rcases of_bind_ok parsed with ⟨name, name_eq, parsed⟩
    obtain rfl := Except.ok.inj parsed
    exact namesInside_of_single rfl (parseExactName_eq_ok_iff.mp name_eq) (Nat.le_refl _)
  | soa =>
    rcases of_bind_ok parsed with ⟨soa, soa_eq, parsed⟩
    obtain rfl := Except.ok.inj parsed
    exact namesInside_soa soa_eq
  | mx =>
    rcases of_bind_ok parsed with ⟨mx, mx_eq, parsed⟩
    obtain rfl := Except.ok.inj parsed
    exact namesInside_mx mx_eq
  | srv =>
    rcases of_bind_ok parsed with ⟨srv, srv_eq, parsed⟩
    obtain rfl := Except.ok.inj parsed
    exact namesInside_srv srv_eq
  | rrsig =>
    rcases of_bind_ok parsed with ⟨signature, signature_eq, parsed⟩
    obtain rfl := Except.ok.inj parsed
    exact namesInside_rrsig signature_eq
  | nsec =>
    rcases of_bind_ok parsed with ⟨nsec, nsec_eq, parsed⟩
    obtain rfl := Except.ok.inj parsed
    exact namesInside_nsec nsec_eq
  | a | aaaa | txt | ds | dnskey | nsec3 | tlsa | opt =>
    rcases of_bind_ok parsed with ⟨data, -, parsed⟩
    obtain rfl := Except.ok.inj parsed
    exact namesInside_of_none rfl inside
  | svcb | https | unknown _ =>
    obtain rfl := Except.ok.inj parsed
    exact namesInside_of_none rfl inside

end

/-- `decode_name` comes to its end.  A name that it returns is spelled at its offset
in labels of one to 63 lower-case octets, within 255 octets and within the limits, and
its contiguous part ends at most one octet after the given end; in record data that
`parse_rdata` accepts, every octet of the contiguous part lies inside the data. -/
theorem decodeName_spec (message : Octets) (offset contiguousEnd : Nat) (limits : ParseLimits) :
    LoopReturns (NameCursor.round message contiguousEnd limits) (.start offset)
        (decodeLabels message contiguousEnd limits (message.length + 1) (.start offset)) ∧
      (∀ name next, decodeName message offset contiguousEnd limits = .ok (name, next) →
        (∃ jumps, Spells message offset name.labels jumps next ∧
          jumps ≤ limits.maxCompressionJumps) ∧
        (∀ label ∈ name.labels,
          1 ≤ label.length ∧ label.length ≤ 63 ∧ canonicalLabel label = label) ∧
        wireLen name.labels ≤ 255 ∧ name.labels.length ≤ limits.maxLabelsPerName ∧
        offset < next ∧ next ≤ contiguousEnd + 1) ∧
      ∀ start stop recordType rdata,
        parseRdata message start stop limits recordType = .ok rdata →
        ∃ spans last, spans.map (·.name) = rdata.names ∧
          DecodedSpans message stop limits (start + rdata.namesOffset) spans last ∧
          ∀ span ∈ spans, ∀ position, span.first ≤ position → position < span.next →
            start ≤ position ∧ position < stop := by
  refine ⟨loopReturns_decodeLabels offset, ?_, ?_⟩
  · intro name next decoded
    have valid := name.valid
    refine ⟨spells_decodeName decoded, ?_, valid.wireLen_le, length_labels_decodeName decoded,
      lt_next_of_decodeName decoded, next_le_of_decodeName decoded⟩
    intro label labelMem
    have nonempty := valid.nonempty label labelMem
    exact ⟨List.length_pos_iff.mpr nonempty, valid.bounded label labelMem,
      valid.canonical label labelMem⟩
  · intro start stop recordType rdata parsed
    rcases namesInside_of_parseRdata parsed with ⟨spans, last, names_eq, decoded, last_le⟩
    refine ⟨spans, last, names_eq, decoded, ?_⟩
    intro span spanMem position first_le before
    have inside := decoded.inside span spanMem
    omega

/-- A label that a pointer to an earlier name continues. -/
theorem decodeName_spec_pointer :
    let message : Octets := [3, 99, 79, 109, 0, 1, 65, 0xc0, 0]
    let name : Name := ⟨[[97], [99, 111, 109]], by decide⟩
    decodeName message 5 9 .browser = .ok (name, 9) ∧
      ∃ jumps, Spells message 5 name.labels jumps 9 ∧ jumps ≤ 32 := by
  intro message name
  have decoded : decodeName message 5 9 .browser = .ok (name, 9) := rfl
  exact ⟨decoded, ((decodeName_spec message 5 9 .browser).2.1 name 9 decoded).1⟩

end HnsDaneEngine.Wire
