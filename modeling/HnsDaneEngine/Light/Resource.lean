import HnsDaneEngine.Control.Simulation
import HnsDaneEngine.Encoding.Codec
import HnsDaneEngine.Wire.Name

/-!
# Name resources of the light chain

The strict decoder for the resource that a name commits to.  Compressed names may only
point back to places where a name was read before.  The size limit and the covenant
crate's own check of a resource are parameters.
-/

namespace HnsDaneEngine.Light

open Codec Control Wire

def maxResourceNameLabels : Nat := 127

def maxResourceNameJumps : Nat := 16

/-- The errors of `LightChainError` that the resource decoder can give. -/
inductive ResourceDecodeError (CovenantError : Type)
  | covenant (error : CovenantError)
  | resourceTooLarge (length : Nat)
  | unsupportedResourceVersion
  | unknownResourceRecord (kind : UInt8)
  | resourceTruncated
  | resourceNameCompressionLoop
  | invalidResourceNamePointer
  | resourceNameJumpLimit
  | invalidResourceName

/-- Labels of a name as they stand in the resource, leaf first. -/
structure ResourceName where
  labels : List Label

/-- The data of a DS record. -/
structure DelegationSigner where
  keyTag : UInt16
  algorithm : UInt8
  digestType : UInt8
  digest : Octets

/-- Addresses are their octets. -/
inductive HnsResourceRecord
  | ds (signer : DelegationSigner)
  | ns (name : ResourceName)
  | glue4 (name : ResourceName) (address : Octets)
  | glue6 (name : ResourceName) (address : Octets)
  | synth4 (address : Octets)
  | synth6 (address : Octets)
  | txt (strings : List Octets)

/-- The records of a name. -/
structure HnsResource where
  raw : Octets
  records : List HnsResourceRecord

/-- The position in the input and the places where a name may be continued. -/
structure ResourceReader where
  position : Nat
  knownNameOffsets : List Nat

section

variable {CovenantError : Type} (input : Octets)

/-- Readers of a resource. -/
abbrev ResourceRead (CovenantError α : Type) : Type :=
  StateT ResourceReader (Except (ResourceDecodeError CovenantError)) α

namespace ResourceReader

/-- The octets from the position on, for arrays and for counted octets alike. -/
def readBytes (length : Nat) : ResourceRead CovenantError Octets := fun reader =>
  if input.length < reader.position + length then .error .resourceTruncated
  else .ok ((input.drop reader.position).take length,
    { reader with position := reader.position + length })

def readU8 : ResourceRead CovenantError UInt8 := fun reader =>
  match input[reader.position]? with
  | none => .error .resourceTruncated
  | some byte => .ok (byte, { reader with position := reader.position + 1 })

def readU16Be : ResourceRead CovenantError UInt16 := do
  let bytes ← readBytes input 2
  pure (UInt16.ofNat (leNumber bytes.reverse))

def readLengthPrefixedBytes : ResourceRead CovenantError Octets := do
  let length ← readU8 input
  readBytes input length.toNat

/-- The loop of `read_name`, as the labels, the position after the name and the places
known from then on.  The first argument bounds the number of rounds. -/
def readNameFrom : Nat → Nat → Option Nat → List Label → Nat → Nat → List Nat → List Nat →
    Except (ResourceDecodeError CovenantError) (List Label × Nat × List Nat)
  | 0, _, _, _, _, _, _, _ => .error .resourceNameJumpLimit
  | rounds + 1, cursor, resume, labels, expandedWireLength, jumps, visited, known =>
    if cursor ∈ visited then .error .resourceNameCompressionLoop
    else
      match input[cursor]? with
      | none => .error .resourceTruncated
      | some length =>
        if length &&& 0xc0 = 0xc0 then
          match input[cursor + 1]? with
          | none => .error .resourceTruncated
          | some next =>
            let target := (length &&& 0x3f).toNat <<< 8 ||| next.toNat
            if cursor ≤ target ∨ target ∉ known then .error .invalidResourceNamePointer
            else if maxResourceNameJumps < jumps + 1 then .error .resourceNameJumpLimit
            else
              readNameFrom rounds target (resume.or (some (cursor + 2))) labels
                expandedWireLength (jumps + 1) (visited ++ [cursor]) known
        else if length &&& 0xc0 ≠ 0 then .error .invalidResourceName
        else if length = 0 then
          .ok (labels, resume.getD (cursor + 1), known ++ [cursor])
        else if 63 < length.toNat ∨ maxResourceNameLabels ≤ labels.length then
          .error .invalidResourceName
        else if 255 < expandedWireLength + (length.toNat + 1) then .error .invalidResourceName
        else if input.length < cursor + 1 + length.toNat then .error .resourceTruncated
        else
          readNameFrom rounds (cursor + 1 + length.toNat) resume
            (labels ++ [(input.drop (cursor + 1)).take length.toNat])
            (expandedWireLength + (length.toNat + 1)) jumps (visited ++ [cursor])
            (known ++ [cursor])

/-- Rounds that are enough: each adds a label, follows a pointer or ends the name. -/
def maxNameRounds : Nat := maxResourceNameLabels + maxResourceNameJumps + 1

def readName : ResourceRead CovenantError ResourceName := fun reader =>
  match readNameFrom input maxNameRounds reader.position none [] 1 0 []
      reader.knownNameOffsets with
  | .error error => .error error
  | .ok (labels, position, knownNameOffsets) => .ok (⟨labels⟩, ⟨position, knownNameOffsets⟩)

/-- The strings of a text record. -/
def readStrings : Nat → ResourceRead CovenantError (List Octets)
  | 0 => pure []
  | count + 1 => do
    let text ← readLengthPrefixedBytes input
    let texts ← readStrings count
    pure (text :: texts)

end ResourceReader

open ResourceReader in
/-- One record of an assigned kind. -/
def readResourceRecord (kind : UInt8) : ResourceRead CovenantError HnsResourceRecord :=
  match kind.toNat with
  | 0 => do
    let keyTag ← readU16Be input
    let algorithm ← readU8 input
    let digestType ← readU8 input
    let digest ← readLengthPrefixedBytes input
    pure (.ds { keyTag, algorithm, digestType, digest })
  | 1 => do
    let name ← readName input
    pure (.ns name)
  | 2 => do
    let name ← readName input
    let address ← readBytes input 4
    pure (.glue4 name address)
  | 3 => do
    let name ← readName input
    let address ← readBytes input 16
    pure (.glue6 name address)
  | 4 => do
    let address ← readBytes input 4
    pure (.synth4 address)
  | 5 => do
    let address ← readBytes input 16
    pure (.synth6 address)
  | 6 => do
    let count ← readU8 input
    let strings ← readStrings input count.toNat
    pure (.txt strings)
  | _ => fun _ => .error (.unknownResourceRecord kind)

open ResourceReader in
/-- One round of the record loop: the kind, the record. -/
def readNextRecord (state : ResourceReader × List HnsResourceRecord) :
    Except (ResourceDecodeError CovenantError) (ResourceReader × List HnsResourceRecord) := do
  let (kind, reader) ← readU8 input state.1
  let (record, reader) ← readResourceRecord input kind reader
  .ok (reader, state.2 ++ [record])

end

/-- Decode all records and refuse unknown kinds.  `newCovenantResource` stands for the
check of the covenant crate. -/
def HnsResource.decode {CovenantError : Type} (maxResourceSize : Nat)
    (newCovenantResource : Octets → Except CovenantError Unit) (raw : Octets) :
    Except (ResourceDecodeError CovenantError) HnsResource :=
  if maxResourceSize < raw.length then .error (.resourceTooLarge raw.length)
  else
    match (ResourceReader.readU8 raw : ResourceRead CovenantError UInt8) ⟨0, []⟩ with
    | .error error => .error error
    | .ok (version, reader) =>
      if version ≠ 0 then .error .unsupportedResourceVersion
      else
        match repeatUntil (fun state => decide (state.1.position = raw.length))
            (readNextRecord raw) .resourceTruncated raw.length (reader, []) with
        | .error error => .error error
        | .ok (_, records) =>
          match newCovenantResource raw with
          | .error error => .error (.covenant error)
          | .ok () => .ok { raw, records }

section

variable {CovenantError : Type} {input : Octets}

namespace ResourceReader

/-- More rounds than enough make no difference to a name. -/
theorem readNameFrom_of_enough (rounds more cursor : Nat) (resume : Option Nat)
    (labels : List Label) (expandedWireLength jumps : Nat) (visited known : List Nat)
    (short : labels.length ≤ maxResourceNameLabels) (followed : jumps ≤ maxResourceNameJumps)
    (enough : maxResourceNameLabels - labels.length + (maxResourceNameJumps - jumps) + 1 ≤
      rounds) :
    (readNameFrom input (rounds + more) cursor resume labels expandedWireLength jumps visited
        known : Except (ResourceDecodeError CovenantError) _) =
      readNameFrom input rounds cursor resume labels expandedWireLength jumps visited known := by
  induction rounds generalizing cursor resume labels expandedWireLength jumps visited known with
  | zero => omega
  | succ rounds ih =>
    rw [Nat.add_right_comm]
    unfold readNameFrom
    by_cases seen : cursor ∈ visited
    · rw [if_pos seen, if_pos seen]
    rw [if_neg seen, if_neg seen]
    cases input[cursor]? with
    | none => rfl
    | some length =>
      dsimp only
      by_cases isPointer : length &&& 0xc0 = 0xc0
      · rw [if_pos isPointer, if_pos isPointer]
        cases input[cursor + 1]? with
        | none => rfl
        | some next =>
          dsimp only
          split
          next => rfl
          next =>
            split
            next => rfl
            next inside =>
              exact ih _ _ _ _ _ _ _ short (Nat.not_lt.mp inside) (by omega)
      · rw [if_neg isPointer, if_neg isPointer]
        split
        next => rfl
        next =>
          split
          next => rfl
          next =>
            split
            next => rfl
            next room =>
              split
              next => rfl
              next =>
                split
                next => rfl
                next =>
                  have grown : ∀ label : Label, (labels ++ [label]).length =
                      labels.length + 1 := fun _ => by simp
                  have more_room := (not_or.mp room).2
                  exact ih _ _ _ _ _ _ _ (by rw [grown]; omega) followed (by rw [grown]; omega)

/-- A name ends after its start, inside of the input. -/
theorem readNameFrom_position {rounds cursor : Nat} {resume : Option Nat}
    {labels parsed : List Label}
    {expandedWireLength jumps position : Nat} {visited known known' : List Nat}
    (read : (readNameFrom input rounds cursor resume labels expandedWireLength jumps visited
      known : Except (ResourceDecodeError CovenantError) _) = .ok (parsed, position, known')) :
    (∀ resumed, resume = some resumed → position = resumed) ∧
      (resume = none → cursor < position ∧ position ≤ input.length) := by
  induction rounds generalizing cursor resume labels expandedWireLength jumps visited known with
  | zero => cases read
  | succ rounds ih =>
    unfold readNameFrom at read
    obtain ⟨-, read⟩ := of_guard_ok read
    cases at_cursor : input[cursor]? with
    | none =>
      rw [at_cursor] at read
      cases read
    | some length =>
      have inside := (List.getElem?_eq_some_iff.mp at_cursor).1
      simp only [at_cursor] at read
      split at read
      next =>
        cases after : input[cursor + 1]? with
        | none =>
          rw [after] at read
          cases read
        | some next =>
          have nextInside := (List.getElem?_eq_some_iff.mp after).1
          simp only [after] at read
          obtain ⟨-, read⟩ := of_guard_ok read
          obtain ⟨-, read⟩ := of_guard_ok read
          obtain ⟨resumed, -⟩ := ih read
          constructor
          · rintro _ rfl
            exact resumed _ rfl
          · rintro rfl
            have position_eq := resumed (cursor + 2) rfl
            omega
      next =>
        obtain ⟨-, read⟩ := of_guard_ok read
        split at read
        next =>
          obtain ⟨rfl, rfl, rfl⟩ := by simpa using read
          constructor
          · rintro _ rfl
            rfl
          · rintro rfl
            exact ⟨Nat.lt_succ_self _, inside⟩
        next =>
          obtain ⟨-, read⟩ := of_guard_ok read
          obtain ⟨-, read⟩ := of_guard_ok read
          obtain ⟨-, read⟩ := of_guard_ok read
          obtain ⟨resumed, stopped⟩ := ih read
          refine ⟨resumed, fun fresh => ?_⟩
          obtain ⟨later, bounded⟩ := stopped fresh
          exact ⟨by omega, bounded⟩

/-- A reader moves forward, inside of the input. -/
def MovesForward {α : Type} (input : Octets) (read : ResourceRead CovenantError α) : Prop :=
  Moves (fun before after => Forward input.length before.position after.position) read

theorem MovesForward.pure {α : Type} (value : α) :
    MovesForward input (pure value : ResourceRead CovenantError α) :=
  Moves.pure (fun reader => Forward.refl input.length reader.position) value

theorem MovesForward.bind {α β : Type} {first : ResourceRead CovenantError α}
    {next : α → ResourceRead CovenantError β} (forward : MovesForward input first)
    (continue_ : ∀ value, MovesForward input (next value)) :
    MovesForward input (first >>= next) :=
  Moves.bind (fun first second third
    (left : Forward input.length first.position second.position)
    (right : Forward input.length second.position third.position) => left.trans right)
    forward continue_

theorem readBytes_forward (length : Nat) :
    MovesForward input (readBytes input length : ResourceRead CovenantError _) := by
  intro reader _ _ read inside
  obtain ⟨fits, read⟩ := of_guard_ok read
  cases read
  exact ⟨Nat.le_add_right _ _, Nat.not_lt.mp fits⟩

theorem readU8_position {reader after : ResourceReader} {byte : UInt8}
    (read : (readU8 input : ResourceRead CovenantError UInt8) reader = .ok (byte, after)) :
    after.position = reader.position + 1 ∧ after.position ≤ input.length := by
  unfold readU8 at read
  split at read
  next => cases read
  next found =>
    cases read
    exact ⟨rfl, (List.getElem?_eq_some_iff.mp found).1⟩

theorem readU8_forward : MovesForward input (readU8 input : ResourceRead CovenantError _) := by
  intro reader _ _ read _
  obtain ⟨position_eq, inside⟩ := readU8_position read
  exact ⟨by omega, inside⟩

theorem readLengthPrefixedBytes_forward :
    MovesForward input (readLengthPrefixedBytes input : ResourceRead CovenantError _) :=
  readU8_forward.bind fun _ => readBytes_forward _

theorem readName_forward : MovesForward input (readName input : ResourceRead CovenantError _) := by
  intro reader _ _ read _
  unfold readName at read
  split at read
  next => cases read
  next labels position known name_eq =>
    cases read
    obtain ⟨later, bounded⟩ := (readNameFrom_position name_eq).2 rfl
    exact ⟨later.le, bounded⟩

theorem readStrings_forward (count : Nat) :
    MovesForward input (readStrings input count : ResourceRead CovenantError _) := by
  induction count with
  | zero => exact MovesForward.pure []
  | succ count ih =>
    exact readLengthPrefixedBytes_forward.bind fun _ => ih.bind fun _ => MovesForward.pure _

theorem readResourceRecord_forward (kind : UInt8) :
    MovesForward input (readResourceRecord input kind : ResourceRead CovenantError _) := by
  unfold readResourceRecord
  split
  · exact ((readBytes_forward 2).bind fun _ => MovesForward.pure _).bind fun _ =>
      readU8_forward.bind fun _ => readU8_forward.bind fun _ =>
        readLengthPrefixedBytes_forward.bind fun _ => MovesForward.pure _
  · exact readName_forward.bind fun _ => MovesForward.pure _
  · exact readName_forward.bind fun _ => (readBytes_forward 4).bind fun _ => MovesForward.pure _
  · exact readName_forward.bind fun _ => (readBytes_forward 16).bind fun _ => MovesForward.pure _
  · exact (readBytes_forward 4).bind fun _ => MovesForward.pure _
  · exact (readBytes_forward 16).bind fun _ => MovesForward.pure _
  · exact readU8_forward.bind fun _ => (readStrings_forward _).bind fun _ => MovesForward.pure _
  · exact fun _ _ _ failed => nomatch failed

/-- Every round of the record loop leaves less of the input. -/
theorem readNextRecord_progress {state after : ResourceReader × List HnsResourceRecord}
    (read : (readNextRecord input state : Except (ResourceDecodeError CovenantError) _) =
      .ok after) :
    after.1.position ≤ input.length ∧
      input.length - after.1.position < input.length - state.1.position := by
  obtain ⟨⟨kind, middle⟩, kindRead, rest⟩ := of_bind_ok read
  obtain ⟨⟨record, final⟩, recordRead, returned⟩ := of_bind_ok rest
  obtain rfl := Except.ok.inj returned
  obtain ⟨position_eq, middleInside⟩ := readU8_position kindRead
  obtain ⟨later, finalInside⟩ := readResourceRecord_forward kind recordRead middleInside
  refine ⟨finalInside, ?_⟩
  dsimp only
  omega

end ResourceReader

/-- As many rounds as octets are enough for all records. -/
theorem readRecords_of_enough {reader : ResourceReader} {records : List HnsResourceRecord}
    (inside : reader.position ≤ input.length) {rounds : Nat}
    (enough : input.length - reader.position < rounds) (more : Nat) :
    repeatUntil (fun state => decide (state.1.position = input.length)) (readNextRecord input)
        (.resourceTruncated : ResourceDecodeError CovenantError) (rounds + more)
        (reader, records) =
      repeatUntil (fun state => decide (state.1.position = input.length)) (readNextRecord input)
        .resourceTruncated rounds (reader, records) := by
  have progress : ∀ state after : ResourceReader × List HnsResourceRecord,
      state.1.position ≤ input.length → decide (state.1.position = input.length) = false →
      (readNextRecord input state : Except (ResourceDecodeError CovenantError) _) = .ok after →
      after.1.position ≤ input.length ∧
        input.length - after.1.position < input.length - state.1.position :=
    fun _ _ _ _ read => ResourceReader.readNextRecord_progress read
  exact repeatUntil_of_enough progress inside enough more

end

end HnsDaneEngine.Light
