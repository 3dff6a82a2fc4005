import HnsDaneEngine.Control.Except
import HnsDaneEngine.Encoding.Buffer
import HnsDaneEngine.Wire.Name
import Mathlib.Data.List.Perm.Subperm

/-!
# Decoding names of a message

`decode_name` reads labels from a position of the message and follows compression
pointers, which have to point backwards.  The labels it collects are within the
bounds of a `Name`, and the uncompressed form of a name is decoded to the name
itself, whatever surrounds it.
-/

namespace HnsDaneEngine.Wire

open Buffer Control

/-- Parser and allocation limits. -/
structure ParseLimits where
  maxMessageLen : Nat
  maxQuestions : Nat
  maxRecords : Nat
  maxRdataLen : Nat
  maxLabelsPerName : Nat
  maxCompressionJumps : Nat

/-- Browser production limits for UDP or length-delimited TCP input. -/
def ParseLimits.browser : ParseLimits where
  maxMessageLen := 65535
  maxQuestions := 4
  maxRecords := 2048
  maxRdataLen := 65535
  maxLabelsPerName := 127
  maxCompressionJumps := 32

/-- Stricter limits for a single-question requester. -/
def ParseLimits.requester : ParseLimits where
  maxMessageLen := 65535
  maxQuestions := 1
  maxRecords := 1024
  maxRdataLen := 16384
  maxLabelsPerName := 127
  maxCompressionJumps := 16

/-- `octets.get(start..stop).ok_or(error)`. -/
def getRange (octets : Octets) (start stop : Nat) (error : Error) : Except Error Octets :=
  match slice octets start stop with
  | some part => .ok part
  | none => .error error

/-- State of the loop of `decode_name`.  The visited positions stand for the
flags of the source, one for each octet of the message. -/
structure NameCursor where
  labels : List Label
  cursor : Nat
  consumedEnd : Option Nat
  jumps : Nat
  expandedLen : Nat
  visited : List Nat

namespace NameCursor

def start (offset : Nat) : NameCursor :=
  ⟨[], offset, none, 0, 1, []⟩

variable (message : Octets) (contiguousEnd : Nat) (limits : ParseLimits)

/-- A compression pointer, with the octet that marks it.  Positions stay below
the length of a message, so that `checked_add` does not fail. -/
def followPointer (state : NameCursor) (length : UInt8) : Except Error NameCursor :=
  let pointerEnd := state.cursor + 2
  if state.consumedEnd.isNone ∧ contiguousEnd < pointerEnd then .error .unexpectedEof
  else
    match message[state.cursor + 1]? with
    | none => .error .unexpectedEof
    | some second =>
      let pointer := (length &&& 0x3f).toNat <<< 8 ||| second.toNat
      if message.length ≤ pointer then .error .pointerOutOfBounds
      else if state.cursor ≤ pointer then .error .forwardPointer
      else if limits.maxCompressionJumps < state.jumps + 1 then .error .compressionJumpLimit
      else
        .ok { state with
          cursor := pointer
          consumedEnd := state.consumedEnd.or (some pointerEnd)
          jumps := state.jumps + 1 }

/-- A label that is not the root, with its length octet. -/
def readLabel (state : NameCursor) (length : UInt8) : Except Error NameCursor :=
  let labelLen := length.toNat
  let labelStart := state.cursor + 1
  let labelEnd := labelStart + labelLen
  if maxLabelLen < labelLen then .error .invalidLabel
  else if state.consumedEnd.isNone ∧ contiguousEnd < labelEnd then .error .unexpectedEof
  else do
    let label ← getRange message labelStart labelEnd .unexpectedEof
    let expandedLen := state.expandedLen + (labelLen + 1)
    if maxWireNameLen < expandedLen ∨ limits.maxLabelsPerName ≤ state.labels.length then
      .error .nameLimit
    else
      .ok { state with
        labels := state.labels ++ [canonicalLabel label]
        cursor := labelEnd
        expandedLen := expandedLen }

end NameCursor

/-- The loop of `decode_name`, which returns the labels and the position after the
contiguous part.  The first number bounds the rounds: every round visits another
octet of the message. -/
def decodeLabels (message : Octets) (contiguousEnd : Nat) (limits : ParseLimits) :
    Nat → NameCursor → Except Error (List Label × Nat)
  | 0, _ => .error .compressionLoop
  | rounds + 1, state =>
    if message.length ≤ state.cursor then .error .pointerOutOfBounds
    else if state.cursor ∈ state.visited then .error .compressionLoop
    else
      match message[state.cursor]? with
      | none => .error .unexpectedEof
      | some length =>
        let state := { state with visited := state.cursor :: state.visited }
        if length &&& 0xc0 = 0xc0 then do
          let next ← state.followPointer message contiguousEnd limits length
          decodeLabels message contiguousEnd limits rounds next
        else if length &&& 0xc0 ≠ 0 then .error .invalidLabel
        else if length = 0 then
          .ok (state.labels, state.consumedEnd.getD (state.cursor + 1))
        else do
          let next ← state.readLabel message contiguousEnd limits length
          decodeLabels message contiguousEnd limits rounds next

/-- The position in a compression pointer. -/
def pointerTarget (high low : UInt8) : Nat :=
  (high &&& 0x3f).toNat <<< 8 ||| low.toNat

theorem getRange_eq_ok_iff {octets part : Octets} {start stop : Nat} {error : Error} :
    getRange octets start stop error = .ok part ↔
      Occurs part octets start ∧ stop = start + part.length := by
  rw [← slice_eq_some_iff, getRange]
  cases slice octets start stop <;> simp

theorem wireLen_append_singleton (labels : List Label) (label : Label) :
    wireLen (labels ++ [label]) = wireLen labels + (label.length + 1) := by
  simp [wireLen, Nat.add_assoc]

theorem wireLen_append_le (front rest : List Label) : wireLen front ≤ wireLen (front ++ rest) := by
  induction front with
  | nil => exact wireLen_pos rest
  | cons label front ih =>
    rw [List.cons_append, wireLen_cons, wireLen_cons]
    omega

/-- The labels so far are within the bounds, and their length is counted. -/
structure NameCursor.Sound (state : NameCursor) (limits : ParseLimits) : Prop where
  valid : ValidLabels state.labels
  expandedLen_eq : state.expandedLen = wireLen state.labels
  count : state.labels.length ≤ limits.maxLabelsPerName

theorem NameCursor.Sound.start (offset : Nat) (limits : ParseLimits) :
    (NameCursor.start offset).Sound limits where
  valid := Name.root.valid
  expandedLen_eq := rfl
  count := Nat.zero_le _

section

variable {message : Octets} {contiguousEnd : Nat} {limits : ParseLimits} {state next : NameCursor}

/-- A pointer is followed backwards, within the limit of jumps; the first one lies
in the contiguous part. -/
theorem NameCursor.followPointer_eq_ok {high : UInt8}
    (followed : state.followPointer message contiguousEnd limits high = .ok next) :
    ∃ low, message[state.cursor + 1]? = some low ∧ pointerTarget high low < state.cursor ∧
      state.jumps + 1 ≤ limits.maxCompressionJumps ∧
      (state.consumedEnd = none → state.cursor + 2 ≤ contiguousEnd) ∧
      next = { state with
        cursor := pointerTarget high low
        consumedEnd := state.consumedEnd.or (some (state.cursor + 2))
        jumps := state.jumps + 1 } := by
  rw [NameCursor.followPointer, guard_eq_ok_iff] at followed
  rcases followed with ⟨within, followed⟩
  split at followed
  next => cases followed
  next low low_eq =>
    dsimp only at followed
    rw [guard_eq_ok_iff, guard_eq_ok_iff, guard_eq_ok_iff] at followed
    rcases followed with ⟨-, backward, few, followed⟩
    refine ⟨low, low_eq, Nat.not_le.mp backward, Nat.not_lt.mp few, ?_,
      (Except.ok.inj followed).symm⟩
    intro open_
    simpa [open_] using within

variable {length : UInt8}

/-- A label is taken up in lower case, within the limits; before the first pointer it lies in the
contiguous part. -/
theorem NameCursor.readLabel_eq_ok
    (read : state.readLabel message contiguousEnd limits length = .ok next) :
    (length.toNat ≤ maxLabelLen ∧ state.expandedLen + (length.toNat + 1) ≤ maxWireNameLen ∧
        state.labels.length < limits.maxLabelsPerName) ∧
      ∃ octets, Occurs octets message (state.cursor + 1) ∧ octets.length = length.toNat ∧
        (state.consumedEnd = none → state.cursor + 1 + length.toNat ≤ contiguousEnd) ∧
        next = { state with
          labels := state.labels ++ [canonicalLabel octets]
          cursor := state.cursor + 1 + length.toNat
          expandedLen := state.expandedLen + (length.toNat + 1) } := by
  rw [NameCursor.readLabel, guard_eq_ok_iff, guard_eq_ok_iff] at read
  rcases read with ⟨short, within, read⟩
  rcases of_bind_ok read with ⟨octets, octets_eq, read⟩
  rcases getRange_eq_ok_iff.mp octets_eq with ⟨occurs, stop_eq⟩
  rw [guard_eq_ok_iff, not_or, Nat.not_lt, Nat.not_le] at read
  refine ⟨⟨Nat.not_lt.mp short, read.1⟩, octets, occurs, by omega, ?_, (Except.ok.inj read.2).symm⟩
  intro open_
  simpa [open_] using within

theorem NameCursor.Sound.visit (sound : state.Sound limits) (visited : List Nat) :
    NameCursor.Sound { state with visited := visited } limits :=
  ⟨sound.valid, sound.expandedLen_eq, sound.count⟩

theorem NameCursor.Sound.followPointer (sound : state.Sound limits)
    (followed : state.followPointer message contiguousEnd limits length = .ok next) :
    next.Sound limits := by
  rcases followPointer_eq_ok followed with ⟨_, -, -, -, -, rfl⟩
  exact ⟨sound.valid, sound.expandedLen_eq, sound.count⟩

theorem NameCursor.Sound.readLabel (sound : state.Sound limits) (nonzero : length ≠ 0)
    (read : state.readLabel message contiguousEnd limits length = .ok next) :
    next.Sound limits := by
  rcases readLabel_eq_ok read with ⟨⟨short, total, count⟩, label, -, label_length, -, rfl⟩
  have length_eq : (canonicalLabel label).length = length.toNat := by
    rw [canonicalLabel_length, label_length]
  have positive : length.toNat ≠ 0 := by
    rw [Ne, ← UInt8.toNat_zero, UInt8.toNat_inj]
    exact nonzero
  have wireLen_eq : wireLen (state.labels ++ [canonicalLabel label]) =
      state.expandedLen + (length.toNat + 1) := by
    rw [wireLen_append_singleton, length_eq, sound.expandedLen_eq]
  refine ⟨⟨?_, ?_, ?_, wireLen_eq ▸ total⟩, wireLen_eq.symm, ?_⟩
  · rw [List.forall_mem_append, List.forall_mem_singleton, Ne, ← List.length_eq_zero_iff, length_eq]
    exact ⟨sound.valid.nonempty, positive⟩
  · rw [List.forall_mem_append, List.forall_mem_singleton, length_eq]
    exact ⟨sound.valid.bounded, short⟩
  · rw [List.forall_mem_append, List.forall_mem_singleton]
    exact ⟨sound.valid.canonical, canonicalLabel_idem label⟩
  · rw [List.length_append, List.length_singleton]
    exact count

/-- The loop returns labels of a name within the limits. -/
theorem decodeLabels_valid {rounds next : Nat} {labels : List Label} (sound : state.Sound limits)
    (decoded : decodeLabels message contiguousEnd limits rounds state = .ok (labels, next)) :
    ValidLabels labels ∧ labels.length ≤ limits.maxLabelsPerName := by
  induction rounds generalizing state with
  | zero => cases decoded
  | succ rounds ih =>
    obtain ⟨-, decoded⟩ := of_guard_ok decoded
    obtain ⟨-, decoded⟩ := of_guard_ok decoded
    split at decoded
    next => cases decoded
    next length _ =>
      have visited := sound.visit (state.cursor :: state.visited)
      dsimp only at decoded
      split at decoded
      next =>
        obtain ⟨nextState, followed, decoded⟩ := of_bind_ok decoded
        exact ih (visited.followPointer followed) decoded
      next =>
        obtain ⟨-, decoded⟩ := of_guard_ok decoded
        split at decoded
        next =>
          obtain ⟨rfl, -⟩ := Prod.mk.inj (Except.ok.inj decoded)
          exact ⟨sound.valid, sound.count⟩
        next nonzero =>
          obtain ⟨nextState, read, decoded⟩ := of_bind_ok decoded
          exact ih (visited.readLabel nonzero read) decoded

end

/-- `decode_name`: the name at an offset, and the position after it. -/
def decodeName (message : Octets) (offset contiguousEnd : Nat) (limits : ParseLimits) :
    Except Error (Name × Nat) :=
  if message.length < contiguousEnd ∨ contiguousEnd ≤ offset then .error .unexpectedEof
  else
    match decoded : decodeLabels message contiguousEnd limits (message.length + 1)
        (.start offset) with
    | .error error => .error error
    | .ok (labels, next) =>
      .ok (⟨labels, (decodeLabels_valid (.start offset limits) decoded).1⟩, next)

section

variable {message : Octets} {offset contiguousEnd : Nat} {limits : ParseLimits} {name : Name}
  {next state : NameCursor}

theorem decodeName_eq_ok_iff {next : Nat} :
    decodeName message offset contiguousEnd limits = .ok (name, next) ↔
      (contiguousEnd ≤ message.length ∧ offset < contiguousEnd) ∧
        decodeLabels message contiguousEnd limits (message.length + 1) (.start offset) =
          .ok (name.labels, next) := by
  rw [decodeName, guard_eq_ok_iff, not_or, Nat.not_lt, Nat.not_le]
  apply and_congr_right
  intro _
  split
  next error decoded => simp [decoded]
  next labels stop decoded => simp [decoded, ← Name.labels_inj]

theorem length_labels_decodeName {next : Nat}
    (decoded : decodeName message offset contiguousEnd limits = .ok (name, next)) :
    name.labels.length ≤ limits.maxLabelsPerName :=
  (decodeLabels_valid (.start offset limits) (decodeName_eq_ok_iff.mp decoded).2).2

/-- The visited positions are different octets of the message. -/
structure NameCursor.Visits (state : NameCursor) (message : Octets) : Prop where
  nodup : state.visited.Nodup
  inside : ∀ position ∈ state.visited, position < message.length

theorem NameCursor.Visits.length_le (visits : state.Visits message) :
    state.visited.length ≤ message.length := by
  have subset : state.visited ⊆ List.range message.length := fun position positionMem =>
    List.mem_range.mpr (visits.inside position positionMem)
  simpa using (visits.nodup.subperm subset).length_le

theorem NameCursor.Visits.visit (visits : state.Visits message)
    (inside : state.cursor < message.length) (fresh : state.cursor ∉ state.visited)
    (visited_eq : next.visited = state.cursor :: state.visited) : next.Visits message := by
  refine ⟨?_, ?_⟩
  · rw [visited_eq]
    exact List.nodup_cons.mpr ⟨fresh, visits.nodup⟩
  · rw [visited_eq]
    exact List.forall_mem_cons.mpr ⟨inside, visits.inside⟩

/-- The rest of a name stands uncompressed at the cursor, and the loop has not
followed a pointer. -/
structure NameCursor.Reads (state : NameCursor) (message : Octets) (contiguousEnd : Nat)
    (limits : ParseLimits) (rest : List Label) : Prop where
  valid : ValidLabels (state.labels ++ rest)
  count : (state.labels ++ rest).length ≤ limits.maxLabelsPerName
  expandedLen_eq : state.expandedLen = wireLen state.labels
  consumedEnd_eq : state.consumedEnd = none
  visited : ∀ position ∈ state.visited, position < state.cursor
  occurs : Occurs (wireOf rest) message state.cursor
  inside : state.cursor + wireLen rest ≤ contiguousEnd

/-- The next label is read. -/
theorem NameCursor.Reads.step {label : Label} {rest : List Label}
    (reads : state.Reads message contiguousEnd limits (label :: rest)) :
    ∃ next, NameCursor.readLabel message contiguousEnd limits
        { state with visited := state.cursor :: state.visited } (UInt8.ofNat label.length) =
          .ok next ∧
      next.Reads message contiguousEnd limits rest ∧ next.labels = state.labels ++ [label] ∧
      next.cursor = state.cursor + 1 + label.length := by
  obtain ⟨valid, count, expandedLen_eq, consumedEnd_eq, visited, occurs, inside⟩ := reads
  have labelMem : label ∈ state.labels ++ label :: rest := by simp
  have bounded := valid.bounded label labelMem
  have front : state.labels ++ label :: rest = (state.labels ++ [label]) ++ rest := by simp
  have wireLen_le : wireLen (state.labels ++ [label]) ≤ maxWireNameLen := by
    have total := valid.wireLen_le
    rw [front] at total
    exact (wireLen_append_le _ rest).trans total
  have fewer : state.labels.length < limits.maxLabelsPerName := by
    rw [List.length_append, List.length_cons] at count
    omega
  rw [wireLen_cons] at inside
  rw [wireOf, List.cons_append] at occurs
  obtain ⟨labelOccurs, restOccurs⟩ := occurs_append_iff.mp (occurs_cons_iff.mp occurs).2
  refine ⟨⟨state.labels ++ [label], state.cursor + 1 + label.length, none, state.jumps,
    wireLen (state.labels ++ [label]), state.cursor :: state.visited⟩, ?_, ?_, rfl, rfl⟩
  · rw [wireLen_append_singleton] at wireLen_le ⊢
    unfold readLabel
    dsimp only
    rw [toNat_ofNat_label bounded, if_neg (Nat.not_lt.mpr bounded), if_neg (by omega),
      getRange_eq_ok_iff.mpr ⟨labelOccurs, rfl⟩, expandedLen_eq, consumedEnd_eq]
    dsimp only [bind, Except.bind]
    rw [if_neg (by omega), valid.canonical label labelMem]
  · refine ⟨front ▸ valid, front ▸ count, rfl, rfl, ?_, restOccurs, by dsimp only; omega⟩
    intro position positionMem
    dsimp only
    rcases List.mem_cons.mp positionMem with rfl | earlier
    · omega
    · have before := visited position earlier
      omega

/-- The loop reads the rest of the name to its end. -/
theorem decodeLabels_of_reads {rounds : Nat} {rest : List Label}
    (reads : state.Reads message contiguousEnd limits rest) (enough : rest.length < rounds) :
    decodeLabels message contiguousEnd limits rounds state =
      .ok (state.labels ++ rest, state.cursor + wireLen rest) := by
  induction rest generalizing rounds state with
  | nil =>
    obtain ⟨rounds, rfl⟩ := Nat.exists_eq_succ_of_ne_zero (Nat.ne_zero_of_lt enough)
    have fits := reads.occurs.length_le
    rw [length_wireOf, wireLen_nil] at fits
    have zero_eq : message[state.cursor]? = some 0 := reads.occurs.getElem?
    rw [decodeLabels, if_neg (by omega),
      if_neg (fun mem => Nat.lt_irrefl _ (reads.visited _ mem)), zero_eq]
    simp [reads.consumedEnd_eq]
  | cons label rest ih =>
    obtain ⟨rounds, rfl⟩ := Nat.exists_eq_succ_of_ne_zero (Nat.ne_zero_of_lt enough)
    have labelMem : label ∈ state.labels ++ label :: rest := by simp
    have nonempty := reads.valid.nonempty label labelMem
    have bounded := reads.valid.bounded label labelMem
    have high := lengthOctet_high label.length (Nat.lt_succ_of_le bounded)
    have fits := reads.occurs.length_le
    rw [length_wireOf, wireLen_cons] at fits
    have length_eq : message[state.cursor]? = some (UInt8.ofNat label.length) :=
      reads.occurs.getElem?
    obtain ⟨next, next_eq, nextReads, labels_eq, cursor_eq⟩ := reads.step
    rw [decodeLabels, if_neg (by omega),
      if_neg (fun mem => Nat.lt_irrefl _ (reads.visited _ mem)), length_eq]
    dsimp only
    rw [high, if_neg (by decide), if_neg (by decide),
      if_neg (ofNat_label_ne_zero nonempty bounded), next_eq]
    change decodeLabels message contiguousEnd limits rounds next = _
    rw [ih nextReads (by simpa using enough), labels_eq, cursor_eq, wireLen_cons]
    simp only [List.append_assoc, List.singleton_append]
    congr 2
    omega

theorem Name.two_mul_length_lt (name : Name) : 2 * name.labels.length < wireLen name.labels :=
  two_mul_length_lt_wireLen fun label labelMem =>
    ⟨name.valid.nonempty label labelMem, name.valid.bounded label labelMem⟩

/-- The uncompressed form of a name is decoded to the name. -/
theorem decodeName_wireOf (occurs : Occurs (wireOf name.labels) message offset)
    (inside : offset + wireLen name.labels ≤ contiguousEnd)
    (bounded : contiguousEnd ≤ message.length)
    (count : name.labels.length ≤ limits.maxLabelsPerName) :
    decodeName message offset contiguousEnd limits = .ok (name, offset + wireLen name.labels) := by
  have positive := wireLen_pos name.labels
  have few := name.two_mul_length_lt
  rw [decodeName_eq_ok_iff]
  refine ⟨⟨bounded, by omega⟩, ?_⟩
  have reads : (NameCursor.start offset).Reads message contiguousEnd limits name.labels :=
    ⟨name.valid, count, rfl, rfl, by simp [NameCursor.start], occurs, inside⟩
  have enough : name.labels.length < message.length + 1 := by omega
  exact decodeLabels_of_reads reads enough

end

end HnsDaneEngine.Wire
