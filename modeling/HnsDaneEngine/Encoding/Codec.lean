import HnsDaneEngine.Control.Except
import HnsDaneEngine.Encoding.Octets
import Mathlib.Algebra.GroupWithZero.Nat

/-!
# Lossless codecs

Readers consume octets from the front of their input.  A reader and a writer form a
lossless codec when the reader gets back every written value and leaves what follows
it, and when everything it accepts is what the writer makes of the value: then there
is no second encoding and no slack.  Numbers are written least significant octet
first, at a fixed width.
-/

namespace HnsDaneEngine.Codec

open Control

variable {ε : Type} {α : Type}

/-- A reader fails, or returns a value with the input that is left. -/
abbrev Reader (ε α : Type) : Type :=
  StateT Octets (Except ε) α

variable {input rest : Octets} {value : α} {width : Nat} {write : α → Octets}

/-- The parts of a sequence of readers that succeeds. -/
theorem Reader.of_bind_ok {β : Type} {first : Reader ε α} {next : α → Reader ε β} {result : β}
    (run : (first >>= next) input = .ok (result, rest)) :
    ∃ value middle, first input = .ok (value, middle) ∧
      next value middle = .ok (result, rest) := by
  rcases Control.of_bind_ok run with ⟨⟨value, middle⟩, read, continued⟩
  exact ⟨value, middle, read, continued⟩

theorem Reader.bind_of_ok {β : Type} {first : Reader ε α} {next : α → Reader ε β}
    {middle : Octets} (read : first input = .ok (value, middle)) :
    (first >>= next) input = next value middle := by
  change (first input >>= fun pair => next pair.1 pair.2) = _
  rw [read]
  rfl

theorem Reader.pure_eq_ok_iff {result : α} :
    (pure value : Reader ε α) input = .ok (result, rest) ↔ value = result ∧ input = rest := by
  change Except.ok (value, input) = _ ↔ _
  simp

/-- A computation that reads nothing. -/
def Reader.lift (result : Except ε α) : Reader ε α := fun input =>
  match result with
  | .error error => .error error
  | .ok value => .ok (value, input)

theorem Reader.lift_eq_ok_iff {result : Except ε α} :
    Reader.lift result input = .ok (value, rest) ↔ result = .ok value ∧ input = rest := by
  cases result with
  | error error => simp [Reader.lift]
  | ok returned => simp [Reader.lift]

/-- A check between two reads. -/
def Reader.ensure (condition : Prop) [Decidable condition] (error : ε) : Reader ε Unit :=
  Reader.lift (if condition then .ok () else .error error)

theorem Reader.ensure_eq_ok_iff {condition : Prop} [Decidable condition] {error : ε}
    {value : Unit} :
    Reader.ensure condition error input = .ok (value, rest) ↔ condition ∧ input = rest := by
  rw [Reader.ensure, Reader.lift_eq_ok_iff]
  split
  next holds => simp [holds]
  next fails => simp [fails]

theorem Reader.ensure_of_holds {condition : Prop} [Decidable condition] (holds : condition)
    (error : ε) (input : Octets) :
    Reader.ensure condition error input = .ok ((), input) :=
  Reader.ensure_eq_ok_iff.mpr ⟨holds, rfl⟩

/-- Reading inverts writing, and accepts nothing else. -/
structure Lossless (read : Reader ε α) (write : α → Octets) : Prop where
  read_write : ∀ value rest, read (write value ++ rest) = .ok (value, rest)
  write_read : ∀ {input value rest}, read input = .ok (value, rest) → input = write value ++ rest

/-- The next `count` octets. -/
def readOctets (error : ε) (count : Nat) : Reader ε Octets := fun input =>
  if input.length < count then .error error else .ok (input.take count, input.drop count)

theorem readOctets_append (error : ε) (octets rest : Octets) :
    readOctets error octets.length (octets ++ rest) = .ok (octets, rest) := by
  simp [readOctets]

theorem readOctets_eq_ok {error : ε} {count : Nat} {octets : Octets}
    (read : readOctets error count input = .ok (octets, rest)) :
    input = octets ++ rest ∧ octets.length = count := by
  unfold readOctets at read
  split_ifs at read with short
  cases read
  exact ⟨(List.take_append_drop count input).symm, by rw [List.length_take]; omega⟩

/-- Octets of one width that stand for a value. -/
theorem readOctets_lossless {decode : Octets → α} {encode : α → Octets} (error : ε)
    (length_eq : ∀ value, (encode value).length = width)
    (decode_encode : ∀ value, decode (encode value) = value)
    (encode_decode : ∀ octets, octets.length = width → encode (decode octets) = octets) :
    Lossless (do
      let octets ← readOctets error width
      pure (decode octets)) encode where
  read_write value rest := by
    rw [← length_eq value, Reader.bind_of_ok (readOctets_append error _ rest), decode_encode]
    rfl
  write_read := by
    intro input value rest read
    obtain ⟨octets, middle, octetsRead, returned⟩ := Reader.of_bind_ok read
    obtain ⟨rfl, rfl⟩ := Reader.pure_eq_ok_iff.mp returned
    obtain ⟨rfl, width_eq⟩ := readOctets_eq_ok octetsRead
    rw [encode_decode octets width_eq]

/-- Octets of a number, the least significant first. -/
def leOctets : Nat → Nat → Octets
  | 0, _ => []
  | width + 1, number => UInt8.ofNat number :: leOctets width (number / 256)

def leNumber : Octets → Nat
  | [] => 0
  | octet :: rest => octet.toNat + 256 * leNumber rest

@[simp]
theorem length_leOctets (width number : Nat) : (leOctets width number).length = width := by
  induction width generalizing number with
  | zero => rfl
  | succ width ih => rw [leOctets, List.length_cons, ih]

theorem leNumber_lt (octets : Octets) : leNumber octets < 256 ^ octets.length := by
  induction octets with
  | nil => simp [leNumber]
  | cons octet rest ih =>
    have bound := octet.toNat_lt
    rw [leNumber, List.length_cons, Nat.pow_succ]
    omega

theorem leNumber_leOctets {number : Nat} (fits : number < 256 ^ width) :
    leNumber (leOctets width number) = number := by
  induction width generalizing number with
  | zero =>
    rw [Nat.pow_zero] at fits
    simp only [leOctets, leNumber]
    omega
  | succ width ih =>
    rw [Nat.pow_succ] at fits
    have rest_eq := ih (Nat.div_lt_of_lt_mul (by omega : number < 256 * 256 ^ width))
    have octet_eq : (UInt8.ofNat number).toNat = number % 256 := UInt8.toNat_ofNat'
    rw [leOctets, leNumber, rest_eq, octet_eq]
    omega

theorem leOctets_leNumber (octets : Octets) :
    leOctets octets.length (leNumber octets) = octets := by
  induction octets with
  | nil => rfl
  | cons octet rest ih =>
    have bound := octet.toNat_lt
    have octet_eq : UInt8.ofNat (octet.toNat + 256 * leNumber rest) = octet := by
      apply UInt8.toNat_inj.mp
      rw [UInt8.toNat_ofNat']
      omega
    have rest_eq : (octet.toNat + 256 * leNumber rest) / 256 = leNumber rest := by omega
    rw [leNumber, List.length_cons, leOctets, octet_eq, rest_eq, ih]

/-- A type of numbers that fill a width of octets exactly. -/
structure IsWord (toNat : α → Nat) (ofNat : Nat → α) (width : Nat) : Prop where
  toNat_lt : ∀ value, toNat value < 256 ^ width
  toNat_ofNat : ∀ number, number < 256 ^ width → toNat (ofNat number) = number
  ofNat_toNat : ∀ value, ofNat (toNat value) = value

/-- Read a word, least significant octet first. -/
def readLe (error : ε) (width : Nat) (ofNat : Nat → α) : Reader ε α := do
  let octets ← readOctets error width
  pure (ofNat (leNumber octets))

theorem readLe_lossless {toNat : α → Nat} {ofNat : Nat → α} (error : ε)
    (word : IsWord toNat ofNat width) :
    Lossless (readLe error width ofNat) fun value => leOctets width (toNat value) := by
  apply readOctets_lossless
  · exact fun _ => length_leOctets _ _
  · intro value
    rw [leNumber_leOctets (word.toNat_lt value), word.ofNat_toNat]
  · rintro octets rfl
    rw [word.toNat_ofNat _ (leNumber_lt octets), leOctets_leNumber]

/-- Read a word, most significant octet first. -/
def readBe (error : ε) (width : Nat) (ofNat : Nat → α) : Reader ε α := do
  let octets ← readOctets error width
  pure (ofNat (leNumber octets.reverse))

theorem readBe_lossless {toNat : α → Nat} {ofNat : Nat → α} (error : ε)
    (word : IsWord toNat ofNat width) :
    Lossless (readBe error width ofNat) fun value => (leOctets width (toNat value)).reverse := by
  apply readOctets_lossless
  · intro value
    rw [List.length_reverse, length_leOctets]
  · intro value
    rw [List.reverse_reverse, leNumber_leOctets (word.toNat_lt value), word.ofNat_toNat]
  · rintro octets rfl
    have fits := leNumber_lt octets.reverse
    have octets_eq := leOctets_leNumber octets.reverse
    rw [List.length_reverse] at fits octets_eq
    rw [word.toNat_ofNat _ fits, octets_eq, List.reverse_reverse]

theorem isWord_uint8 : IsWord UInt8.toNat UInt8.ofNat 1 where
  toNat_lt value := value.toNat_lt
  toNat_ofNat _ fits := UInt8.toNat_ofNat_of_lt fits
  ofNat_toNat _ := UInt8.ofNat_toNat

theorem isWord_uint16 : IsWord UInt16.toNat UInt16.ofNat 2 where
  toNat_lt value := value.toNat_lt
  toNat_ofNat _ fits := UInt16.toNat_ofNat_of_lt fits
  ofNat_toNat _ := UInt16.ofNat_toNat

theorem isWord_uint32 : IsWord UInt32.toNat UInt32.ofNat 4 where
  toNat_lt value := value.toNat_lt
  toNat_ofNat _ fits := UInt32.toNat_ofNat_of_lt fits
  ofNat_toNat _ := UInt32.ofNat_toNat

theorem isWord_uint64 : IsWord UInt64.toNat UInt64.ofNat 8 where
  toNat_lt value := value.toNat_lt
  toNat_ofNat _ fits := UInt64.toNat_ofNat_of_lt fits
  ofNat_toNat _ := UInt64.ofNat_toNat

/-- Read a number of values one after another. -/
def readMany (read : Reader ε α) : Nat → Reader ε (List α)
  | 0 => pure []
  | count + 1 => do
    let value ← read
    let values ← readMany read count
    pure (value :: values)

theorem readMany_flatMap {read : Reader ε α} (lossless : Lossless read write) (values : List α)
    (rest : Octets) :
    readMany read values.length (values.flatMap write ++ rest) = .ok (values, rest) := by
  induction values with
  | nil => rfl
  | cons value values ih =>
    rw [List.length_cons, readMany, List.flatMap_cons, List.append_assoc,
      Reader.bind_of_ok (lossless.read_write value _), Reader.bind_of_ok ih]
    rfl

theorem readMany_eq_ok {read : Reader ε α} (lossless : Lossless read write) {count : Nat}
    {values : List α} (readAll : readMany read count input = .ok (values, rest)) :
    values.length = count ∧ input = values.flatMap write ++ rest := by
  induction count generalizing input values with
  | zero =>
    obtain ⟨rfl, rfl⟩ := Reader.pure_eq_ok_iff.mp readAll
    exact ⟨rfl, rfl⟩
  | succ count ih =>
    obtain ⟨value, middle, first, remaining⟩ := Reader.of_bind_ok readAll
    obtain ⟨others, final, others_eq, returned⟩ := Reader.of_bind_ok remaining
    obtain ⟨rfl, rfl⟩ := Reader.pure_eq_ok_iff.mp returned
    obtain ⟨rfl, rfl⟩ := ih others_eq
    refine ⟨rfl, ?_⟩
    rw [lossless.write_read first, List.flatMap_cons, List.append_assoc]

end HnsDaneEngine.Codec
