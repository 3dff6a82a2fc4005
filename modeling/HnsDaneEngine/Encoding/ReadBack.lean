import HnsDaneEngine.Encoding.Codec

/-!
# Reading back

What a reader returns for octets that were written, whatever follows them.  Readers of
several fields read back the concatenation of what was written for each.
-/

namespace HnsDaneEngine.Codec

variable {ε : Type} {α : Type} {β : Type}

/-- The reader returns the value and leaves what follows the octets. -/
def ReadsBack (read : Reader ε α) (octets : Octets) (value : α) : Prop :=
  ∀ rest, read (octets ++ rest) = .ok (value, rest)

variable {count : Nat}

namespace ReadsBack

variable {read : Reader ε α} {write : α → Octets}

theorem of_lossless (lossless : Lossless read write) (value : α) :
    ReadsBack read (write value) value :=
  lossless.read_write value

theorem pure (value : α) : ReadsBack (Pure.pure value : Reader ε α) [] value :=
  fun _ => rfl

/-- One field before others. -/
theorem bind {first : Reader ε α} {next : α → Reader ε β} {octets later : Octets}
    {value : α} {result : β} (front : ReadsBack first octets value)
    (back : ReadsBack (next value) later result) :
    ReadsBack (first >>= next) (octets ++ later) result := by
  intro rest
  rw [List.append_assoc, Reader.bind_of_ok (front _)]
  exact back rest

/-- The last field, and a value made of it. -/
theorem bind_pure {first : Reader ε α} {make : α → β} {octets : Octets} {value : α}
    (front : ReadsBack first octets value) :
    ReadsBack (first >>= fun value => Pure.pure (make value)) octets (make value) := by
  have read := @bind _ _ _ first (fun value => Pure.pure (make value)) _ _ _ _ front
    (pure (make value))
  rwa [List.append_nil] at read

/-- A check that holds reads nothing. -/
theorem ensure_bind {condition : Prop} [Decidable condition] {error : ε}
    {next : Unit → Reader ε β} {octets : Octets} {result : β} (holds : condition)
    (back : ReadsBack (next ()) octets result) :
    ReadsBack (Reader.ensure condition error >>= next) octets result := by
  intro rest
  rw [Reader.bind_of_ok (Reader.ensure_of_holds holds error _)]
  exact back rest

theorem octets (error : ε) (octets : Octets) (length_eq : octets.length = count) :
    ReadsBack (readOctets error count) octets octets := by
  subst length_eq
  exact readOctets_append error octets

/-- A number that fits into a width. -/
theorem le (error : ε) {width number : Nat} (fits : number < 256 ^ width) :
    ReadsBack (readLe error width id) (leOctets width number) number := by
  have number_eq : id (leNumber (leOctets width number)) = number := leNumber_leOctets fits
  have read := @bind_pure _ _ _ _ (fun octets => id (leNumber octets)) _ _
    (octets error (leOctets width number) (length_leOctets width number))
  rwa [number_eq] at read

theorem many {values : List α} (each : ∀ value ∈ values, ReadsBack read (write value) value) :
    ReadsBack (readMany read values.length) (values.flatMap write) values := by
  induction values with
  | nil => exact pure []
  | cons value values ih =>
    rw [List.length_cons, readMany, List.flatMap_cons]
    exact (each value List.mem_cons_self).bind
      (ih fun other mem => each other (List.mem_cons_of_mem value mem)).bind_pure

/-- Nothing follows. -/
theorem eq_ok {octets : Octets} {value : α} (readsBack : ReadsBack read octets value) :
    read octets = .ok (value, []) := by
  have read := readsBack []
  rwa [List.append_nil] at read

end ReadsBack

/-- The reader accepts what is written for valid values, and nothing else. -/
structure Canonical (read : Reader ε α) (write : α → Octets) (valid : α → Prop) : Prop where
  read_write : ∀ {value}, valid value → ReadsBack read (write value) value
  write_read : ∀ {input value rest}, read input = .ok (value, rest) →
    valid value ∧ input = write value ++ rest

theorem Canonical.le (error : ε) (width : Nat) :
    Canonical (readLe error width id) (leOctets width) fun number => number < 256 ^ width where
  read_write fits := ReadsBack.le error fits
  write_read := by
    intro input number rest read
    rcases Reader.of_bind_ok read with ⟨octets, middle, octetsRead, returned⟩
    rcases Reader.pure_eq_ok_iff.mp returned with ⟨rfl, rfl⟩
    rcases readOctets_eq_ok octetsRead with ⟨rfl, rfl⟩
    exact ⟨leNumber_lt octets, by rw [id_eq, leOctets_leNumber]⟩

theorem Canonical.octets (error : ε) (count : Nat) :
    Canonical (readOctets error count) id fun octets => octets.length = count where
  read_write length_eq := ReadsBack.octets error _ length_eq
  write_read read := ⟨(readOctets_eq_ok read).2, (readOctets_eq_ok read).1⟩

theorem length_take_of_not_lt {input : Octets}
    (enough : ¬ input.length < count) : (input.take count).length = count := by
  rw [List.length_take]
  omega

/-- The next `count` octets as a value that carries their number. -/
def readExactly (error : ε) (count : Nat)
    (make : (octets : Octets) → octets.length = count → α) : Reader ε α := fun input =>
  if short : input.length < count then .error error
  else .ok (make (input.take count) (length_take_of_not_lt short), input.drop count)

theorem ReadsBack.exactly (error : ε)
    (make : (octets : Octets) → octets.length = count → α) (octets : Octets)
    (length_eq : octets.length = count) :
    ReadsBack (readExactly error count make) octets (make octets length_eq) := by
  intro rest
  subst length_eq
  have enough : ¬ (octets ++ rest).length < octets.length := by
    rw [List.length_append]
    omega
  rw [readExactly, dif_neg enough]
  simp only [List.take_left, List.drop_left]

/-- A type of values that are strings of a fixed number of octets. -/
theorem Canonical.exactly (error : ε)
    {make : (octets : Octets) → octets.length = count → α} {octetsOf : α → Octets}
    (length_eq : ∀ value, (octetsOf value).length = count)
    (make_octets : ∀ value, make (octetsOf value) (length_eq value) = value)
    (octets_make : ∀ octets length_eq, octetsOf (make octets length_eq) = octets) :
    Canonical (readExactly error count make) octetsOf fun _ => True where
  read_write := by
    intro value _
    have read := ReadsBack.exactly error make (octetsOf value) (length_eq value)
    rwa [make_octets] at read
  write_read := by
    intro input value rest read
    unfold readExactly at read
    split at read
    next => cases read
    next =>
      cases read
      exact ⟨trivial, by rw [octets_make, List.take_append_drop]⟩

end HnsDaneEngine.Codec
