import HnsDaneEngine.Encoding.Codec

/-!
# Self-delimiting encodings

An encoding of several fields one after another separates exactly what its fields
separate, provided that each field shows its own end.  A writer is judged up to a
key: it delimits the key when two written values with arbitrary remainders are equal
exactly if the keys and the remainders are.  Such writers compose, and a concatenation
of them delimits the tuple of the keys, whatever was left out of every field.
-/

namespace HnsDaneEngine.Delimited

open Codec

universe u v w

variable {α : Type u} {β : Type v} {κ : Type w}

/-- Among the values of a domain, what is written shows the key and where it ends. -/
def Delimits (domain : α → Prop) (write : α → Octets) (key : α → κ) : Prop :=
  ∀ first second firstRest secondRest, domain first → domain second →
    (write first ++ firstRest = write second ++ secondRest ↔
      key first = key second ∧ firstRest = secondRest)

/-- A flag, and the value behind it if there is one. -/
def writeOption (absent present : UInt8) (write : α → Octets) : Option α → Octets
  | none => [absent]
  | some value => present :: write value

namespace Delimits

variable {domain : α → Prop} {write : α → Octets} {key : α → κ}

section

variable (delimits : Delimits domain write key)

include delimits

/-- Without remainders, equal encodings are equal keys. -/
theorem eq_iff {first second : α} (firstIn : domain first) (secondIn : domain second) :
    write first = write second ↔ key first = key second := by
  have framed := delimits first second [] [] firstIn secondIn
  simpa using framed

/-- Writing a part of a larger value. -/
theorem comap {larger : β → Prop} (part : β → α)
    (partIn : ∀ value, larger value → domain (part value)) :
    Delimits larger (fun value => write (part value)) fun value => key (part value) :=
  fun first second firstRest secondRest firstIn secondIn =>
    delimits _ _ firstRest secondRest (partIn first firstIn) (partIn second secondIn)

/-- A key may be replaced by one that separates the same values. -/
theorem of_key {other : α → β} (same : ∀ first second, domain first → domain second →
      (other first = other second ↔ key first = key second)) : Delimits domain write other := by
  intro first second firstRest secondRest firstIn secondIn
  rw [delimits first second firstRest secondRest firstIn secondIn, same first second firstIn secondIn]

/-- A field in front of others. -/
theorem append {later : α → Octets} {laterKey : α → β}
    (laterDelimits : Delimits domain later laterKey) :
    Delimits domain (fun value => write value ++ later value)
      fun value => (key value, laterKey value) := by
  intro first second firstRest secondRest firstIn secondIn
  rw [List.append_assoc, List.append_assoc, delimits first second _ _ firstIn secondIn,
    laterDelimits first second _ _ firstIn secondIn, Prod.mk.injEq, and_assoc]

end

variable {width : Nat}

/-- Encodings of one fixed length. -/
theorem of_length (length_eq : ∀ value, domain value → (write value).length = width)
    (same : ∀ first second, domain first → domain second →
      (write first = write second ↔ key first = key second)) : Delimits domain write key := by
  intro first second firstRest secondRest firstIn secondIn
  rw [← same first second firstIn secondIn]
  constructor
  · intro equal
    exact List.append_inj equal ((length_eq first firstIn).trans (length_eq second secondIn).symm)
  · rintro ⟨written_eq, rfl⟩
    rw [written_eq]

/-- One octet that separates the keys. -/
theorem octet {tag : α → UInt8}
    (same : ∀ first second, tag first = tag second ↔ key first = key second) :
    Delimits domain (fun value => [tag value]) key :=
  of_length (fun _ _ => List.length_singleton) fun first second _ _ => by
    rw [List.singleton_inj, same]

/-- A number in network order at a width that holds it. -/
theorem number (toNat : α → Nat) (fits : ∀ value, domain value → toNat value < 256 ^ width) :
    Delimits domain (fun value => (leOctets width (toNat value)).reverse) toNat := by
  have length_eq : ∀ value, domain value →
      (leOctets width (toNat value)).reverse.length = width := by
    intro value _
    rw [List.length_reverse, length_leOctets]
  refine of_length length_eq fun first second firstIn secondIn => ?_
  rw [List.reverse_inj]
  constructor
  · intro equal
    rw [← leNumber_leOctets (fits first firstIn), equal, leNumber_leOctets (fits second secondIn)]
  · intro equal
    rw [equal]

/-- Octets behind their length. -/
theorem counted {body : α → Octets}
    (fits : ∀ value, domain value → (body value).length < 256 ^ width) :
    Delimits domain (fun value => (leOctets width (body value).length).reverse ++ body value)
      body := by
  intro first second firstRest secondRest firstIn secondIn
  rw [List.append_assoc, List.append_assoc,
    number (fun value => (body value).length) fits first second _ _ firstIn secondIn]
  constructor
  · rintro ⟨length_eq, equal⟩
    exact List.append_inj equal length_eq
  · rintro ⟨body_eq, rest_eq⟩
    exact ⟨congrArg List.length body_eq, by rw [body_eq, rest_eq]⟩

/-- As many encodings as both lists are long. -/
theorem flatMap (delimits : Delimits domain write key) {first second : List α}
    (length_eq : first.length = second.length) (firstIn : ∀ value ∈ first, domain value)
    (secondIn : ∀ value ∈ second, domain value) (firstRest secondRest : Octets) :
    first.flatMap write ++ firstRest = second.flatMap write ++ secondRest ↔
      first.map key = second.map key ∧ firstRest = secondRest := by
  induction first generalizing second with
  | nil =>
    rw [List.length_nil, eq_comm, List.length_eq_zero_iff] at length_eq
    subst length_eq
    simp
  | cons value values ih =>
    cases second with
    | nil => cases length_eq
    | cons other others =>
      rw [List.forall_mem_cons] at firstIn secondIn
      rw [List.flatMap_cons, List.flatMap_cons, List.append_assoc, List.append_assoc,
        delimits value other _ _ firstIn.1 secondIn.1,
        ih (Nat.succ.inj length_eq) firstIn.2 secondIn.2, List.map_cons, List.map_cons,
        List.cons.injEq, and_assoc]

/-- A list behind the number of its items. -/
theorem list {items : α → List β} {itemDomain : β → Prop} {itemWrite : β → Octets}
    {itemKey : β → κ} (itemDelimits : Delimits itemDomain itemWrite itemKey)
    (fits : ∀ value, domain value → (items value).length < 256 ^ width)
    (itemsIn : ∀ value, domain value → ∀ item ∈ items value, itemDomain item) :
    Delimits domain
      (fun value => (leOctets width (items value).length).reverse ++ (items value).flatMap itemWrite)
      fun value => (items value).map itemKey := by
  intro first second firstRest secondRest firstIn secondIn
  rw [List.append_assoc, List.append_assoc,
    number (fun value => (items value).length) fits first second _ _ firstIn secondIn]
  constructor
  · rintro ⟨length_eq, equal⟩
    exact (itemDelimits.flatMap length_eq (itemsIn first firstIn) (itemsIn second secondIn) _ _).mp
      equal
  · rintro ⟨items_eq, rest_eq⟩
    have length_eq : (items first).length = (items second).length := by
      simpa using congrArg List.length items_eq
    exact ⟨length_eq, (itemDelimits.flatMap length_eq (itemsIn first firstIn)
      (itemsIn second secondIn) _ _).mpr ⟨items_eq, rest_eq⟩⟩

/-- An optional value behind a flag. -/
theorem option (delimits : Delimits domain write key) {absent present : UInt8}
    (flags_ne : absent ≠ present) :
    Delimits (fun value? => ∀ value, value? = some value → domain value)
      (writeOption absent present write) fun value? => value?.map key := by
  intro first second firstRest secondRest firstIn secondIn
  cases first with
  | none =>
    cases second with
    | none => simp [writeOption]
    | some other => simp [writeOption, flags_ne]
  | some value =>
    cases second with
    | none => simp [writeOption, flags_ne.symm]
    | some other =>
      have same := delimits value other firstRest secondRest (firstIn value rfl)
        (secondIn other rfl)
      simpa [writeOption] using same

end Delimits

end HnsDaneEngine.Delimited
