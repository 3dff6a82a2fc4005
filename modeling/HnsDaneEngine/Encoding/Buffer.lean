import HnsDaneEngine.Encoding.Frame

/-!
# Reading a buffer at positions

A reader of a buffer moves from position to position, while a writer appends.
The two meet in the parts that occur at a position: a concatenation occurs where
its first part does, with the rest after it, and a slice returns the part that
occurs there.  Numbers in network order are read back from their octets.
-/

namespace HnsDaneEngine.Buffer

universe u

variable {α : Type u}

/-- The items from one position up to another, if the buffer has them. -/
def slice (items : List α) (start stop : Nat) : Option (List α) :=
  if start ≤ stop ∧ stop ≤ items.length then some ((items.drop start).take (stop - start))
  else none

/-- The part occurs in the buffer at the position. -/
def Occurs (part items : List α) (start : Nat) : Prop :=
  ∃ before after, items = before ++ (part ++ after) ∧ before.length = start

theorem occurs_self (items : List α) : Occurs items items 0 :=
  ⟨[], [], by simp, rfl⟩

variable {items : List α} {start : Nat}

theorem occurs_append_iff {first second : List α} :
    Occurs (first ++ second) items start ↔
      Occurs first items start ∧ Occurs second items (start + first.length) := by
  constructor
  · rintro ⟨before, after, rfl, rfl⟩
    refine ⟨⟨before, second ++ after, by simp, rfl⟩, before ++ first, after, by simp, ?_⟩
    rw [List.length_append]
  · rintro ⟨⟨before, after, rfl, rfl⟩, front, rest, items_eq, front_length⟩
    rw [← List.append_assoc] at items_eq
    obtain ⟨rfl, rfl⟩ := List.append_inj items_eq (by rw [List.length_append, front_length])
    exact ⟨before, rest, by simp, rfl⟩

theorem occurs_cons_iff {item : α} {part : List α} :
    Occurs (item :: part) items start ↔
      Occurs [item] items start ∧ Occurs part items (start + 1) := by
  rw [← List.singleton_append, occurs_append_iff, List.length_singleton]

section

variable {part : List α}

theorem Occurs.length_le (occurs : Occurs part items start) :
    start + part.length ≤ items.length := by
  obtain ⟨before, after, rfl, rfl⟩ := occurs
  simp only [List.length_append]
  omega

theorem Occurs.take_drop (occurs : Occurs part items start) :
    (items.drop start).take part.length = part := by
  obtain ⟨before, after, rfl, rfl⟩ := occurs
  rw [List.drop_left, List.take_left]

theorem Occurs.slice (occurs : Occurs part items start) :
    slice items start (start + part.length) = some part := by
  rw [Buffer.slice, if_pos ⟨Nat.le_add_right _ _, occurs.length_le⟩, Nat.add_sub_cancel_left,
    occurs.take_drop]

/-- A slice that ends where the part ends. -/
theorem Occurs.slice_eq (occurs : Occurs part items start) {stop : Nat}
    (stop_eq : stop = start + part.length) : Buffer.slice items start stop = some part := by
  rw [stop_eq, occurs.slice]

theorem Occurs.getElem? {item : α} (occurs : Occurs (item :: part) items start) :
    items[start]? = some item := by
  obtain ⟨before, after, rfl, rfl⟩ := occurs
  simp

/-- What occurs in a part occurs in the whole. -/
theorem Occurs.trans {inner : List α} {position : Nat} (inside : Occurs inner part position)
    (occurs : Occurs part items start) : Occurs inner items (start + position) := by
  obtain ⟨front, back, rfl, rfl⟩ := inside
  obtain ⟨before, after, rfl, rfl⟩ := occurs
  exact ⟨before ++ front, back ++ after, by simp, List.length_append⟩

end

theorem occurs_take_drop {count : Nat} (inside : start + count ≤ items.length) :
    Occurs ((items.drop start).take count) items start := by
  refine ⟨items.take start, items.drop (start + count), ?_, List.length_take_of_le (by omega)⟩
  rw [← List.drop_drop, List.take_append_drop, List.take_append_drop]

theorem slice_eq_some_iff {part : List α} {stop : Nat} :
    slice items start stop = some part ↔ Occurs part items start ∧ stop = start + part.length := by
  constructor
  · intro found
    unfold slice at found
    split at found
    next bounds =>
      obtain rfl := Option.some.inj found
      refine ⟨occurs_take_drop (by omega), ?_⟩
      rw [List.length_take, List.length_drop]
      omega
    next => cases found
  · rintro ⟨occurs, stop_eq⟩
    exact occurs.slice_eq stop_eq

theorem occurs_singleton_iff {item : α} :
    Occurs [item] items start ↔ items[start]? = some item := by
  refine ⟨Occurs.getElem?, fun found => ?_⟩
  rcases List.getElem?_eq_some_iff.mp found with ⟨inside, rfl⟩
  refine ⟨items.take start, items.drop (start + 1), ?_, List.length_take_of_le inside.le⟩
  rw [List.singleton_append, ← List.drop_eq_getElem_cons, List.take_append_drop]

def u16Of (high low : UInt8) : UInt16 :=
  high.toUInt16 <<< 8 ||| low.toUInt16

def u32Of (first second third fourth : UInt8) : UInt32 :=
  first.toUInt32 <<< 24 ||| second.toUInt32 <<< 16 ||| third.toUInt32 <<< 8 ||| fourth.toUInt32

def u16Octets (value : UInt16) : Octets :=
  Frame.u16 value.toNat

def u32Octets (value : UInt32) : Octets :=
  [(value >>> 24).toUInt8, (value >>> 16).toUInt8, (value >>> 8).toUInt8, value.toUInt8]

@[simp]
theorem length_u16Octets (value : UInt16) : (u16Octets value).length = 2 :=
  rfl

theorem toNat_u16Of (high low : UInt8) : (u16Of high low).toNat = high.toNat * 256 + low.toNat := by
  have highBound := high.toNat_lt
  have lowBound := low.toNat_lt
  have shifted : (high.toUInt16 <<< 8).toNat = high.toNat <<< 8 := by
    rw [UInt16.toNat_shiftLeft, UInt8.toNat_toUInt16, Nat.shiftLeft_eq, Nat.shiftLeft_eq]
    simp only [UInt16.reduceToNat, Nat.reduceMod, Nat.reducePow]
    omega
  rw [u16Of, UInt16.toNat_or, shifted, UInt8.toNat_toUInt16,
    ← Nat.shiftLeft_add_eq_or_of_lt (by omega), Nat.shiftLeft_eq]

/-- A number is read back from its octets. -/
theorem u16Of_u16Octets (value : UInt16) :
    u16Of (UInt8.ofNat (value.toNat / 256)) (UInt8.ofNat (value.toNat % 256)) = value := by
  have bound : value.toNat < 65536 := value.toNat_lt
  apply UInt16.toNat_inj.mp
  rw [toNat_u16Of, Frame.toNat_ofNat_of_lt (by omega), Frame.toNat_ofNat_of_lt (by omega)]
  omega

theorem toNat_u32Of (first second third fourth : UInt8) :
    (u32Of first second third fourth).toNat =
      first.toNat * 2 ^ 24 + second.toNat * 2 ^ 16 + third.toNat * 2 ^ 8 + fourth.toNat := by
  have firstBound := first.toNat_lt
  have secondBound := second.toNat_lt
  have thirdBound := third.toNat_lt
  have fourthBound := fourth.toNat_lt
  -- The octets do not overlap, so that each disjunction is a sum.
  have join (high low bits : Nat) (small : low < 2 ^ bits) :
      high * 2 ^ bits ||| low = high * 2 ^ bits + low := by
    rw [← Nat.shiftLeft_eq, Nat.shiftLeft_add_eq_or_of_lt small]
  have top := join first.toNat (second.toNat * 2 ^ 16) 24 (by omega)
  have middle := join (first.toNat * 2 ^ 8 + second.toNat) (third.toNat * 2 ^ 8) 16 (by omega)
  have bottom := join (first.toNat * 2 ^ 16 + second.toNat * 2 ^ 8 + third.toNat) fourth.toNat 8
    (by omega)
  have first_eq : first.toNat * 2 ^ 24 % 2 ^ 32 = first.toNat * 2 ^ 24 :=
    Nat.mod_eq_of_lt (by omega)
  have second_eq : second.toNat * 2 ^ 16 % 2 ^ 32 = second.toNat * 2 ^ 16 :=
    Nat.mod_eq_of_lt (by omega)
  have third_eq : third.toNat * 2 ^ 8 % 2 ^ 32 = third.toNat * 2 ^ 8 :=
    Nat.mod_eq_of_lt (by omega)
  have middleTop : first.toNat * 2 ^ 24 + second.toNat * 2 ^ 16 =
      (first.toNat * 2 ^ 8 + second.toNat) * 2 ^ 16 := by
    rw [Nat.add_mul, Nat.mul_assoc, ← Nat.pow_add]
  have bottomTop : (first.toNat * 2 ^ 8 + second.toNat) * 2 ^ 16 + third.toNat * 2 ^ 8 =
      (first.toNat * 2 ^ 16 + second.toNat * 2 ^ 8 + third.toNat) * 2 ^ 8 := by
    simp only [Nat.add_mul, Nat.mul_assoc, ← Nat.pow_add]
  simp only [u32Of, UInt32.toNat_or, UInt32.toNat_shiftLeft, UInt8.toNat_toUInt32,
    UInt32.reduceToNat, Nat.reduceMod, Nat.shiftLeft_eq]
  rw [first_eq, second_eq, third_eq, top, middleTop, middle, bottomTop, bottom]

/-- A number is read back from its four octets. -/
theorem u32Of_u32Octets (value : UInt32) :
    u32Of (value >>> 24).toUInt8 (value >>> 16).toUInt8 (value >>> 8).toUInt8 value.toUInt8 =
      value := by
  have bound : value.toNat < 2 ^ 32 := value.toNat_lt
  apply UInt32.toNat_inj.mp
  rw [toNat_u32Of]
  simp only [UInt32.toNat_toUInt8, UInt32.toNat_shiftRight, UInt32.reduceToNat, Nat.reduceMod,
    Nat.shiftRight_eq_div_pow]
  omega

end HnsDaneEngine.Buffer
