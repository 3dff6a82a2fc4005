import HnsDaneEngine.Encoding.Octets
import Mathlib.Tactic.IntervalCases

/-!
# Base32hex without padding

The encoder regroups octets into five-bit digits, with zero bits filling up the
last digit; the decoder regroups the digits into octets and wants the bits that
remain to be zero.  Both carry the pending bits of the last incomplete unit as
a number with a bit count.  When the encoder has `k` bits pending, what has
been written so far ends `8 - k` bits into an octet, so the pending numbers of
encoder and decoder together make up that octet.
-/

namespace HnsDaneEngine.Base32Hex

/-- The digit `0`..`9`, `a`..`v` of a value below 32. -/
def digitChar (value : Nat) : UInt8 :=
  if value < 10 then UInt8.ofNat (48 + value) else UInt8.ofNat (87 + value)

/-- The digits of an octet list, with `bits < 5` bits of `pending` written
before it. -/
def encodeDigits (pending bits : Nat) : Octets → List Nat
  | [] => if bits = 0 then [] else [pending * 2 ^ (5 - bits)]
  | byte :: rest =>
    let value := pending * 256 + byte.toNat
    if bits < 2 then
      value / 2 ^ (bits + 3) :: encodeDigits (value % 2 ^ (bits + 3)) (bits + 3) rest
    else
      value / 2 ^ (bits + 3) :: value / 2 ^ (bits - 2) % 32 ::
        encodeDigits (value % 2 ^ (bits - 2)) (bits - 2) rest

def encode (bytes : Octets) : Octets :=
  (encodeDigits 0 0 bytes).map digitChar

/-- The octet values of a digit list, with `bits < 8` bits of `pending` read
before it. -/
def decodeDigits (pending bits : Nat) : List Nat → Option (List Nat)
  | [] => if bits ≠ 0 ∧ pending ≠ 0 then none else some []
  | digit :: rest =>
    let value := pending * 32 + digit
    if bits < 3 then decodeDigits value (bits + 5) rest
    else
      (decodeDigits (value % 2 ^ (bits - 3)) (bits - 3) rest).map
        (value / 2 ^ (bits - 3) % 256 :: ·)

theorem encodeDigits_lt (bytes : Octets) (pending bits : Nat) (bound : bits < 5)
    (small : pending < 2 ^ bits) : ∀ digit ∈ encodeDigits pending bits bytes, digit < 32 := by
  induction bytes generalizing pending bits with
  | nil =>
    intro digit mem
    unfold encodeDigits at mem
    split at mem
    · simp at mem
    · rw [List.mem_singleton] at mem
      subst mem
      interval_cases bits <;> omega
  | cons byte rest ih =>
    have byteBound : byte.toNat < 256 := byte.toNat_lt
    intro digit mem
    unfold encodeDigits at mem
    simp only at mem
    split at mem
    · rcases List.mem_cons.mp mem with rfl | mem
      · interval_cases bits <;> omega
      · exact ih _ _ (by omega) (Nat.mod_lt _ (by positivity)) digit mem
    · simp only [List.mem_cons] at mem
      rcases mem with rfl | rfl | mem
      · interval_cases bits <;> omega
      · omega
      · exact ih _ _ (by omega) (Nat.mod_lt _ (by positivity)) digit mem

/-- The octet that is partly written and partly pending in the encoder. -/
private def splitOctet (bits read pending : Nat) : List Nat :=
  if bits = 0 then [] else [read * 2 ^ bits + pending]

/-- Digits of the encoder decode to its input.  The decoder has read the first
`8 - bits` bits of the octet whose last `bits` bits are pending in the
encoder. -/
private theorem decodeDigits_encodeDigits_from (bytes : Octets) (bits pending read : Nat)
    (bound : bits < 5) (small : pending < 2 ^ bits) (readSmall : read < 2 ^ ((8 - bits) % 8)) :
    decodeDigits read ((8 - bits) % 8) (encodeDigits pending bits bytes) =
      some (splitOctet bits read pending ++ bytes.map UInt8.toNat) := by
  induction bytes generalizing bits pending read with
  | nil =>
    interval_cases bits
    · rfl
    all_goals
      simp only [encodeDigits, decodeDigits, splitOctet, Nat.reduceSub, Nat.reduceMod,
        Nat.reducePow, Nat.reduceLT, OfNat.ofNat_ne_zero, one_ne_zero, if_false,
        List.map_nil, List.append_nil] at small readSmall ⊢
      rw [if_neg (by omega), Option.map_some, Option.some.injEq, List.cons.injEq]
      exact ⟨by omega, rfl⟩
  | cons byte rest ih =>
    have byteBound : byte.toNat < 256 := byte.toNat_lt
    -- the pending bits of one round are the split octet of the next
    interval_cases bits
    · have tail := ih 3 ((pending * 256 + byte.toNat) % 8)
        (read * 32 + (pending * 256 + byte.toNat) / 8)
      norm_num [encodeDigits, decodeDigits, splitOctet] at small readSmall tail ⊢
      subst small readSmall
      simp only [Nat.zero_mul, Nat.zero_add] at tail ⊢
      rw [tail (by omega) (by omega)]
      simp
      omega
    · have tail := ih 4 ((pending * 256 + byte.toNat) % 16)
        ((read * 32 + (pending * 256 + byte.toNat) / 16) % 16)
      norm_num [encodeDigits, decodeDigits, splitOctet] at small readSmall tail ⊢
      rw [tail (by omega) (by omega)]
      simp
      omega
    · have tail := ih 0 0 0
      norm_num [encodeDigits, decodeDigits, splitOctet, Nat.mod_one] at small readSmall tail ⊢
      rw [tail]
      simp
      omega
    · have tail := ih 1 ((pending * 256 + byte.toNat) % 2)
        ((read * 32 + (pending * 256 + byte.toNat) / 64) % 4 * 32 +
          (pending * 256 + byte.toNat) / 2 % 32)
      norm_num [encodeDigits, decodeDigits, splitOctet] at small readSmall tail ⊢
      rw [tail (by omega) (by omega)]
      simp
      omega
    · have tail := ih 2 ((pending * 256 + byte.toNat) % 4)
        ((read * 32 + (pending * 256 + byte.toNat) / 128) % 2 * 32 +
          (pending * 256 + byte.toNat) / 4 % 32)
      norm_num [encodeDigits, decodeDigits, splitOctet] at small readSmall tail ⊢
      rw [tail (by omega) (by omega)]
      simp
      omega

/-- Decoding the digits of an octet list gives the list back. -/
theorem decodeDigits_encodeDigits (bytes : Octets) :
    decodeDigits 0 0 (encodeDigits 0 0 bytes) = some (bytes.map UInt8.toNat) :=
  decodeDigits_encodeDigits_from bytes 0 0 0 (by simp) (by simp) (by simp)

/-- Equally many digits that decode to the same octets are the same. -/
theorem decodeDigits_inj {digits others : List Nat} {pending other bits : Nat}
    {octets : Octets} (bound : bits < 8) (pendingSmall : pending < 2 ^ bits)
    (otherSmall : other < 2 ^ bits) (small : ∀ digit ∈ digits, digit < 32)
    (othersSmall : ∀ digit ∈ others, digit < 32) (length_eq : digits.length = others.length)
    (decoded : (decodeDigits pending bits digits).map (List.map UInt8.ofNat) = some octets)
    (otherDecoded : (decodeDigits other bits others).map (List.map UInt8.ofNat) = some octets) :
    pending = other ∧ digits = others := by
  induction digits generalizing others pending other bits octets with
  | nil =>
    have others_eq := List.length_eq_zero_iff.mp length_eq.symm
    subst others_eq
    have eq_zero {number : Nat} (number_lt : number < 2 ^ bits)
        (left : (decodeDigits number bits []).map (List.map UInt8.ofNat) = some octets) :
        number = 0 := by
      by_contra nonzero
      have some_bits : bits ≠ 0 := by
        rintro rfl
        exact nonzero (Nat.lt_one_iff.mp number_lt)
      rw [decodeDigits, if_pos ⟨some_bits, nonzero⟩] at left
      cases left
    constructor
    · rw [eq_zero pendingSmall decoded, eq_zero otherSmall otherDecoded]
    · rfl
  | cons digit digits ih =>
    rcases List.exists_cons_of_length_eq_add_one length_eq.symm with ⟨otherDigit, others, rfl⟩
    rw [List.forall_mem_cons] at small othersSmall
    rw [List.length_cons, List.length_cons, Nat.add_right_cancel_iff] at length_eq
    rw [decodeDigits] at decoded otherDecoded
    have value_lt : pending * 32 + digit < 2 ^ (bits + 5) := by
      rw [Nat.pow_add]
      omega
    have other_lt : other * 32 + otherDigit < 2 ^ (bits + 5) := by
      rw [Nat.pow_add]
      omega
    have value_eq : pending * 32 + digit = other * 32 + otherDigit ∧ digits = others := by
      by_cases short : bits < 3
      · rw [if_pos short] at decoded otherDecoded
        exact ih (by omega) value_lt other_lt small.2 othersSmall.2 length_eq decoded otherDecoded
      rw [if_neg short, Option.map_map, Option.map_eq_some_iff] at decoded otherDecoded
      rcases decoded with ⟨later, later_eq, rfl⟩
      rcases otherDecoded with ⟨otherLater, otherLater_eq, octets_eq⟩
      simp only [Function.comp_apply, List.map_cons, List.cons.injEq] at octets_eq
      have rest_eq := ih (by omega) (Nat.mod_lt _ (Nat.two_pow_pos (bits - 3)))
        (Nat.mod_lt _ (Nat.two_pow_pos (bits - 3))) small.2 othersSmall.2 length_eq
        (by rw [later_eq, Option.map_some]) (by rw [otherLater_eq, Option.map_some, octets_eq.2])
      have octet_eq := congrArg UInt8.toNat octets_eq.1
      rw [UInt8.toNat_ofNat', UInt8.toNat_ofNat', Nat.mod_mod, Nat.mod_mod] at octet_eq
      have split : 2 ^ (bits + 5) = 2 ^ (bits - 3) * 256 := by
        rw [show 256 = 2 ^ 8 by rfl, ← Nat.pow_add]
        congr 1
        omega
      rw [split] at value_lt other_lt
      rw [Nat.mod_eq_of_lt (Nat.div_lt_of_lt_mul value_lt),
        Nat.mod_eq_of_lt (Nat.div_lt_of_lt_mul other_lt)] at octet_eq
      constructor
      · rw [← Nat.div_add_mod (pending * 32 + digit) (2 ^ (bits - 3)), rest_eq.1, ← octet_eq,
          Nat.div_add_mod]
      · exact rest_eq.2
    rcases value_eq with ⟨sum_eq, rfl⟩
    constructor
    · omega
    · have digit_eq : digit = otherDigit := by omega
      rw [digit_eq]

/-! ## Shift registers

Decoders keep the pending bits in the low bits of a 32-bit register, with or
without clearing the bits above them. -/

/-- A digit is shifted in below the pending bits. -/
theorem toNat_shiftLeft_or (register : UInt32) {value : UInt8} (small : value.toNat < 32) :
    (register <<< 5 ||| value.toUInt32).toNat = register.toNat * 32 % 2 ^ 32 + value.toNat := by
  have kept : (register <<< 5).toNat = (register.toNat % 2 ^ 27) <<< 5 := by
    simp only [UInt32.toNat_shiftLeft, UInt32.reduceToNat, Nat.shiftLeft_eq, Nat.reduceMod,
      Nat.reducePow]
    omega
  have digitBound : value.toNat < 2 ^ 5 := small
  rw [UInt32.toNat_or, kept, UInt8.toNat_toUInt32, ← Nat.shiftLeft_add_eq_or_of_lt digitBound,
    Nat.shiftLeft_eq]
  omega

theorem toNat_shiftRight_toUInt8 (register : UInt32) (bits : Nat) (bound : bits < 8) :
    (register >>> UInt32.ofNat bits).toUInt8.toNat =
      register.toNat % 2 ^ (bits + 8) / 2 ^ bits := by
  interval_cases bits <;>
    simp [UInt32.toNat_shiftRight, Nat.shiftRight_eq_div_pow] <;> omega

theorem toNat_and_mask (register : UInt32) (bits : Nat) (bound : bits < 8) :
    (register &&& ((1 <<< UInt32.ofNat bits) - 1)).toNat = register.toNat % 2 ^ bits := by
  have mask : ((1 <<< UInt32.ofNat bits) - 1 : UInt32).toNat = 2 ^ bits - 1 := by
    interval_cases bits <;> decide
  rw [UInt32.toNat_and, mask, Nat.and_two_pow_sub_one_eq_mod]

end HnsDaneEngine.Base32Hex
