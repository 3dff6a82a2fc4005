import HnsDaneEngine.Encoding.Buffer
import Mathlib.Data.List.Forall2
import Mathlib.Data.Nat.Bitwise
import Mathlib.Data.Nat.Log
import Mathlib.Tactic.Ring

/-!
# Elements of the distinguished encoding rules

An element is a tag, the octets of a length and as many octets of a value.  Lengths
below 128 stand in one octet; longer ones in as few octets as they need, after an octet
that counts them.  Readers differ in how many length octets they take.

An object identifier is a sequence of numbers, of which the first two share one
subidentifier.  A subidentifier is a number in as few base-128 digits as it needs, all but the
last of them flagged.  Its usual text are the numbers in decimal, with dots between them.
-/

namespace HnsDaneEngine.Der

open Buffer

/-- The number that octets in network order stand for. -/
def natOf (octets : Octets) : Nat :=
  octets.foldl (fun value octet => value * 256 + octet.toNat) 0

theorem flag_eq_zero_iff {octet : UInt8} : octet &&& 0x80 = 0 ↔ octet.toNat < 128 := by
  have bounded := octet.toNat_lt
  rw [← UInt8.toNat_inj, UInt8.toNat_and]
  change octet.toNat &&& 2 ^ 7 = 0 ↔ _
  rw [Nat.and_two_pow, Nat.testBit_eq_decide_div_mod_eq]
  by_cases high : octet.toNat / 2 ^ 7 % 2 = 1
  · simp only [high, decide_true, Bool.toNat_true]
    omega
  · simp only [high, decide_false, Bool.toNat_false]
    omega

/-- The octets give a length, with at most so many octets after the first. -/
inductive IsLength (maxOctets : Nat) : Octets → Nat → Prop
  | short {first : UInt8} (low : first &&& 0x80 = 0) : IsLength maxOctets [first] first.toNat
  | long {first leading : UInt8} {rest : Octets} (high : first &&& 0x80 ≠ 0)
      (count : (leading :: rest).length = (first &&& 0x7f).toNat)
      (bounded : (leading :: rest).length ≤ maxOctets) (nonzero : leading ≠ 0)
      (large : 128 ≤ natOf (leading :: rest)) :
      IsLength maxOctets (first :: leading :: rest) (natOf (leading :: rest))

/-- The octets are one element. -/
def IsElement (maxOctets : Nat) (tag : UInt8) (value full : Octets) : Prop :=
  ∃ lengthOctets, IsLength maxOctets lengthOctets value.length ∧
    full = tag :: (lengthOctets ++ value)

theorem IsLength.mono {fewer more length : Nat} {octets : Octets}
    (isLength : IsLength fewer octets length) (le : fewer ≤ more) :
    IsLength more octets length := by
  cases isLength with
  | short low => exact .short low
  | long high count bounded nonzero large =>
    exact .long high count (bounded.trans le) nonzero large

variable {tag : UInt8} {value : Octets} {maxOctets : Nat}

theorem IsElement.mono {fewer more : Nat} {full : Octets}
    (element : IsElement fewer tag value full) (le : fewer ≤ more) :
    IsElement more tag value full := by
  rcases element with ⟨lengthOctets, isLength, full_eq⟩
  exact ⟨lengthOctets, isLength.mono le, full_eq⟩

theorem IsLength.length_pos {length : Nat} {octets : Octets}
    (isLength : IsLength maxOctets octets length) : 0 < octets.length := by
  cases isLength <;> simp

theorem IsElement.two_le {full : Octets} (element : IsElement maxOctets tag value full) :
    2 ≤ full.length := by
  rcases element with ⟨lengthOctets, isLength, rfl⟩
  have positive := isLength.length_pos
  simp only [List.length_cons, List.length_append]
  omega

/-- The element of a short value. -/
def shortElement (tag : UInt8) (value : Octets) : Octets :=
  tag :: UInt8.ofNat value.length :: value

theorem isElement_shortElement (short : value.length < 128) :
    IsElement maxOctets tag value (shortElement tag value) := by
  have length_eq : (UInt8.ofNat value.length).toNat = value.length := by
    rw [UInt8.toNat_ofNat']
    omega
  refine ⟨[UInt8.ofNat value.length], ?_, rfl⟩
  have isLength : IsLength maxOctets [UInt8.ofNat value.length]
      (UInt8.ofNat value.length).toNat :=
    .short (flag_eq_zero_iff.mpr (by omega))
  rwa [length_eq] at isLength

/-- The number that octets stand for as base-128 digits, after the digits of a number. -/
def base128From (value : Nat) (octets : Octets) : Nat :=
  octets.foldl (fun value octet => value * 128 + (octet &&& 0x7f).toNat) value

theorem toNat_digit (octet : UInt8) : (octet &&& 0x7f).toNat = octet.toNat % 128 := by
  rw [UInt8.toNat_and]
  exact Nat.and_two_pow_sub_one_eq_mod octet.toNat 7

/-- The octets are the subidentifier of a number. -/
structure IsSubidentifier (flagged : Octets) (last : UInt8) (value : Nat) : Prop where
  flags : ∀ octet ∈ flagged, octet &&& 0x80 ≠ 0
  last_flag : last &&& 0x80 = 0
  short : flagged.head? ≠ some 0x80
  value_eq : base128From 0 (flagged ++ [last]) = value

/-- The first number is at most two, and the second one fits beside it. -/
structure ObjectIdentifier where
  root : Nat
  branch : Nat
  arcs : List Nat
  root_le : root ≤ 2
  branch_lt : root < 2 → branch < 40

variable (identifier : ObjectIdentifier)

namespace ObjectIdentifier

def numbers : List Nat :=
  identifier.root :: identifier.branch :: identifier.arcs

/-- The subidentifier that the first two numbers share. -/
def leading : Nat :=
  40 * identifier.root + identifier.branch

/-- The octets are the subidentifiers of the identifier. -/
def IsEncoded (content : Octets) : Prop :=
  ∃ (flagged : Octets) (last : UInt8) (rest : List Octets),
    IsSubidentifier flagged last identifier.leading ∧ List.Forall₂
        (fun arc octets => ∃ flagged last, octets = flagged ++ [last] ∧ IsSubidentifier flagged last arc)
        identifier.arcs rest ∧
      content = flagged ++ last :: rest.flatten

end ObjectIdentifier

/-- Numbers in decimal with dots between them. -/
def dotted (numbers : List Nat) : String :=
  ".".intercalate (numbers.map toString)

theorem toDigits_injective : Function.Injective (Nat.toDigits 10) := by
  intro first second same
  rw [← @Nat.ofDigitChars_ten_toDigits first, same, Nat.ofDigitChars_ten_toDigits]

theorem toList_dotted (numbers : List Nat) :
    (dotted numbers).toList = ['.'].intercalate (numbers.map (Nat.toDigits 10)) := by
  rw [dotted, String.toList_intercalate, List.map_map]
  congr 1
  apply List.map_congr_left
  intro number _
  simp

/-- The text shows the numbers. -/
theorem dotted_inj {first second : List Nat} (firstSome : first ≠ []) (secondSome : second ≠ []) :
    dotted first = dotted second ↔ first = second := by
  constructor
  · intro same
    have texts := congrArg String.toList same
    rw [toList_dotted, toList_dotted] at texts
    have no_dot (numbers : List Nat) : ∀ digits ∈ numbers.map (Nat.toDigits 10), '.' ∉ digits := by
      intro digits mem dot
      rcases List.mem_map.mp mem with ⟨number, -, rfl⟩
      exact absurd (Nat.isDigit_of_mem_toDigits (by decide) (by decide) dot) (by decide)
    have split := congrArg (List.splitOn '.') texts
    rw [List.splitOn_intercalate '.' (no_dot first) (by simpa using firstSome),
      List.splitOn_intercalate '.' (no_dot second) (by simpa using secondSome)] at split
    exact List.map_injective_iff.mpr toDigits_injective split
  · rintro rfl
    rfl

theorem base128From_eq (value : Nat) (octets : Octets) :
    base128From value octets = value * 128 ^ octets.length + base128From 0 octets := by
  induction octets generalizing value with
  | nil => simp [base128From]
  | cons octet octets ih =>
    change base128From (value * 128 + (octet &&& 0x7f).toNat) octets = _ +
      base128From (0 * 128 + (octet &&& 0x7f).toNat) octets
    rw [ih, ih (0 * 128 + (octet &&& 0x7f).toNat), List.length_cons, Nat.pow_succ']
    ring

theorem base128From_lt (octets : Octets) : base128From 0 octets < 128 ^ octets.length := by
  induction octets with
  | nil => simp [base128From]
  | cons octet octets ih =>
    have digit : (octet &&& 0x7f).toNat < 128 := by
      rw [toNat_digit]
      exact Nat.mod_lt _ (by decide)
    change base128From (0 * 128 + (octet &&& 0x7f).toNat) octets < _
    rw [base128From_eq, List.length_cons, Nat.pow_succ', Nat.zero_mul, Nat.zero_add]
    have bound : (octet &&& 0x7f).toNat * 128 ^ octets.length ≤ 127 * 128 ^ octets.length :=
      Nat.mul_le_mul_right _ (Nat.le_of_lt_succ digit)
    omega

namespace IsSubidentifier

variable {flagged : Octets} {first last : UInt8} {value : Nat}

/-- A number below 128 is its only octet. -/
theorem single (isSubidentifier : IsSubidentifier [] last value) :
    value = last.toNat ∧ value < 128 := by
  have small := flag_eq_zero_iff.mp isSubidentifier.last_flag
  have value_eq := isSubidentifier.value_eq
  simp only [base128From, List.nil_append, List.foldl_cons, List.foldl_nil, toNat_digit] at value_eq
  omega

theorem first_high (isSubidentifier : IsSubidentifier (first :: flagged) last value) :
    128 ≤ first.toNat := by
  apply Nat.le_of_not_lt
  intro low
  exact isSubidentifier.flags first List.mem_cons_self (flag_eq_zero_iff.mpr low)

/-- The octets after the first are the digits after the leading one. -/
theorem tail (isSubidentifier : IsSubidentifier (first :: flagged) last value) :
    128 ≤ value ∧ base128From 0 (flagged ++ [last]) = value % 128 ^ Nat.log 128 value := by
  have value_eq := isSubidentifier.value_eq
  have high := isSubidentifier.first_high
  have nonzero : first.toNat ≠ 128 := by
    intro equal
    apply isSubidentifier.short
    rw [List.head?_cons, Option.some.injEq]
    exact UInt8.toNat_inj.mp equal
  have bounded := first.toNat_lt
  have digit_pos : 0 < (first &&& 0x7f).toNat := by
    rw [toNat_digit]
    omega
  have digit_lt : (first &&& 0x7f).toNat < 128 := by
    rw [toNat_digit]
    exact Nat.mod_lt _ (by decide)
  have rest_lt := base128From_lt (flagged ++ [last])
  change base128From (0 * 128 + (first &&& 0x7f).toNat) (flagged ++ [last]) = value at value_eq
  rw [base128From_eq, Nat.zero_mul, Nat.zero_add] at value_eq
  have length_eq : (flagged ++ [last]).length = flagged.length + 1 := List.length_append
  have log_eq : Nat.log 128 value = (flagged ++ [last]).length := by
    rw [Nat.log_eq_iff (.inl (by omega))]
    constructor
    · have le := Nat.mul_le_mul_right (128 ^ (flagged ++ [last]).length) digit_pos
      omega
    · have le := Nat.mul_le_mul_right (128 ^ (flagged ++ [last]).length)
        (Nat.le_of_lt_succ digit_lt)
      rw [Nat.pow_succ']
      omega
  constructor
  · have power : 128 ≤ 128 ^ (flagged ++ [last]).length := by
      rw [length_eq]
      exact Nat.le_self_pow (Nat.succ_ne_zero _) 128
    have le := Nat.mul_le_mul_right (128 ^ (flagged ++ [last]).length) digit_pos
    omega
  · rw [log_eq, ← value_eq, Nat.mul_add_mod_of_lt rest_lt]

end IsSubidentifier

end HnsDaneEngine.Der
