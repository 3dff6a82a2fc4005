import HnsDaneEngine.Encoding.Buffer
import Mathlib.Data.Nat.Bitwise

/-!
# Bits packed into octets

Bits are packed eight to an octet, the least significant first; the last octet is filled up
with zeros.
-/

namespace HnsDaneEngine.Bits

open Buffer

/-- One bit of an octet. -/
def octetBit (octet : UInt8) (index : Nat) : Bool :=
  octet &&& (1 <<< UInt8.ofNat index) ≠ 0

/-- The bits of octets, in their order. -/
def unpack (octets : Octets) : List Bool :=
  octets.flatMap fun octet => (List.range 8).map (octetBit octet)

/-- The number with the given bits. -/
def number : List Bool → Nat
  | [] => 0
  | bit :: bits => bit.toNat + 2 * number bits

/-- The octets that bits are packed into. -/
def pack (bits : List Bool) : Octets :=
  (List.range ((bits.length + 7) / 8)).map fun index =>
    UInt8.ofNat (number ((bits.drop (8 * index)).take 8))

variable (bits : List Bool)

@[simp]
theorem length_pack : (pack bits).length = (bits.length + 7) / 8 := by
  simp [pack]

@[simp]
theorem length_unpack (octets : Octets) : (unpack octets).length = 8 * octets.length := by
  induction octets with
  | nil => rfl
  | cons octet octets ih =>
    rw [unpack, List.flatMap_cons, List.length_append, List.length_map, List.length_range,
      List.length_cons, Nat.mul_succ, Nat.add_comm]
    exact congrArg (· + 8) ih

theorem octetBit_eq_testBit (octet : UInt8) {index : Nat} (small : index < 8) :
    octetBit octet index = octet.toNat.testBit index := by
  have shift : (1 <<< UInt8.ofNat index : UInt8).toNat = 2 ^ index := by
    rw [UInt8.toNat_shiftLeft, UInt8.toNat_ofNat', UInt8.toNat_one, Nat.one_shiftLeft]
    have power : 2 ^ index < 2 ^ 8 := Nat.pow_lt_pow_right (by decide) small
    rw [Nat.mod_eq_of_lt (by omega : index < 2 ^ 8), Nat.mod_eq_of_lt small, Nat.mod_eq_of_lt power]
  have same : octet &&& (1 <<< UInt8.ofNat index) = 0 ↔ octet.toNat &&& 2 ^ index = 0 := by
    rw [← UInt8.toNat_inj, UInt8.toNat_and, shift]
    rfl
  rw [octetBit, Bool.eq_iff_iff, decide_eq_true_eq, ne_eq, same, Nat.and_two_pow]
  have positive := Nat.two_pow_pos index
  cases octet.toNat.testBit index with
  | false => simp
  | true => simp

theorem testBit_number (index : Nat) : (number bits).testBit index = bits[index]?.getD false := by
  induction bits generalizing index with
  | nil => simp [number]
  | cons bit bits ih =>
    cases index with
    | zero => cases bit <;> simp [number, Nat.testBit_zero, Nat.add_mul_mod_self_left]
    | succ index =>
      have half : (bit.toNat + 2 * number bits) / 2 = number bits := by
        cases bit with
        | false => simp
        | true =>
          rw [Bool.toNat_true]
          omega
      rw [number, Nat.testBit_succ, half, ih]
      rfl

theorem number_lt : number bits < 2 ^ bits.length := by
  induction bits with
  | nil => simp [number]
  | cons bit bits ih =>
    rw [number, List.length_cons, Nat.pow_succ]
    cases bit <;> simp <;> omega

theorem getElem?_unpack (octets : Octets) (index : Nat) :
    (unpack octets)[index]? = octets[index / 8]?.map fun octet => octetBit octet (index % 8) := by
  induction octets generalizing index with
  | nil => simp [unpack]
  | cons octet octets ih =>
    have first_length : ((List.range 8).map (octetBit octet)).length = 8 := by simp
    rw [unpack, List.flatMap_cons]
    rcases Nat.lt_or_ge index 8 with low | high
    · rw [List.getElem?_append_left (by omega), Nat.div_eq_of_lt low, Nat.mod_eq_of_lt low]
      simp [low]
    · have quotient : index / 8 = (index - 8) / 8 + 1 := by omega
      have remainder : index % 8 = (index - 8) % 8 := by omega
      rw [List.getElem?_append_right (by omega), first_length, quotient,
        List.getElem?_cons_succ, remainder]
      exact ih (index - 8)

/-- The packed bits are the first ones of the octets. -/
theorem occurs_unpack_pack : Occurs bits (unpack (pack bits)) 0 := by
  have taken : (unpack (pack bits)).take bits.length = bits := by
    apply List.ext_getElem?
    intro index
    rcases Nat.lt_or_ge index bits.length with inside | outside
    · have octet_inside : index / 8 < (bits.length + 7) / 8 := by omega
      have bit_inside : index % 8 < 8 := Nat.mod_lt _ (by decide)
      have bounded : number ((bits.drop (8 * (index / 8))).take 8) < 256 := by
        have lt := number_lt ((bits.drop (8 * (index / 8))).take 8)
        have power : 2 ^ ((bits.drop (8 * (index / 8))).take 8).length ≤ 2 ^ 8 :=
          Nat.pow_le_pow_right (by decide) (List.length_take_le _ _)
        omega
      rw [List.getElem?_take_of_lt inside, getElem?_unpack, pack, List.getElem?_map,
        List.getElem?_range octet_inside, Option.map_some, Option.map_some,
        octetBit_eq_testBit _ bit_inside, UInt8.toNat_ofNat', Nat.mod_eq_of_lt bounded,
        testBit_number, List.getElem?_take_of_lt bit_inside, List.getElem?_drop,
        Nat.div_add_mod, List.getElem?_eq_getElem inside]
      rfl
    · rw [List.getElem?_eq_none outside, List.getElem?_eq_none]
      exact (List.length_take_le _ _).trans outside
  exact ⟨[], (unpack (pack bits)).drop bits.length, by
    rw [List.nil_append]
    conv => lhs; rw [← List.take_append_drop bits.length (unpack (pack bits)), taken], rfl⟩

end HnsDaneEngine.Bits
