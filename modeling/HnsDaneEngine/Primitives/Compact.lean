import HnsDaneEngine.Primitives.Pow
import Mathlib.Data.Nat.Bitwise
import Mathlib.Tactic.Ring

/-!
# Compact targets

A compact word holds an exponent and a mantissa.  Both directions of the conversion are
described by numbers: the exponent of a target is the octet length of its double, which leaves
the sign bit of the mantissa free.  The check of a hash works on octets and differs from the
conversion only where a small exponent shifts the whole mantissa out.
-/

namespace HnsDaneEngine.Primitives

open Codec Control HnsDaneEngine.Order

/-! ## Fields of a compact word -/

def compactExponent (bits : UInt32) : Nat :=
  (bits >>> 24).toNat

def compactMantissa (bits : UInt32) : Nat :=
  (bits &&& 0x007fffff).toNat

def compactValue (exponent mantissa : Nat) : Nat :=
  if exponent ≤ 3 then mantissa >>> (8 * (3 - exponent)) else mantissa <<< (8 * (exponent - 3))

theorem compactExponent_eq (bits : UInt32) : compactExponent bits = bits.toNat / 2 ^ 24 := by
  unfold compactExponent
  rw [UInt32.toNat_shiftRight, Nat.shiftRight_eq_div_pow]
  rfl

theorem compactMantissa_eq (bits : UInt32) : compactMantissa bits = bits.toNat % 2 ^ 23 := by
  unfold compactMantissa
  rw [UInt32.toNat_and]
  exact Nat.and_two_pow_sub_one_eq_mod bits.toNat 23

theorem compactMantissa_lt (bits : UInt32) : compactMantissa bits < 2 ^ 23 := by
  rw [compactMantissa_eq]
  exact Nat.mod_lt _ (Nat.two_pow_pos 23)

variable {bits exponent : UInt32} {target : Target} {number value : Nat}

theorem sign_eq_zero_iff : bits &&& 0x00800000 = 0 ↔ bits.toNat / 2 ^ 23 % 2 = 0 := by
  rw [← UInt32.toNat_inj, UInt32.toNat_and]
  change bits.toNat &&& 2 ^ 23 = 0 ↔ _
  rw [Nat.and_two_pow, Nat.testBit_eq_decide_div_mod_eq]
  simp

theorem compactValue_zero (exponent : Nat) : compactValue exponent 0 = 0 := by
  unfold compactValue
  split
  · exact Nat.zero_shiftRight _
  · exact Nat.zero_shiftLeft _

theorem compactToTarget_eq_ok_iff :
    compactToTarget bits = .ok target ↔
      bits &&& 0x00800000 = 0 ∧ target.value ≠ 0 ∧ target.value < 2 ^ 256 ∧
        target.value = compactValue (compactExponent bits) (compactMantissa bits) := by
  unfold compactToTarget
  change (if _ then _ else if compactMantissa bits = 0 then _ else
    if compactValue (compactExponent bits) (compactMantissa bits) = 0 then _ else
    if 2 ^ 256 ≤ compactValue (compactExponent bits) (compactMantissa bits) then _ else
    Except.ok (Target.mk (compactValue (compactExponent bits) (compactMantissa bits)))) = _ ↔ _
  generalize value_eq : compactValue (compactExponent bits) (compactMantissa bits) = value
  simp only [guard_eq_ok_iff, not_not, not_le]
  constructor
  · rintro ⟨positive, -, nonzero, fits, target_eq⟩
    obtain rfl := Except.ok.inj target_eq
    exact ⟨positive, nonzero, fits, rfl⟩
  · rintro ⟨positive, nonzero, fits, rfl⟩
    refine ⟨positive, ?_, nonzero, fits, rfl⟩
    intro mantissa_eq
    rw [mantissa_eq, compactValue_zero] at value_eq
    exact nonzero value_eq.symm

/-! ## Octet lengths -/

theorem pow_256 (count : Nat) : 256 ^ count = 2 ^ (8 * count) := by
  rw [Nat.pow_mul]

/-- The octet length is the least number of octets that hold the number. -/
theorem octetLength_le_iff {count : Nat} (positive : 0 < number) :
    octetLength number ≤ count ↔ number < 256 ^ count := by
  rw [pow_256, ← Nat.log2_lt (Nat.ne_of_gt positive), octetLength]
  omega

theorem octetLength_mono {first second : Nat} (positive : 0 < first) (le : first ≤ second) :
    octetLength first ≤ octetLength second := by
  rw [octetLength_le_iff positive]
  exact Nat.lt_of_le_of_lt le ((octetLength_le_iff (positive.trans_le le)).mp (Nat.le_refl _))

theorem lt_pow_octetLength (positive : 0 < number) : number < 256 ^ octetLength number :=
  (octetLength_le_iff positive).mp (Nat.le_refl _)

theorem pow_le_of_octetLength {count : Nat} (positive : 0 < number)
    (length_eq : octetLength number = count + 1) : 256 ^ count ≤ number := by
  apply Nat.le_of_not_lt
  intro small
  have bounded := (octetLength_le_iff positive).mpr small
  rw [length_eq] at bounded
  exact Nat.not_succ_le_self count bounded

/-! ## Big-endian numbers -/

/-- Octets as a number, the most significant first. -/
def beNumber (octets : Octets) : Nat :=
  leNumber octets.reverse

theorem leNumber_append (low high : Octets) :
    leNumber (low ++ high) = leNumber low + 256 ^ low.length * leNumber high := by
  induction low with
  | nil => simp [leNumber]
  | cons octet rest ih =>
    rw [List.cons_append, leNumber, leNumber, ih, List.length_cons, Nat.pow_succ]
    ring

theorem beNumber_append (high low : Octets) :
    beNumber (high ++ low) = beNumber high * 256 ^ low.length + beNumber low := by
  unfold beNumber
  rw [List.reverse_append, leNumber_append, List.length_reverse]
  ring

theorem beNumber_cons (octet : UInt8) (rest : Octets) :
    beNumber (octet :: rest) = octet.toNat * 256 ^ rest.length + beNumber rest := by
  rw [← List.singleton_append, beNumber_append]
  simp [beNumber, leNumber]

theorem beNumber_lt (octets : Octets) : beNumber octets < 256 ^ octets.length := by
  have bounded := leNumber_lt octets.reverse
  rw [List.length_reverse] at bounded
  exact bounded

theorem beNumber_replicate (count : Nat) : beNumber (List.replicate count 0) = 0 := by
  induction count with
  | zero => rfl
  | succ count ih =>
    rw [List.replicate_succ, beNumber_cons, ih]
    simp

/-- Octet strings of one length are ordered like their numbers. -/
theorem lt_iff_beNumber_lt {first second : Octets} (length_eq : first.length = second.length) :
    first < second ↔ beNumber first < beNumber second := by
  induction first generalizing second with
  | nil =>
    rw [List.length_nil] at length_eq
    rw [List.eq_nil_of_length_eq_zero length_eq.symm]
    simp
  | cons octet rest ih =>
    cases second with
    | nil => cases length_eq
    | cons other others =>
      have rests_eq : rest.length = others.length := Nat.succ.inj length_eq
      have restFits := beNumber_lt rest
      have othersFit := beNumber_lt others
      rw [beNumber_cons, beNumber_cons, rests_eq, List.cons_lt_cons_iff, ih rests_eq,
        UInt8.lt_iff_toNat_lt, ← UInt8.toNat_inj]
      rw [rests_eq] at restFits
      generalize 256 ^ others.length = unit at restFits othersFit ⊢
      rcases lt_trichotomy octet.toNat other.toNat with less | same | greater
      · have room := Nat.mul_le_mul_right unit (Nat.succ_le_of_lt less)
        rw [Nat.succ_mul] at room
        simp only [less, true_or, true_iff]
        omega
      · simp [same]
      · have room := Nat.mul_le_mul_right unit (Nat.succ_le_of_lt greater)
        rw [Nat.succ_mul] at room
        simp only [Nat.lt_asymm greater, (Nat.ne_of_lt greater).symm, false_and, false_or,
          false_iff]
        omega

theorem bytesCmp_ne_gt_iff {first second : Octets} (length_eq : first.length = second.length) :
    bytesCmp first second ≠ .gt ↔ beNumber first ≤ beNumber second := by
  rw [← Nat.not_lt, ← lt_iff_beNumber_lt length_eq.symm, ne_eq,
    (bytesCmp_compares first second).eq_gt]

/-! ## The check of a hash -/

/-- The check through the conversion: the hash as a number is at most the target. -/
def verifyPowByTarget (hash : Hash) (bits : UInt32) : Except PowError Bool :=
  (Target.fromCompact bits).map fun target => decide (beNumber hash.bytes ≤ target.value)

/-- A nonzero mantissa that a small exponent shifts out. -/
def MantissaVanishes (bits : UInt32) : Prop :=
  bits &&& 0x00800000 = 0 ∧ compactMantissa bits ≠ 0 ∧
    compactValue (compactExponent bits) (compactMantissa bits) = 0

variable (word : UInt32)

theorem toNat_shiftRight_24 : (word >>> 24).toNat = word.toNat / 2 ^ 24 := by
  rw [UInt32.toNat_shiftRight, Nat.shiftRight_eq_div_pow]
  rfl

theorem toNat_shiftRight_16 : (word >>> 16).toNat = word.toNat / 2 ^ 16 := by
  rw [UInt32.toNat_shiftRight, Nat.shiftRight_eq_div_pow]
  rfl

theorem toNat_shiftRight_8 : (word >>> 8).toNat = word.toNat / 2 ^ 8 := by
  rw [UInt32.toNat_shiftRight, Nat.shiftRight_eq_div_pow]
  rfl

theorem beNumber_mantissa {word : UInt32} (small : word.toNat < 2 ^ 24) :
    beNumber [(word >>> 16).toUInt8, (word >>> 8).toUInt8, word.toUInt8] = word.toNat := by
  simp only [beNumber, List.reverse_cons, List.reverse_nil, List.nil_append, List.cons_append,
    leNumber, UInt32.toNat_toUInt8, toNat_shiftRight_16, toNat_shiftRight_8]
  omega

/-- The octets of a small target. -/
theorem beNumber_word :
    beNumber [(word >>> 24).toUInt8, (word >>> 16).toUInt8, (word >>> 8).toUInt8, word.toUInt8] =
      word.toNat := by
  have small := word.toNat_lt
  simp only [beNumber, List.reverse_cons, List.reverse_nil, List.nil_append, List.cons_append,
    leNumber, UInt32.toNat_toUInt8, toNat_shiftRight_24, toNat_shiftRight_16, toNat_shiftRight_8]
  omega

/-- The bits of the octets that a small exponent is short of. -/
theorem toNat_missingBits (small : exponent ≤ 3) :
    (8 * (3 - exponent)).toNat % 32 = 8 * (3 - exponent.toNat) := by
  have bounded : exponent.toNat ≤ 3 := UInt32.le_iff_toNat_le.mp small
  rw [UInt32.toNat_mul, UInt32.toNat_sub_of_le _ _ small]
  change 8 * (3 - exponent.toNat) % 2 ^ 32 % 32 = _
  omega

theorem toNat_shiftRight_octets (small : exponent ≤ 3) :
    (word >>> (8 * (3 - exponent))).toNat = word.toNat >>> (8 * (3 - exponent.toNat)) := by
  rw [UInt32.toNat_shiftRight, toNat_missingBits small]

theorem toNat_shiftLeft_octets (small : exponent ≤ 3) :
    (word <<< (8 * (3 - exponent))).toNat = word.toNat <<< (8 * (3 - exponent.toNat)) % 2 ^ 32 := by
  rw [UInt32.toNat_shiftLeft, toNat_missingBits small]

theorem beNumber_toBeBytes32 (fits : target.value < 2 ^ 256) :
    beNumber target.toBeBytes32 = target.value := by
  unfold beNumber Target.toBeBytes32
  rw [List.reverse_reverse]
  exact leNumber_leOctets fits

theorem length_toBeBytes32 (target : Target) : target.toBeBytes32.length = 32 := by
  unfold Target.toBeBytes32
  rw [List.length_reverse, length_leOctets]

/-- Up to an exponent of 32 the octets are those of the number that exponent and mantissa stand
for. -/
theorem exists_targetBytes (positive : bits &&& 0x00800000 = 0) (nonzero : compactMantissa bits ≠ 0)
    (small : compactExponent bits ≤ 32) :
    ∃ bytes, targetBytesFromCompact bits = .ok bytes ∧ bytes.length = 32 ∧
      beNumber bytes = compactValue (compactExponent bits) (compactMantissa bits) := by
  have mantissaFits := compactMantissa_lt bits
  have mantissa_ne : bits &&& 0x007fffff ≠ 0 := fun isZero => nonzero (congrArg UInt32.toNat isZero)
  have exponent_le : ¬ (32 : UInt32) < bits >>> 24 := by
    rw [UInt32.lt_iff_toNat_lt]
    exact Nat.not_lt.mpr small
  unfold targetBytesFromCompact
  rw [if_neg (not_not.mpr positive)]
  dsimp only
  rw [if_neg mantissa_ne, if_neg exponent_le]
  by_cases short : bits >>> 24 ≤ 3
  · have short_le : compactExponent bits ≤ 3 := UInt32.le_iff_toNat_le.mp short
    rw [if_pos short]
    refine ⟨_, rfl, by simp, ?_⟩
    rw [beNumber_append, beNumber_replicate, beNumber_word, toNat_shiftRight_octets _ short,
      compactValue, if_pos short_le]
    simp [compactExponent, compactMantissa]
  · have long_lt : ¬ compactExponent bits ≤ 3 := fun le => short (UInt32.le_iff_toNat_le.mpr le)
    rw [if_neg short]
    have trailing : 29 - (32 - compactExponent bits) = compactExponent bits - 3 := by omega
    refine ⟨_, rfl, ?_, ?_⟩
    · change (List.replicate (32 - compactExponent bits) (0 : UInt8) ++ _ ++
        List.replicate (29 - (32 - compactExponent bits)) 0).length = 32
      simp only [List.length_append, List.length_replicate, List.length_cons, List.length_nil]
      omega
    change beNumber (List.replicate (32 - compactExponent bits) (0 : UInt8) ++ _ ++
      List.replicate (29 - (32 - compactExponent bits)) 0) = _
    rw [beNumber_append, beNumber_append, beNumber_replicate, beNumber_replicate,
      beNumber_mantissa (mantissaFits.trans (Nat.pow_lt_pow_right Nat.one_lt_two (by decide))),
      List.length_replicate, trailing,
      compactValue, if_neg long_lt, Nat.shiftLeft_eq, ← pow_256]
    simp [compactMantissa]

theorem compactValue_lt {exponent mantissa : Nat} (exponentFits : exponent ≤ 32)
    (mantissaFits : mantissa < 2 ^ 23) : compactValue exponent mantissa < 2 ^ 256 := by
  unfold compactValue
  split
  · exact (Nat.shiftRight_le _ _).trans_lt
      (mantissaFits.trans (Nat.pow_lt_pow_right Nat.one_lt_two (by decide)))
  rw [Nat.shiftLeft_eq]
  calc
    mantissa * 2 ^ (8 * (exponent - 3)) < 2 ^ 23 * 2 ^ (8 * (exponent - 3)) :=
      Nat.mul_lt_mul_of_pos_right mantissaFits (Nat.two_pow_pos _)
    _ = 2 ^ (23 + 8 * (exponent - 3)) := (Nat.pow_add ..).symm
    _ ≤ 2 ^ 256 := Nat.pow_le_pow_right Nat.two_pos (by omega)

theorem compactToTarget_of_nonzero (positive : bits &&& 0x00800000 = 0)
    (nonzero : compactMantissa bits ≠ 0) :
    compactToTarget bits =
      if compactValue (compactExponent bits) (compactMantissa bits) = 0 then .error .zeroTarget
      else if 2 ^ 256 ≤ compactValue (compactExponent bits) (compactMantissa bits) then
        .error .overflow
      else .ok ⟨compactValue (compactExponent bits) (compactMantissa bits)⟩ := by
  unfold compactToTarget
  rw [if_neg (not_not.mpr positive)]
  exact if_neg nonzero

theorem verifyPow_of_targetBytes {hash : Hash} {bytes : Octets}
    (read : targetBytesFromCompact bits = .ok bytes) (length_eq : bytes.length = 32) :
    verifyPow hash bits = .ok (decide (beNumber hash.bytes ≤ beNumber bytes)) := by
  have lengths_eq : hash.bytes.length = bytes.length := hash.length_eq.trans length_eq.symm
  unfold verifyPow
  rw [read]
  change Except.ok (bytesCmp hash.bytes bytes != .gt) = _
  apply congrArg Except.ok
  rw [Bool.eq_iff_iff, bne_iff_ne, decide_eq_true_iff]
  exact bytesCmp_ne_gt_iff lengths_eq

/-- For great exponents the octets come from the conversion. -/
theorem targetBytes_of_great (positive : bits &&& 0x00800000 = 0)
    (nonzero : compactMantissa bits ≠ 0) (great : 32 < compactExponent bits) :
    targetBytesFromCompact bits = (compactToTarget bits).map Target.toBeBytes32 := by
  have mantissa_ne : bits &&& 0x007fffff ≠ 0 := fun isZero => nonzero (congrArg UInt32.toNat isZero)
  have exponent_lt : (32 : UInt32) < bits >>> 24 := UInt32.lt_iff_toNat_lt.mpr great
  unfold targetBytesFromCompact
  rw [if_neg (not_not.mpr positive)]
  dsimp only
  rw [if_neg mantissa_ne, if_pos exponent_lt, Target.fromCompact]
  cases compactToTarget bits with
  | error error => rfl
  | ok target => rfl

/-- A mantissa that does not vanish is checked alike. -/
theorem verifyPow_of_nonzero (hash : Hash) (positive : bits &&& 0x00800000 = 0)
    (nonzero : compactMantissa bits ≠ 0)
    (kept : compactValue (compactExponent bits) (compactMantissa bits) ≠ 0) :
    verifyPow hash bits = verifyPowByTarget hash bits := by
  unfold verifyPowByTarget Target.fromCompact
  rcases Nat.lt_or_ge 32 (compactExponent bits) with great | small
  · have bytes_eq := targetBytes_of_great positive nonzero great
    cases read : compactToTarget bits with
    | error error =>
      rw [read] at bytes_eq
      unfold verifyPow
      rw [bytes_eq]
      rfl
    | ok target =>
      rw [read] at bytes_eq
      have fits := (compactToTarget_eq_ok_iff.mp read).2.2.1
      rw [verifyPow_of_targetBytes bytes_eq (length_toBeBytes32 target), beNumber_toBeBytes32 fits]
      rfl
  · rcases exists_targetBytes positive nonzero small with ⟨bytes, read, length_eq, number_eq⟩
    have fits := compactValue_lt small (compactMantissa_lt bits)
    rw [verifyPow_of_targetBytes read length_eq, number_eq,
      compactToTarget_of_nonzero positive nonzero, if_neg kept, if_neg (Nat.not_le.mpr fits)]
    rfl

/-- The check on octets is the check through the conversion unless the mantissa vanishes. -/
theorem verifyPow_eq_iff (hash : Hash) (bits : UInt32) :
    verifyPow hash bits = verifyPowByTarget hash bits ↔ ¬ MantissaVanishes bits := by
  constructor
  · rintro agree ⟨positive, nonzero, vanished⟩
    have small : compactExponent bits ≤ 32 := by
      apply Nat.le_of_not_lt
      intro great
      rw [compactValue, if_neg (by omega), Nat.shiftLeft_eq, Nat.mul_eq_zero] at vanished
      exact vanished.elim nonzero (Nat.ne_of_gt (Nat.two_pow_pos _))
    rcases exists_targetBytes positive nonzero small with ⟨bytes, read, length_eq, -⟩
    rw [verifyPow_of_targetBytes read length_eq, verifyPowByTarget, Target.fromCompact,
      compactToTarget_of_nonzero positive nonzero, if_pos vanished] at agree
    cases agree
  · intro kept
    by_cases positive : bits &&& 0x00800000 = 0
    · by_cases nonzero : (bits &&& 0x007fffff).toNat = 0
      · have isZero : bits &&& 0x007fffff = 0 := UInt32.toNat_inj.mp nonzero
        unfold verifyPow verifyPowByTarget Target.fromCompact targetBytesFromCompact compactToTarget
        rw [if_neg (not_not.mpr positive), if_neg (not_not.mpr positive)]
        dsimp only
        rw [if_pos isZero, if_pos nonzero]
        rfl
      · apply verifyPow_of_nonzero hash positive nonzero
        intro vanished
        exact kept ⟨positive, nonzero, vanished⟩
    · unfold verifyPow verifyPowByTarget Target.fromCompact targetBytesFromCompact compactToTarget
      rw [if_pos positive, if_pos positive]
      rfl

/-- The least mantissa with exponent one: the conversion refuses the word, the check does not. -/
theorem vanished_mantissa_checked :
    ¬ ∀ hash bits, verifyPow hash bits = verifyPowByTarget hash bits := by
  intro agree
  have accepted : verifyPow .zero 0x01000001 = .ok true := rfl
  have refused : verifyPowByTarget .zero 0x01000001 = .error .zeroTarget := rfl
  rw [agree, refused] at accepted
  cases accepted

/-! ## Compact words of targets -/

/-- The exponent keeps the top bit of the mantissa free. -/
def compactLength (value : Nat) : Nat :=
  octetLength (2 * value)

/-- The leading octets of the value, as many as the exponent leaves room for. -/
def compactDigits (value : Nat) : Nat :=
  value * 256 ^ 3 / 256 ^ compactLength value

theorem compactLength_mono {first second : Nat} (positive : 0 < first) (le : first ≤ second) :
    compactLength first ≤ compactLength second :=
  octetLength_mono (Nat.mul_pos Nat.two_pos positive) (Nat.mul_le_mul_left 2 le)

theorem compactDigits_lt (positive : 0 < value) : compactDigits value < 2 ^ 23 := by
  have bounded : 2 * value < 256 ^ compactLength value :=
    lt_pow_octetLength (Nat.mul_pos Nat.two_pos positive)
  unfold compactDigits
  rw [Nat.div_lt_iff_lt_mul (Nat.pow_pos (by decide))]
  omega

/-- The three leading octets, before the sign bit is looked at. -/
def leadingOctets (value : Nat) : Nat :=
  value * 256 ^ 3 / 256 ^ octetLength value

theorem leadingOctets_lt (positive : 0 < value) : leadingOctets value < 2 ^ 24 := by
  have bounded := lt_pow_octetLength positive
  unfold leadingOctets
  rw [Nat.div_lt_iff_lt_mul (Nat.pow_pos (by decide))]
  omega

/-- The sign bit would be set where the double needs another octet. -/
theorem sign_le_leadingOctets_iff :
    2 ^ 23 ≤ leadingOctets value ↔ 256 ^ octetLength value ≤ 2 * value := by
  unfold leadingOctets
  rw [Nat.le_div_iff_mul_le (Nat.pow_pos (by decide))]
  omega

theorem compactLength_of_small (positive : 0 < value) (small : leadingOctets value < 2 ^ 23) :
    compactLength value = octetLength value := by
  apply Nat.le_antisymm
  · rw [compactLength, octetLength_le_iff (Nat.mul_pos Nat.two_pos positive)]
    exact Nat.lt_of_not_le fun le => Nat.not_le.mpr small (sign_le_leadingOctets_iff.mpr le)
  · exact octetLength_mono positive (Nat.le_mul_of_pos_left value Nat.two_pos)

theorem compactLength_of_great (positive : 0 < value) (great : 2 ^ 23 ≤ leadingOctets value) :
    compactLength value = octetLength value + 1 := by
  have bounded := lt_pow_octetLength positive
  apply Nat.le_antisymm
  · rw [compactLength, octetLength_le_iff (Nat.mul_pos Nat.two_pos positive), Nat.pow_succ]
    omega
  · apply Nat.succ_le_of_lt
    apply Nat.lt_of_not_le
    rw [compactLength, octetLength_le_iff (Nat.mul_pos Nat.two_pos positive), Nat.not_lt]
    exact sign_le_leadingOctets_iff.mp great

/-- Exponent and mantissa do not overlap. -/
theorem toNat_compactWord {mantissa : UInt32} (exponentFits : exponent.toNat < 256)
    (mantissaFits : mantissa.toNat < 2 ^ 24) :
    (exponent <<< 24 ||| mantissa).toNat = exponent.toNat * 2 ^ 24 + mantissa.toNat := by
  have moved : (exponent <<< 24).toNat = exponent.toNat <<< 24 := by
    rw [UInt32.toNat_shiftLeft]
    change exponent.toNat <<< 24 % 2 ^ 32 = _
    rw [Nat.shiftLeft_eq]
    omega
  rw [UInt32.toNat_or, moved, ← Nat.shiftLeft_add_eq_or_of_lt mantissaFits, Nat.shiftLeft_eq]

/-- The mantissa before the sign bit is looked at. -/
def rawMantissa (value : Nat) : UInt32 :=
  let exponent := UInt32.ofNat (octetLength value)
  if exponent ≤ 3 then UInt32.ofNat value <<< (8 * (3 - exponent))
  else UInt32.ofNat (value >>> (8 * (exponent.toNat - 3)))

theorem toNat_rawMantissa (positive : 0 < value) (short : octetLength value ≤ 32) :
    (rawMantissa value).toNat = leadingOctets value := by
  have bounded := lt_pow_octetLength positive
  have leadingFits := leadingOctets_lt positive
  have length_eq : (UInt32.ofNat (octetLength value)).toNat = octetLength value :=
    UInt32.toNat_ofNat_of_lt' (short.trans_lt (by decide))
  unfold rawMantissa
  dsimp only
  split
  next small =>
    have small_le : octetLength value ≤ 3 := by
      rw [UInt32.le_iff_toNat_le, length_eq] at small
      exact small
    have split_pow : 256 ^ 3 = 256 ^ (3 - octetLength value) * 256 ^ octetLength value := by
      rw [← Nat.pow_add, Nat.sub_add_cancel small_le]
    have leading_eq : leadingOctets value = value <<< (8 * (3 - octetLength value)) := by
      rw [leadingOctets, split_pow, ← Nat.mul_assoc,
        Nat.mul_div_cancel _ (Nat.pow_pos (by decide)), Nat.shiftLeft_eq, pow_256]
    have value_lt : value < UInt32.size :=
      bounded.trans_le ((Nat.pow_le_pow_right (by decide) small_le).trans (by decide))
    rw [toNat_shiftLeft_octets _ small, length_eq, UInt32.toNat_ofNat_of_lt' value_lt,
      ← leading_eq]
    exact Nat.mod_eq_of_lt (leadingFits.trans (by decide))
  next great =>
    have great_lt : 3 < octetLength value := by
      rw [UInt32.le_iff_toNat_le, length_eq] at great
      exact Nat.lt_of_not_le great
    have split_pow : 256 ^ octetLength value = 256 ^ (octetLength value - 3) * 256 ^ 3 := by
      rw [← Nat.pow_add, Nat.sub_add_cancel (Nat.le_of_lt great_lt)]
    have leading_eq : leadingOctets value = value >>> (8 * (octetLength value - 3)) := by
      rw [leadingOctets, split_pow, Nat.mul_div_mul_right _ _ (by decide),
        Nat.shiftRight_eq_div_pow, pow_256]
    rw [length_eq, ← leading_eq]
    exact UInt32.toNat_ofNat_of_lt' (leadingFits.trans (by decide))

theorem targetToCompact_eq (nonzero : target.value ≠ 0) :
    targetToCompact target =
      if rawMantissa target.value &&& 0x00800000 ≠ 0 then
        (UInt32.ofNat (octetLength target.value) + 1) <<< 24 ||| rawMantissa target.value >>> 8
      else UInt32.ofNat (octetLength target.value) <<< 24 ||| rawMantissa target.value :=
  if_neg nonzero

/-- The word has the length as its exponent and the digits as its mantissa. -/
theorem toNat_targetToCompact (positive : 0 < target.value) (fits : target.value < 2 ^ 256) :
    (targetToCompact target).toNat =
      compactLength target.value * 2 ^ 24 + compactDigits target.value := by
  have octets_fit : target.value < 256 ^ 32 := by
    rw [pow_256]
    exact fits
  have short : octetLength target.value ≤ 32 := (octetLength_le_iff positive).mpr octets_fit
  have leadingFits := leadingOctets_lt positive
  have raw_eq := toNat_rawMantissa positive short
  have length_eq : (UInt32.ofNat (octetLength target.value)).toNat = octetLength target.value :=
    UInt32.toNat_ofNat_of_lt' (short.trans_lt (by decide))
  have sign_iff : rawMantissa target.value &&& 0x00800000 ≠ 0 ↔
      2 ^ 23 ≤ leadingOctets target.value := by
    rw [ne_eq, sign_eq_zero_iff, raw_eq]
    omega
  rw [targetToCompact_eq (Nat.ne_of_gt positive)]
  split
  next signed =>
    have great := sign_iff.mp signed
    have next_eq : (UInt32.ofNat (octetLength target.value) + 1).toNat =
        octetLength target.value + 1 := by
      rw [UInt32.toNat_add, length_eq]
      exact Nat.mod_eq_of_lt (Nat.lt_of_le_of_lt (Nat.succ_le_succ short) (by decide))
    have moved_eq : (rawMantissa target.value >>> 8).toNat = leadingOctets target.value / 2 ^ 8 := by
      rw [toNat_shiftRight_8, raw_eq]
    have split_pow : 256 ^ (octetLength target.value + 1) = 256 ^ octetLength target.value * 2 ^ 8 :=
      Nat.pow_succ ..
    have digits_eq : compactDigits target.value = leadingOctets target.value / 2 ^ 8 := by
      rw [compactDigits, compactLength_of_great positive great, split_pow, leadingOctets,
        Nat.div_div_eq_div_mul]
    rw [toNat_compactWord (by omega) (by omega), next_eq, moved_eq, digits_eq,
      compactLength_of_great positive great]
  next unsigned =>
    have small : leadingOctets target.value < 2 ^ 23 :=
      Nat.lt_of_not_le fun great => unsigned (sign_iff.mpr great)
    rw [toNat_compactWord (by omega) (by omega), length_eq, raw_eq, compactDigits,
      compactLength_of_small positive small]
    rfl

/-- The fields of the word of a target. -/
theorem targetToCompact_fields (positive : 0 < target.value) (fits : target.value < 2 ^ 256) :
    targetToCompact target &&& 0x00800000 = 0 ∧
      compactExponent (targetToCompact target) = compactLength target.value ∧
        compactMantissa (targetToCompact target) = compactDigits target.value := by
  have digitsFit := compactDigits_lt positive
  have word_eq := toNat_targetToCompact positive fits
  rw [sign_eq_zero_iff, compactExponent_eq, compactMantissa_eq, word_eq]
  omega

/-- The target without the octets that the word has no room for. -/
def normalised (value : Nat) : Nat :=
  value / 256 ^ (compactLength value - 3) * 256 ^ (compactLength value - 3)

/-- A word stands for the leading octets of its target. -/
theorem compactValue_digits (positive : 0 < value) :
    compactValue (compactLength value) (compactDigits value) = normalised value := by
  have bounded : 2 * value < 256 ^ compactLength value :=
    lt_pow_octetLength (Nat.mul_pos Nat.two_pos positive)
  unfold compactValue normalised compactDigits
  split
  next small =>
    have split_pow : 256 ^ 3 = 256 ^ (3 - compactLength value) * 256 ^ compactLength value := by
      rw [← Nat.pow_add, Nat.sub_add_cancel small]
    rw [split_pow, ← Nat.mul_assoc, Nat.mul_div_cancel _ (Nat.pow_pos (by decide)),
      Nat.shiftRight_eq_div_pow, ← pow_256, Nat.mul_div_cancel _ (Nat.pow_pos (by decide)),
      Nat.sub_eq_zero_of_le small, Nat.pow_zero, Nat.div_one, Nat.mul_one]
  next great =>
    have split_pow : 256 ^ compactLength value = 256 ^ (compactLength value - 3) * 256 ^ 3 := by
      rw [← Nat.pow_add, Nat.sub_add_cancel (Nat.le_of_not_le great)]
    rw [split_pow, Nat.mul_div_mul_right _ _ (by decide), Nat.shiftLeft_eq, ← pow_256]

theorem normalised_le (value : Nat) : normalised value ≤ value :=
  Nat.div_mul_le_self _ _

/-- The word keeps 16 bits at least. -/
theorem le_leading_of_long (positive : 0 < value) (long : 3 < compactLength value) :
    2 ^ 15 ≤ value / 256 ^ (compactLength value - 3) := by
  rcases Nat.exists_eq_add_of_lt long with ⟨dropped, length_eq⟩
  have reached : 256 ^ (3 + dropped) ≤ 2 * value :=
    pow_le_of_octetLength (Nat.mul_pos Nat.two_pos positive) length_eq
  have dropped_eq : compactLength value - 3 = dropped + 1 := by omega
  rw [Nat.pow_add] at reached
  rw [dropped_eq, Nat.le_div_iff_mul_le (Nat.pow_pos (by decide)), Nat.pow_succ]
  omega

theorem normalised_pos (positive : 0 < value) : 0 < normalised value := by
  unfold normalised
  apply Nat.mul_pos _ (Nat.pow_pos (by decide))
  rcases Nat.lt_or_ge 3 (compactLength value) with long | short
  · exact (Nat.two_pow_pos 15).trans_le (le_leading_of_long positive long)
  · rw [Nat.sub_eq_zero_of_le short, Nat.pow_zero, Nat.div_one]
    exact positive

/-- The word of a target is accepted and stands for its leading octets. -/
theorem fromCompact_toCompact (positive : 0 < target.value) (fits : target.value < 2 ^ 256) :
    Target.fromCompact target.toCompact = .ok ⟨normalised target.value⟩ := by
  rcases targetToCompact_fields positive fits with ⟨unsigned, exponent_eq, mantissa_eq⟩
  apply compactToTarget_eq_ok_iff.mpr
  refine ⟨unsigned, Nat.ne_of_gt (normalised_pos positive),
    (normalised_le target.value).trans_lt fits, ?_⟩
  unfold Target.toCompact
  rw [exponent_eq, mantissa_eq, compactValue_digits positive]

theorem toCompact_mono {first second : Target} (positive : 0 < first.value)
    (le : first.value ≤ second.value) (fits : second.value < 2 ^ 256) :
    first.toCompact ≤ second.toCompact := by
  have length_le := compactLength_mono positive le
  have digitsFit := compactDigits_lt positive
  rw [UInt32.le_iff_toNat_le]
  unfold Target.toCompact
  rw [toNat_targetToCompact positive (le.trans_lt fits),
    toNat_targetToCompact (positive.trans_le le) fits]
  rcases Nat.lt_or_eq_of_le length_le with shorter | same
  · omega
  · have digits_le : compactDigits first.value ≤ compactDigits second.value := by
      unfold compactDigits
      rw [same]
      exact Nat.div_le_div_right (Nat.mul_le_mul_right _ le)
    omega

/-- What a word stands for has no octets to lose. -/
theorem normalised_compactValue
    (nonzero : compactValue (compactExponent bits) (compactMantissa bits) ≠ 0) :
    normalised (compactValue (compactExponent bits) (compactMantissa bits)) =
      compactValue (compactExponent bits) (compactMantissa bits) := by
  have mantissaFits := compactMantissa_lt bits
  generalize compactExponent bits = exponent at nonzero ⊢
  generalize compactMantissa bits = mantissa at nonzero mantissaFits ⊢
  have positive := Nat.pos_of_ne_zero nonzero
  have doubled := Nat.mul_pos Nat.two_pos positive
  unfold normalised
  apply Nat.div_mul_cancel
  unfold compactValue at positive doubled ⊢
  split at doubled
  next small =>
    rw [if_pos small]
    have short : compactLength (mantissa >>> (8 * (3 - exponent))) ≤ 3 := by
      have shifted := Nat.shiftRight_le mantissa (8 * (3 - exponent))
      rw [compactLength, octetLength_le_iff doubled]
      omega
    rw [Nat.sub_eq_zero_of_le short, Nat.pow_zero]
    exact Nat.one_dvd _
  next great =>
    rw [if_neg great]
    rw [Nat.shiftLeft_eq, ← pow_256] at doubled ⊢
    have split_pow : 256 ^ exponent = 256 ^ 3 * 256 ^ (exponent - 3) := by
      rw [← Nat.pow_add, Nat.add_sub_cancel' (Nat.le_of_not_le great)]
    have short : compactLength (mantissa * 256 ^ (exponent - 3)) ≤ exponent := by
      rw [compactLength, octetLength_le_iff doubled, split_pow, ← Nat.mul_assoc]
      exact Nat.mul_lt_mul_of_pos_right (by omega) (Nat.pow_pos (by decide))
    exact (Nat.pow_dvd_pow 256 (Nat.sub_le_sub_right short 3)).mul_left mantissa

/-- The word of a target stands for its leading octets, at least 16 bits of them; words are
ordered like their targets; and what a word stands for survives another round. -/
theorem compact_normalisation :
    (∀ target : Target, 1 ≤ target.value → target.value < 2 ^ 256 →
      ∃ normal, Target.fromCompact target.toCompact = .ok normal ∧ normal.value ≤ target.value ∧
        ∃ dropped, normal.value = target.value / 256 ^ dropped * 256 ^ dropped ∧
          (dropped = 0 ∨ 2 ^ 15 ≤ target.value / 256 ^ dropped)) ∧
      (∀ first second : Target, first.value ≤ second.value → second.value < 2 ^ 256 →
        first.toCompact ≤ second.toCompact) ∧
      ∀ bits target, Target.fromCompact bits = .ok target →
        Target.fromCompact target.toCompact = .ok target := by
  refine ⟨?_, ?_, ?_⟩
  · intro target positive fits
    refine ⟨⟨normalised target.value⟩, fromCompact_toCompact positive fits,
      normalised_le target.value, compactLength target.value - 3, rfl, ?_⟩
    rcases Nat.lt_or_ge 3 (compactLength target.value) with long | short
    · exact .inr (le_leading_of_long positive long)
    · exact .inl (Nat.sub_eq_zero_of_le short)
  · intro first second le fits
    by_cases nothing : first.value = 0
    · simp [Target.toCompact, targetToCompact, nothing]
    · exact toCompact_mono (Nat.pos_of_ne_zero nothing) le fits
  · intro bits target read
    rcases compactToTarget_eq_ok_iff.mp read with ⟨-, nonzero, fits, value_eq⟩
    rw [fromCompact_toCompact (Nat.pos_of_ne_zero nonzero) fits]
    rw [value_eq] at nonzero
    rw [value_eq, normalised_compactValue nonzero, ← value_eq]

/-- The mainnet limit is its own normal form. -/
theorem compact_normalisation_limit :
    Target.fromCompact (Target.toCompact ⟨0xffff * 2 ^ 208⟩) = .ok ⟨0xffff * 2 ^ 208⟩ :=
  compact_normalisation.2.2 0x1d00ffff _ rfl

/-! ## Work -/

/-- Division by the quotient of a division undoes no more than a second division does. -/
theorem div_div_div (total divisor : Nat) (positive : 0 < total / divisor) :
    total / (total / (total / divisor)) = total / divisor := by
  have nonzero : 0 < divisor := by
    apply Nat.pos_of_ne_zero
    rintro rfl
    rw [Nat.div_zero] at positive
    exact Nat.lt_irrefl 0 positive
  have grows : divisor ≤ total / (total / divisor) := by
    rw [Nat.le_div_iff_mul_le positive]
    exact Nat.mul_div_le total divisor
  apply Nat.le_antisymm
  · exact Nat.div_le_div_left grows nonzero
  · rw [Nat.le_div_iff_mul_le (nonzero.trans_le grows)]
    exact Nat.mul_div_le total (total / divisor)

theorem workForTarget_eq_ok_iff {work : Nat} :
    workForTarget target = .ok work ↔ target.value ≠ 0 ∧ 2 ^ 256 / (target.value + 1) = work := by
  unfold workForTarget
  rw [guard_eq_ok_iff, Except.ok.injEq]

/-- The greatest target of a work stands for the same work, and greater targets stand for less
work. -/
theorem work_target_pair :
    (∀ target : Target, 1 ≤ target.value → target.value < 2 ^ 256 →
      ∃ work greatest, workForTarget target = .ok work ∧ targetForWork ⟨work⟩ = .ok greatest ∧
        target.value ≤ greatest.value ∧ workForTarget greatest = .ok work) ∧
      ∀ (first second : Target) (firstWork secondWork : Nat), first.value ≤ second.value →
        workForTarget first = .ok firstWork → workForTarget second = .ok secondWork →
          secondWork ≤ firstWork := by
  constructor
  · intro target positive fits
    have some_work : 0 < 2 ^ 256 / (target.value + 1) := Nat.div_pos fits (Nat.succ_pos _)
    have grows : target.value + 1 ≤ 2 ^ 256 / (2 ^ 256 / (target.value + 1)) := by
      rw [Nat.le_div_iff_mul_le some_work]
      exact Nat.mul_div_le _ _
    have nonzero : 2 ^ 256 / (2 ^ 256 / (target.value + 1)) ≠ 0 := by omega
    have restored : 2 ^ 256 / (2 ^ 256 / (target.value + 1)) - 1 + 1 =
        2 ^ 256 / (2 ^ 256 / (target.value + 1)) := Nat.succ_pred_eq_of_ne_zero nonzero
    refine ⟨2 ^ 256 / (target.value + 1), ⟨2 ^ 256 / (2 ^ 256 / (target.value + 1)) - 1⟩, ?_, ?_, ?_, ?_⟩
    · exact workForTarget_eq_ok_iff.mpr ⟨Nat.ne_of_gt positive, rfl⟩
    · unfold targetForWork
      rw [if_neg (Nat.ne_of_gt some_work), if_neg nonzero]
    · exact Nat.le_sub_one_of_lt grows
    · apply workForTarget_eq_ok_iff.mpr
      dsimp only
      rw [restored]
      exact ⟨by omega, div_div_div _ _ some_work⟩
  · intro first second firstWork secondWork le first_ok second_ok
    rcases workForTarget_eq_ok_iff.mp first_ok with ⟨-, rfl⟩
    rcases workForTarget_eq_ok_iff.mp second_ok with ⟨-, rfl⟩
    exact Nat.div_le_div_left (Nat.succ_le_succ le) (Nat.succ_pos _)

/-- One hash stands for every target from one half of the range on. -/
theorem work_target_pair_half :
    ∃ work greatest, workForTarget ⟨2 ^ 255⟩ = .ok work ∧ targetForWork ⟨work⟩ = .ok greatest ∧
      2 ^ 255 ≤ greatest.value ∧ workForTarget greatest = .ok work :=
  work_target_pair.1 ⟨2 ^ 255⟩ (by decide) (by decide)

end HnsDaneEngine.Primitives
