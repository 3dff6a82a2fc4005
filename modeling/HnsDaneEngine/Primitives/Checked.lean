import Mathlib.Algebra.GroupWithZero.Nat

/-!
# Checked machine integers

Counters, times and lengths are natural numbers; where the program guards against
overflow of a 64-bit word, so do these functions.
-/

namespace HnsDaneEngine.Primitives

/-- Largest `u64`; `usize` has the same width here. -/
def u64Max : Nat :=
  2 ^ 64 - 1

def checkedAdd (first second : Nat) : Option Nat :=
  if first + second ≤ u64Max then some (first + second) else none

def checkedMul (first second : Nat) : Option Nat :=
  if first * second ≤ u64Max then some (first * second) else none

def saturatingAdd (first second : Nat) : Nat :=
  min (first + second) u64Max

theorem checkedAdd_eq_some_iff {first second sum : Nat} :
    checkedAdd first second = some sum ↔ sum = first + second ∧ first + second ≤ u64Max := by
  unfold checkedAdd
  split
  next fits => simp [fits, eq_comm]
  next overflows => simp [overflows]

theorem checkedMul_eq_some {first second product : Nat}
    (computed : checkedMul first second = some product) : product = first * second := by
  unfold checkedMul at computed
  split at computed
  next => exact (Option.some.inj computed).symm
  next => cases computed

end HnsDaneEngine.Primitives
