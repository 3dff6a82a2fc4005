import HnsDaneEngine.Encoding.Codec
import HnsDaneEngine.Order.Lex
import HnsDaneEngine.Primitives.Hash

/-!
# Proof of work

Compact targets, the work they stand for and the check of a hash against a target.
Targets and cumulative work are integers of any size.
-/

namespace HnsDaneEngine.Primitives

open Codec HnsDaneEngine.Order

/-- A number of 256 bits. -/
structure Target where
  value : Nat

/-- The work of a chain. -/
structure Chainwork where
  value : Nat
  deriving DecidableEq

inductive PowError
  | negativeTarget
  | zeroTarget
  | overflow
  | invalidChainworkHex
  deriving DecidableEq

/-- A target has at most 256 bits. -/
def compactToTarget (bits : UInt32) : Except PowError Target :=
  if bits &&& 0x00800000 ≠ 0 then .error .negativeTarget
  else
    let exponent := (bits >>> 24).toNat
    let mantissa := (bits &&& 0x007fffff).toNat
    if mantissa = 0 then .error .zeroTarget
    else
      let target :=
        if exponent ≤ 3 then mantissa >>> (8 * (3 - exponent))
        else mantissa <<< (8 * (exponent - 3))
      if target = 0 then .error .zeroTarget
      else if 2 ^ 256 ≤ target then .error .overflow
      else .ok ⟨target⟩

def workForTarget (target : Target) : Except PowError Nat :=
  if target.value = 0 then .error .zeroTarget else .ok (2 ^ 256 / (target.value + 1))

def targetForWork (work : Chainwork) : Except PowError Target :=
  if work.value = 0 then .error .zeroTarget
  else if 2 ^ 256 / work.value = 0 then .error .zeroTarget
  else .ok ⟨2 ^ 256 / work.value - 1⟩

/-- Number of octets of the shortest big-endian form; zero has one octet. -/
def octetLength (number : Nat) : Nat :=
  number.log2 / 8 + 1

def targetToCompact (target : Target) : UInt32 :=
  if target.value = 0 then 0
  else
    let exponent := UInt32.ofNat (octetLength target.value)
    let mantissa :=
      if exponent ≤ 3 then UInt32.ofNat target.value <<< (8 * (3 - exponent))
      else UInt32.ofNat (target.value >>> (8 * (exponent.toNat - 3)))
    -- The top bit of the mantissa is a sign, so that the value moves one octet down.
    if mantissa &&& 0x00800000 ≠ 0 then ((exponent + 1) <<< 24) ||| (mantissa >>> 8)
    else (exponent <<< 24) ||| mantissa

namespace Target

def fromCompact (bits : UInt32) : Except PowError Target :=
  compactToTarget bits

def toCompact (target : Target) : UInt32 :=
  targetToCompact target

/-- The big-endian form, filled up with zeros in front. -/
def toBeBytes32 (target : Target) : Octets :=
  (leOctets 32 target.value).reverse

end Target

namespace Chainwork

def fromBits (bits : UInt32) : Except PowError Chainwork := do
  let target ← Target.fromCompact bits
  let work ← workForTarget target
  .ok ⟨work⟩

def checkedAdd (first second : Chainwork) : Chainwork :=
  ⟨first.value + second.value⟩

def checkedSub (first second : Chainwork) : Option Chainwork :=
  if first.value < second.value then none else some ⟨first.value - second.value⟩

def mulU64 (work : Chainwork) (factor : Nat) : Chainwork :=
  ⟨work.value * factor⟩

def divU64 (work : Chainwork) (divisor : Nat) : Option Chainwork :=
  if divisor = 0 then none else some ⟨work.value / divisor⟩

end Chainwork

/-- The octets of a target without a detour over an integer. -/
def targetBytesFromCompact (bits : UInt32) : Except PowError Octets :=
  if bits &&& 0x00800000 ≠ 0 then .error .negativeTarget
  else
    let exponent := bits >>> 24
    let mantissa := bits &&& 0x007fffff
    if mantissa = 0 then .error .zeroTarget
    else if 32 < exponent then do
      let target ← Target.fromCompact bits
      .ok target.toBeBytes32
    else if exponent ≤ 3 then
      let target := mantissa >>> (8 * (3 - exponent))
      .ok (List.replicate 28 (0 : UInt8) ++
        [(target >>> 24).toUInt8, (target >>> 16).toUInt8, (target >>> 8).toUInt8, target.toUInt8])
    else
      let offset := 32 - exponent.toNat
      .ok (List.replicate offset (0 : UInt8) ++
        [(mantissa >>> 16).toUInt8, (mantissa >>> 8).toUInt8, mantissa.toUInt8] ++
        List.replicate (29 - offset) 0)

/-- Digests are compared octet by octet, the most significant first. -/
def verifyPow (hash : Hash) (bits : UInt32) : Except PowError Bool := do
  let target ← targetBytesFromCompact bits
  .ok (bytesCmp hash.bytes target != .gt)

/-- The mainnet limit. -/
example : (compactToTarget 0x1c00ffff).map Target.toCompact = .ok 0x1c00ffff := by decide +kernel

end HnsDaneEngine.Primitives
