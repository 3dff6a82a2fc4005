import HnsDaneEngine.Encoding.Octets

/-!
# Digests
-/

namespace HnsDaneEngine.Primitives

/-- A 32-octet digest. -/
structure Hash where
  bytes : Octets
  length_eq : bytes.length = 32
  deriving DecidableEq

namespace Hash

/-- The all-zero digest. -/
def zero : Hash :=
  ⟨List.replicate 32 0, by simp⟩

theorem ext_bytes {first second : Hash} (bytes_eq : first.bytes = second.bytes) :
    first = second := by
  cases first
  cases second
  cases bytes_eq
  rfl

/-- Two digests in front of equal remainders are equal. -/
theorem append_inj {first second : Hash} {firstRest secondRest : Octets}
    (equal : first.bytes ++ firstRest = second.bytes ++ secondRest) :
    first = second ∧ firstRest = secondRest := by
  obtain ⟨bytes_eq, rest_eq⟩ :=
    List.append_inj equal (first.length_eq.trans second.length_eq.symm)
  exact ⟨ext_bytes bytes_eq, rest_eq⟩

/-- A concatenation of two digests determines both. -/
theorem append_bytes_inj {firstLeft firstRight secondLeft secondRight : Hash}
    (equal : firstLeft.bytes ++ firstRight.bytes = secondLeft.bytes ++ secondRight.bytes) :
    firstLeft = secondLeft ∧ firstRight = secondRight := by
  obtain ⟨left_eq, right_eq⟩ := append_inj equal
  exact ⟨left_eq, ext_bytes right_eq⟩

end Hash

def maxHandshakeNameLen : Nat := 63

/-- Why a name is refused. -/
inductive NameHashError
  | empty
  | tooLong
  | uppercase
  | invalidCharacter
  | invalidBoundary
  | blacklisted

/-- `example`, `invalid`, `local`, `localhost` and `test`. -/
def blacklistedNames : List Octets :=
  [[101, 120, 97, 109, 112, 108, 101], [105, 110, 118, 97, 108, 105, 100],
    [108, 111, 99, 97, 108], [108, 111, 99, 97, 108, 104, 111, 115, 116], [116, 101, 115, 116]]

/-- The octet loop of `validate_handshake_name` over a name of a given length. -/
def validateNameBytes (length : Nat) : Nat → Octets → Except NameHashError Unit
  | _, [] => .ok ()
  | index, byte :: rest =>
    if (0x30 ≤ byte ∧ byte ≤ 0x39) ∨ (0x61 ≤ byte ∧ byte ≤ 0x7a) then
      validateNameBytes length (index + 1) rest
    else if 0x41 ≤ byte ∧ byte ≤ 0x5a then .error .uppercase
    else if byte = 0x2d ∨ byte = 0x5f then
      if index = 0 ∨ index + 1 = length then .error .invalidBoundary
      else validateNameBytes length (index + 1) rest
    else .error .invalidCharacter

/-- Names are the octets of their UTF-8 text. -/
def validateHandshakeName (name : Octets) : Except NameHashError Unit :=
  if name.isEmpty then .error .empty
  else if maxHandshakeNameLen < name.length then .error .tooLong
  else if name ∈ blacklistedNames then .error .blacklisted
  else validateNameBytes name.length 0 name

/-- `NameHash::from_name`; `sha3` stands for SHA3-256. -/
def nameHashFromName (sha3 : Octets → Hash) (name : Octets) : Except NameHashError Hash :=
  match validateHandshakeName name with
  | .error error => .error error
  | .ok () => .ok (sha3 name)

end HnsDaneEngine.Primitives
