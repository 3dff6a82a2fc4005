import Mathlib.Data.List.Basic

/-!
# Octets

Messages, keys and digests are lists of octets.
-/

namespace HnsDaneEngine

/-- A string of octets. -/
abbrev Octets : Type :=
  List UInt8

end HnsDaneEngine
