import HnsDaneEngine.Order.Lex
import Mathlib.Data.List.Pairwise

/-!
# Length-prefixed bodies behind a common header

A frame is a header, a two-octet length and a body of that length.  With one
header for all frames, a concatenation of frames determines its bodies, and
the octet order of frames is the order of the bodies by length first: it agrees
with the octet order of the bodies themselves only where lengths agree.
-/

namespace HnsDaneEngine.Frame

open HnsDaneEngine.Order

universe u

/-- A 16-bit number in network order. -/
def u16 (value : Nat) : Octets :=
  [UInt8.ofNat (value / 256), UInt8.ofNat (value % 256)]

def frame (header body : Octets) : Octets :=
  header ++ (u16 body.length ++ body)

section

variable {α : Type u} [LinearOrder α]

theorem append_lt_append_iff (front left right : List α) :
    front ++ left < front ++ right ↔ left < right := by
  induction front with
  | nil => rfl
  | cons head front ih => simp [ih]

end

theorem toNat_ofNat_of_lt {value : Nat} (small : value < 256) :
    (UInt8.ofNat value).toNat = value := by
  rw [UInt8.toNat_ofNat']
  omega

variable {firstRest secondRest : Octets}

/-- Equal length fields come from equal lengths. -/
theorem u16_append_inj {first second : Nat} (firstSmall : first < 65536)
    (secondSmall : second < 65536) (equal : u16 first ++ firstRest = u16 second ++ secondRest) :
    first = second ∧ firstRest = secondRest := by
  simp only [u16, List.cons_append, List.nil_append, List.cons.injEq] at equal
  obtain ⟨high_eq, low_eq, rest_eq⟩ := equal
  have high := congrArg UInt8.toNat high_eq
  have low := congrArg UInt8.toNat low_eq
  rw [toNat_ofNat_of_lt (by omega), toNat_ofNat_of_lt (by omega)] at high low
  exact ⟨by omega, rest_eq⟩

/-- The length field is compared before what follows it. -/
theorem u16_append_lt_iff {first second : Nat} (firstSmall : first < 65536)
    (secondSmall : second < 65536) :
    u16 first ++ firstRest < u16 second ++ secondRest ↔
      first < second ∨ (first = second ∧ firstRest < secondRest) := by
  simp only [u16, List.cons_append, List.nil_append, List.cons_lt_cons_iff,
    UInt8.lt_iff_toNat_lt, ← UInt8.toNat_inj]
  rw [toNat_ofNat_of_lt (by omega), toNat_ofNat_of_lt (by omega),
    toNat_ofNat_of_lt (by omega), toNat_ofNat_of_lt (by omega)]
  constructor
  · rintro (high | ⟨high, low | ⟨low, rest⟩⟩)
    · exact .inl (by omega)
    · exact .inl (by omega)
    · exact .inr ⟨by omega, rest⟩
  · rintro (less | ⟨rfl, rest⟩)
    · by_cases high : first / 256 < second / 256
      · exact .inl high
      · exact .inr ⟨by omega, .inl (by omega)⟩
    · exact .inr ⟨rfl, .inr ⟨rfl, rest⟩⟩

/-- Frames are ordered by the length of the body, then by the body. -/
theorem frame_lt_iff (header : Octets) {first second : Octets}
    (firstSmall : first.length < 65536) (secondSmall : second.length < 65536) :
    frame header first < frame header second ↔
      first.length < second.length ∨ (first.length = second.length ∧ first < second) := by
  rw [frame, frame, append_lt_append_iff, u16_append_lt_iff firstSmall secondSmall]

/-- A frame ends where its body ends. -/
theorem frame_append_inj {header first second : Octets} (firstSmall : first.length < 65536)
    (secondSmall : second.length < 65536)
    (equal : frame header first ++ firstRest = frame header second ++ secondRest) :
    first = second ∧ firstRest = secondRest := by
  simp only [frame, List.append_assoc, List.append_cancel_left_eq] at equal
  obtain ⟨length_eq, rest_eq⟩ := u16_append_inj firstSmall secondSmall equal
  exact List.append_inj rest_eq length_eq

theorem frame_ne_nil (header body : Octets) : frame header body ≠ [] := by
  simp [frame, u16]

/-- A concatenation of frames determines the bodies and their order. -/
theorem flatMap_frame_inj (header : Octets) {first second : List Octets}
    (firstSmall : ∀ body ∈ first, body.length < 65536)
    (secondSmall : ∀ body ∈ second, body.length < 65536)
    (equal : first.flatMap (frame header) = second.flatMap (frame header)) :
    first = second := by
  induction first generalizing second with
  | nil =>
    cases second with
    | nil => rfl
    | cons body rest =>
      simp [frame_ne_nil] at equal
  | cons body rest ih =>
    cases second with
    | nil => simp [frame_ne_nil] at equal
    | cons otherBody otherRest =>
      rw [List.flatMap_cons, List.flatMap_cons] at equal
      obtain ⟨rfl, rest_eq⟩ := frame_append_inj (firstSmall body List.mem_cons_self)
        (secondSmall otherBody List.mem_cons_self) equal
      rw [ih (fun member mem => firstSmall member (List.mem_cons_of_mem body mem))
        (fun member mem => secondSmall member (List.mem_cons_of_mem body mem)) rest_eq]

/-- Sorting the frames of some bodies sorts the bodies themselves exactly when
no body precedes a longer one in the octet order the wrong way round. -/
theorem pairwise_le_iff_of_frames_sorted (header : Octets) {bodies : List Octets}
    (small : ∀ body ∈ bodies, body.length < 65536)
    (sorted : bodies.Pairwise fun first second =>
      frame header first ≤ frame header second) :
    bodies.Pairwise (· ≤ ·) ↔
      ∀ shorter ∈ bodies, ∀ longer ∈ bodies, shorter.length < longer.length → shorter < longer := by
  have notShorter : ∀ first ∈ bodies, ∀ second ∈ bodies, frame header first ≤ frame header second →
      ¬ second.length < first.length ∧ ¬ (second.length = first.length ∧ second < first) := by
    intro first firstMem second secondMem ordered
    have notLess := ordered.not_gt
    rw [frame_lt_iff header (small second secondMem) (small first firstMem), not_or] at notLess
    exact notLess
  constructor
  · intro octetSorted
    -- the two orders agree on neighbours in either direction, hence on all members
    have agree : bodies.Pairwise fun first second =>
        (first.length < second.length → first ≤ second) ∧
          (second.length < first.length → second ≤ first) := by
      apply (sorted.and octetSorted).imp_of_mem
      rintro first second firstMem secondMem ⟨ordered, octetOrdered⟩
      refine ⟨fun _ => octetOrdered, fun less => ?_⟩
      exact absurd less (notShorter first firstMem second secondMem ordered).1
    intro shorter shorterMem longer longerMem less
    have ordered := (agree.forall_of_forall_of_flip (by simp)
      (agree.imp fun both => ⟨both.2, both.1⟩) shorterMem longerMem).1 less
    apply lt_of_le_of_ne ordered
    rintro rfl
    exact lt_irrefl _ less
  · intro agrees
    apply sorted.imp_of_mem
    intro first second firstMem secondMem ordered
    obtain ⟨notLonger, notGreater⟩ := notShorter first firstMem second secondMem ordered
    apply not_lt.mp
    intro greater
    by_cases lengths : first.length < second.length
    · exact lt_asymm greater (agrees first firstMem second secondMem lengths)
    · exact notGreater ⟨by omega, greater⟩

end HnsDaneEngine.Frame
