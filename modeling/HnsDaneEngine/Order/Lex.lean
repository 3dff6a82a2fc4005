import HnsDaneEngine.Encoding.Octets
import Mathlib.Algebra.GroupWithZero.Nat
import Mathlib.Data.List.Lex
import Mathlib.Order.Lattice

/-!
# Lexicographic order and prefixes

Octets are linearly ordered by value, and lists inherit the lexicographic
order in which the absence of an element sorts before every element.  The
lists that extend one fixed list form an interval of this order which starts at
that list; canonical name order is an instance, because a name's descendants
extend its reversed label sequence.
-/

namespace HnsDaneEngine.Order

universe u

/-- Octets in numeric order. -/
instance octetLinearOrder : LinearOrder UInt8 where
  le_refl _ := UInt8.le_refl _
  le_trans _ _ _ := UInt8.le_trans
  le_antisymm _ _ := UInt8.le_antisymm
  le_total _ _ := UInt8.le_total _ _
  lt_iff_le_not_ge _ _ := by
    simp only [UInt8.lt_iff_toNat_lt, UInt8.le_iff_toNat_le]
    omega
  toDecidableLE := inferInstance
  toDecidableLT := inferInstance
  toDecidableEq := inferInstance

variable {α : Type u} [LinearOrder α]

/-- Comparison of two sequences by the first pair of elements that differs; a
sequence that ends first is smaller. -/
def lexCmp (elementCmp : α → α → Ordering) : List α → List α → Ordering
  | left :: lefts, right :: rights =>
    match elementCmp left right with
    | .eq => lexCmp elementCmp lefts rights
    | ordering => ordering
  | [], _ :: _ => .lt
  | _ :: _, [] => .gt
  | [], [] => .eq

/-- If the element comparison decides the element order, then `lexCmp` decides
the lexicographic order. -/
theorem lexCmp_compares {elementCmp : α → α → Ordering}
    (compares : ∀ left right, (elementCmp left right).Compares left right)
    (lefts rights : List α) : (lexCmp elementCmp lefts rights).Compares lefts rights := by
  induction lefts generalizing rights with
  | nil =>
    cases rights with
    | nil => exact rfl
    | cons right rights => exact List.nil_lt_cons right rights
  | cons left lefts ih =>
    cases rights with
    | nil => exact List.nil_lt_cons left lefts
    | cons right rights =>
      have headCompares := compares left right
      simp only [lexCmp]
      cases ordering : elementCmp left right with
      | lt =>
        rw [ordering] at headCompares
        exact List.cons_lt_cons_iff.mpr (.inl headCompares)
      | gt =>
        rw [ordering] at headCompares
        exact List.cons_lt_cons_iff.mpr (.inl headCompares)
      | eq =>
        rw [ordering] at headCompares
        obtain rfl : left = right := headCompares
        have tailCompares := ih rights
        cases tailOrdering : lexCmp elementCmp lefts rights with
        | lt =>
          rw [tailOrdering] at tailCompares
          exact List.cons_lt_cons_iff.mpr (.inr ⟨rfl, tailCompares⟩)
        | gt =>
          rw [tailOrdering] at tailCompares
          exact List.cons_lt_cons_iff.mpr (.inr ⟨rfl, tailCompares⟩)
        | eq =>
          rw [tailOrdering] at tailCompares
          exact congrArg (left :: ·) tailCompares

/-- Octet strings are compared octet by octet. -/
def bytesCmp : Octets → Octets → Ordering :=
  lexCmp cmp

theorem bytesCmp_compares (left right : Octets) : (bytesCmp left right).Compares left right :=
  lexCmp_compares cmp_compares left right

/-- A list sorts before each of its proper extensions. -/
theorem lt_of_isPrefix_of_ne {base extended : List α}
    (extends_ : base <+: extended) (ne : base ≠ extended) : base < extended := by
  induction base generalizing extended with
  | nil =>
    cases extended with
    | nil => exact absurd rfl ne
    | cons head tail => exact List.nil_lt_cons head tail
  | cons head tail ih =>
    rcases extends_ with ⟨rest, rfl⟩
    apply List.cons_lt_cons_iff.mpr
    refine .inr ⟨rfl, ih (List.prefix_append tail rest) ?_⟩
    intro tails_eq
    exact ne (congrArg (head :: ·) tails_eq)

/-- The extensions of a list are convex: whatever sorts after the list and no
later than one of its extensions is an extension itself. -/
theorem isPrefix_of_lt_of_le {base middle extended : List α}
    (extends_ : base <+: extended) (above : base < middle) (below : middle ≤ extended) :
    base <+: middle := by
  induction base generalizing middle extended with
  | nil => exact List.nil_prefix
  | cons head tail ih =>
    rcases extends_ with ⟨rest, rfl⟩
    cases middle with
    | nil => exact absurd above (List.not_lt_nil _)
    | cons middleHead middleTail =>
      have notBefore := below.not_gt
      rw [List.cons_append, List.cons_lt_cons_iff] at notBefore
      rcases List.cons_lt_cons_iff.mp above with less | ⟨rfl, tailLess⟩
      · exact absurd (.inl less) notBefore
      have tailBelow : middleTail ≤ tail ++ rest := by
        apply not_lt.mp
        intro greater
        exact notBefore (.inr ⟨rfl, greater⟩)
      exact List.prefix_cons_inj head |>.mpr (ih (List.prefix_append tail rest) tailLess tailBelow)

end HnsDaneEngine.Order
