import HnsDaneEngine.Order.Cyclic
import HnsDaneEngine.Order.Lex
import Mathlib.Data.Finset.Basic

/-!
# Zones, existing names and what denies them

A zone is a finite set of owner names at or below an apex.  Names are label
sequences with the leaf label first, so that the ancestors of a name are its
suffixes, and canonical order compares the reversed sequences.  A name exists
when some owner is at or below it; it need not be an owner itself.  These
existing non-owners (empty non-terminals) are the reason why covering a name
in the owner order does not yet deny it: it does so exactly when the covering
link does not end below that name.
-/

namespace HnsDaneEngine

open HnsDaneEngine.Order

universe u

/-- Owner names of one zone with the record types present at each of them. -/
structure Zone (L : Type u) where
  apex : List L
  owners : Finset (List L)
  types : List L → UInt16 → Bool
  apex_mem : apex ∈ owners
  apex_suffix : ∀ owner ∈ owners, apex <:+ owner
  types_mem : ∀ name code, types name code = true → name ∈ owners

namespace Zone

variable {L : Type u}

/-- Where the types of two names are listed, only these names have any. -/
theorem mem_pair_of_types [DecidableEq L] [BEq L] [LawfulBEq L] {name first second : List L}
    {present others : Bool}
    (types : ((name == first && present) || (name == second && others)) = true) :
    name ∈ ({first, second} : Finset (List L)) := by
  simp only [Bool.or_eq_true, Bool.and_eq_true, beq_iff_eq] at types
  rw [Finset.mem_insert, Finset.mem_singleton]
  exact types.imp And.left And.left

/-- A name exists when an owner is at or below it. -/
def Occurs (zone : Zone L) (name : List L) : Prop :=
  ∃ owner ∈ zone.owners, name <:+ owner

/-- The longest existing ancestor of a name, or the name itself when it
exists. -/
def IsClosestEncloser (zone : Zone L) (name encloser : List L) : Prop :=
  encloser <:+ name ∧ zone.Occurs encloser ∧
    ∀ other, other <:+ name → zone.Occurs other → other <:+ encloser

/-- A wildcard owner answers for a name that does not exist and whose closest
encloser is the parent of the wildcard. -/
def Synthesises (zone : Zone L) (star : L) (wildcard name : List L) : Prop :=
  wildcard ∈ zone.owners ∧ ¬ zone.Occurs name ∧
    ∃ encloser, zone.IsClosestEncloser name encloser ∧ wildcard = star :: encloser

/-- The zone has nothing at or below the name, and no wildcard answers for
it. -/
def Denies (zone : Zone L) (star : L) (name : List L) : Prop :=
  (∀ owner ∈ zone.owners, ¬ name <:+ owner) ∧ ∀ wildcard, ¬ zone.Synthesises star wildcard name

/-- A delegation point: an owner with NS records (type 2) and no SOA record
(type 6). -/
def IsDelegation (zone : Zone L) (name : List L) : Prop :=
  name ∈ zone.owners ∧ zone.types name 2 = true ∧ zone.types name 6 = false

instance [DecidableEq L] (zone : Zone L) (name : List L) : Decidable (zone.IsDelegation name) :=
  inferInstanceAs (Decidable (_ ∧ _))

/-- No delegation point lies strictly above the name. -/
def Authoritative (zone : Zone L) (name : List L) : Prop :=
  ∀ owner ∈ zone.owners, owner <:+ name ∧ owner ≠ name → ¬ zone.IsDelegation owner

instance [DecidableEq L] (zone : Zone L) (name : List L) : Decidable (zone.Authoritative name) :=
  inferInstanceAs (Decidable (∀ owner ∈ zone.owners,
    owner <:+ name ∧ owner ≠ name → ¬ zone.IsDelegation owner))

variable {zone : Zone L} {owner name next : List L}

theorem occurs_of_mem (mem : owner ∈ zone.owners) : zone.Occurs owner :=
  ⟨owner, mem, List.suffix_rfl⟩

theorem occurs_apex (zone : Zone L) : zone.Occurs zone.apex :=
  occurs_of_mem zone.apex_mem

/-- Ancestors of existing names exist. -/
theorem Occurs.of_suffix {ancestor : List L} (occurs : zone.Occurs name)
    (above : ancestor <:+ name) : zone.Occurs ancestor := by
  rcases occurs with ⟨owner, mem, below⟩
  exact ⟨owner, mem, above.trans below⟩

theorem denies_iff (zone : Zone L) (star : L) (name : List L) :
    zone.Denies star name ↔ ¬ zone.Occurs name ∧
        ∀ encloser, zone.IsClosestEncloser name encloser → star :: encloser ∉ zone.owners := by
  constructor
  · rintro ⟨absent, unsynthesised⟩
    have notOccurs : ¬ zone.Occurs name := by
      rintro ⟨owner, mem, below⟩
      exact absent owner mem below
    refine ⟨notOccurs, ?_⟩
    intro encloser closest wildcardMem
    exact unsynthesised (star :: encloser) ⟨wildcardMem, notOccurs, encloser, closest, rfl⟩
  · rintro ⟨notOccurs, noWildcard⟩
    refine ⟨fun owner mem below => notOccurs ⟨owner, mem, below⟩, ?_⟩
    rintro _ ⟨wildcardMem, _, encloser, closest, rfl⟩
    exact noWildcard encloser closest wildcardMem

/-- Two longest existing ancestors of one name coincide. -/
theorem IsClosestEncloser.unique {first second : List L}
    (firstClosest : zone.IsClosestEncloser name first)
    (secondClosest : zone.IsClosestEncloser name second) : first = second := by
  have firstBelow := secondClosest.2.2 first firstClosest.1 firstClosest.2.1
  have secondBelow := firstClosest.2.2 second secondClosest.1 secondClosest.2.1
  exact firstBelow.eq_of_length_le secondBelow.length_le

/-- An existing ancestor is the closest encloser as soon as the name one label
longer does not exist. -/
theorem isClosestEncloser_of_nextCloser {encloser : List L} {label : L}
    (occurs : zone.Occurs encloser) (absent : ¬ zone.Occurs (label :: encloser))
    (nextCloser : label :: encloser <:+ name) : zone.IsClosestEncloser name encloser := by
  refine ⟨(List.suffix_cons label encloser).trans nextCloser, occurs, ?_⟩
  intro other otherSuffix otherOccurs
  rcases List.suffix_or_suffix_of_suffix otherSuffix nextCloser with shorter | longer
  · rcases List.suffix_cons_iff.mp shorter with equal | suffix
    · exact absurd (equal ▸ otherOccurs) absent
    · exact suffix
  · exact absurd (otherOccurs.of_suffix longer) absent

variable [LinearOrder L]

/-- `next` is the owner after `owner` in canonical order, or the apex when
`owner` is the last one. -/
def IsNextOwner (zone : Zone L) (owner next : List L) : Prop :=
  owner ∈ zone.owners ∧
    ((next ∈ zone.owners ∧ owner.reverse < next.reverse ∧ ∀ other ∈ zone.owners,
          ¬ (owner.reverse < other.reverse ∧ other.reverse < next.reverse)) ∨
      (next = zone.apex ∧ ∀ other ∈ zone.owners, other.reverse ≤ owner.reverse))

instance (zone : Zone L) (owner next : List L) : Decidable (zone.IsNextOwner owner next) :=
  inferInstanceAs (Decidable (_ ∧ _))

/-- Coverage of a name by the canonical interval of one link. -/
def Covers (owner next name : List L) : Prop :=
  CyclicBetween owner.reverse next.reverse name.reverse

/-- The apex comes first in canonical order. -/
theorem apex_le (zone : Zone L) (mem : owner ∈ zone.owners) :
    zone.apex.reverse ≤ owner.reverse := by
  have extends_ : zone.apex.reverse <+: owner.reverse :=
    List.reverse_prefix.mpr (zone.apex_suffix owner mem)
  by_cases equal : zone.apex.reverse = owner.reverse
  · exact equal.le
  · exact (lt_of_isPrefix_of_ne extends_ equal).le

section

variable (link : zone.IsNextOwner owner next)

include link

theorem IsNextOwner.next_mem : next ∈ zone.owners := by
  rcases link.2 with ⟨mem, _⟩ | ⟨rfl, _⟩
  · exact mem
  · exact zone.apex_mem

/-- The owner chain is the cyclic order of the owners' canonical keys. -/
theorem IsNextOwner.isCyclicSuccessor :
    IsCyclicSuccessor {key | ∃ member ∈ zone.owners, member.reverse = key}
      owner.reverse next.reverse := by
  refine ⟨⟨owner, link.1, rfl⟩, ⟨next, link.next_mem, rfl⟩, ?_⟩
  rcases link.2 with ⟨_, less, between⟩ | ⟨rfl, greatest⟩
  · left
    refine ⟨less, ?_⟩
    rintro _ ⟨member, mem, rfl⟩
    exact between member mem
  right
  constructor
  · rintro _ ⟨member, mem, rfl⟩
    exact greatest member mem
  · rintro _ ⟨member, mem, rfl⟩
    exact zone.apex_le mem

/-- A covered name is not an owner. -/
theorem notMem_of_covers (covered : Covers owner next name) : name ∉ zone.owners := by
  intro mem
  exact link.isCyclicSuccessor.notMem covered ⟨name, mem, rfl⟩

/-- A covered name exists exactly when the covering link ends below it. -/
theorem occurs_iff_suffix_next (covered : Covers owner next name) :
    zone.Occurs name ↔ name <:+ next := by
  constructor
  · rintro ⟨member, mem, below⟩
    have ne : name.reverse ≠ member.reverse := by
      intro equal
      exact notMem_of_covers link covered (List.reverse_injective equal ▸ mem)
    have extends_ : name.reverse <+: member.reverse := List.reverse_prefix.mpr below
    obtain ⟨above, notAfter⟩ := link.isCyclicSuccessor.lt_next_le covered
      ⟨member, mem, rfl⟩ (lt_of_isPrefix_of_ne extends_ ne)
    exact List.reverse_prefix.mp (isPrefix_of_lt_of_le extends_ above notAfter)
  · intro below
    exact ⟨next, link.next_mem, below⟩

end

end Zone

end HnsDaneEngine

/-!
## Searching the ancestors of a name

The validators walk from a name towards the root and stop at the first proper
ancestor with some property.  With the leaf label first, the ancestor at label
position `start` is `labels.drop start`, and the walk increases `start`.
-/

namespace HnsDaneEngine.Zone

universe u

variable {L : Type u}

/-- The longest proper ancestor of a name that satisfies a predicate. -/
def IsLongestAncestor (supplied : List L → Prop) (name encloser : List L) : Prop :=
  encloser <:+ name ∧ encloser ≠ name ∧ supplied encloser ∧
    ∀ other, other <:+ name → other ≠ name → supplied other → other <:+ encloser

variable {start : Nat} {name : List L} {supplied : List L → Prop}

theorem drop_ne_self {labels : List L} (positive : 1 ≤ start) (inside : start ≤ labels.length) :
    labels.drop start ≠ labels := by
  intro equal
  have lengths := congrArg List.length equal
  rw [List.length_drop] at lengths
  omega

/-- A proper ancestor is the ancestor at a positive label position. -/
theorem exists_drop_of_suffix {ancestor : List L} (suffix : ancestor <:+ name)
    (ne : ancestor ≠ name) :
    ∃ start, 1 ≤ start ∧ start ≤ name.length ∧ name.drop start = ancestor := by
  obtain ⟨front, rfl⟩ := suffix
  have frontPos : 0 < front.length := by
    apply List.length_pos_iff.mpr
    rintro rfl
    exact ne rfl
  exact ⟨front.length, frontPos, by simp, List.drop_left⟩

/-- A proper ancestor is preceded by the name one label longer. -/
theorem exists_nextCloser {ancestor : List L} (suffix : ancestor <:+ name) (ne : ancestor ≠ name) :
    ∃ label, label :: ancestor <:+ name := by
  obtain ⟨front, rfl⟩ := suffix
  rcases List.eq_nil_or_concat front with rfl | ⟨rest, label, rfl⟩
  · exact absurd rfl ne
  · exact ⟨label, rest, by simp⟩

/-- The name one label longer than the ancestor at a positive position. -/
theorem cons_drop_suffix {label : L} (positive : 1 ≤ start) (inside : start ≤ name.length)
    (nextCloser : label :: name.drop start <:+ name) :
    name.drop (start - 1) = label :: name.drop start := by
  have suffix : name.drop (start - 1) <:+ name := List.drop_suffix _ _
  rcases List.suffix_or_suffix_of_suffix suffix nextCloser with shorter | longer
  · apply shorter.eq_of_length
    simp only [List.length_cons, List.length_drop]
    omega
  · apply (longer.eq_of_length _).symm
    simp only [List.length_cons, List.length_drop]
    omega

/-- Being the longest ancestor, in terms of label positions. -/
theorem isLongestAncestor_drop_iff (positive : 1 ≤ start) (inside : start ≤ name.length) :
    IsLongestAncestor supplied name (name.drop start) ↔ supplied (name.drop start) ∧
        ∀ earlier, 1 ≤ earlier → earlier < start → ¬ supplied (name.drop earlier) := by
  constructor
  · rintro ⟨_, _, startSupplied, longest⟩
    refine ⟨startSupplied, ?_⟩
    intro earlier earlierPositive before earlierSupplied
    have suffix := longest (name.drop earlier) (List.drop_suffix earlier name)
      (drop_ne_self earlierPositive (by omega)) earlierSupplied
    have lengths := suffix.length_le
    simp only [List.length_drop] at lengths
    omega
  · rintro ⟨startSupplied, none⟩
    refine ⟨List.drop_suffix start name, drop_ne_self positive inside, startSupplied, ?_⟩
    intro other suffix ne otherSupplied
    obtain ⟨otherStart, otherPositive, _, rfl⟩ := exists_drop_of_suffix suffix ne
    have notBefore : ¬ otherStart < start := fun before =>
      none otherStart otherPositive before otherSupplied
    exact List.drop_suffix_drop_left name (Nat.le_of_not_lt notBefore)

/-- The position search, bounded by a label position. -/
theorem find_ancestor_eq_some_iff {bound : Nat} {test : Nat → Bool}
    (test_iff : ∀ start ≤ bound, test start = true ↔ supplied (name.drop start)) (start : Nat) :
    (List.range' 1 bound).find? test = some start ↔
      1 ≤ start ∧ start ≤ bound ∧ supplied (name.drop start) ∧
        ∀ earlier, 1 ≤ earlier → earlier < start → ¬ supplied (name.drop earlier) := by
  rw [List.find?_range'_eq_some]
  constructor
  · rintro ⟨found, inRange, earlierFail⟩
    have bounds := List.mem_range'_1.mp inRange
    refine ⟨bounds.1, by omega, (test_iff start (by omega)).mp found, ?_⟩
    intro earlier positive before earlierSupplied
    have failed := earlierFail earlier positive before
    rw [(test_iff earlier (by omega)).mpr earlierSupplied] at failed
    contradiction
  · rintro ⟨positive, inside, startSupplied, none⟩
    refine ⟨(test_iff start inside).mpr startSupplied,
      List.mem_range'_1.mpr ⟨positive, by omega⟩, ?_⟩
    intro earlier earlierPositive before
    have failed : ¬ test earlier = true := by
      rw [test_iff earlier (by omega)]
      exact none earlier earlierPositive before
    simpa using failed

end HnsDaneEngine.Zone

/-!
## Chains of hashed names

Hashed denial lists the hashes of existing names, each with the next hash in
cyclic order.  Empty non-terminals are listed like owners.  A zone may leave
out some existing names; every link over the hash of such a name carries the
opt-out flag, so that a link without the flag passes over no existing name.
-/

namespace HnsDaneEngine.Zone

open HnsDaneEngine.Order

universe u v

variable {L : Type u} {H : Type v} [LinearOrder H]

/-- The existing names whose hashes are listed, no two of them with the same
hash. -/
structure HashChain (zone : Zone L) (hash : List L → Option H) where
  names : Finset (List L)
  existing : ∀ name ∈ names, zone.apex <:+ name ∧ zone.Occurs name
  hash_inj : ∀ first ∈ names, ∀ second ∈ names, ∀ value,
    hash first = some value → hash second = some value → first = second

namespace HashChain

variable {zone : Zone L} {hash : List L → Option H}

def hashes (chain : HashChain zone hash) : Set H :=
  {value | ∃ name ∈ chain.names, hash name = some value}

/-- The link of a listed name. -/
structure IsLink (chain : HashChain zone hash) (optOut : Bool) (name : List L)
    (owner next : H) : Prop where
  name_mem : name ∈ chain.names
  owner_eq : hash name = some owner
  successor : IsCyclicSuccessor chain.hashes owner next
  flagged : optOut = false → ∀ other, zone.apex <:+ other → zone.Occurs other →
    other ∉ chain.names → ∀ value, hash other = some value → ¬ CyclicBetween owner next value

variable {chain : HashChain zone hash} {name : List L}

/-- A name whose hash is inside a link without opt-out does not exist. -/
theorem IsLink.absent {other : List L} {owner next value : H}
    (link : chain.IsLink false name owner next) (below : zone.apex <:+ other)
    (other_eq : hash other = some value) (covered : CyclicBetween owner next value) :
    ¬ zone.Occurs other := by
  intro occurs
  by_cases listed : other ∈ chain.names
  · exact link.successor.notMem covered ⟨other, listed, other_eq⟩
  · exact link.flagged rfl other below occurs listed value other_eq covered

/-- The names that a name error for `name` depends on: existing names, the
ancestors of the name and the wildcard children of these ancestors. -/
def Relevant (zone : Zone L) (star : L) (name candidate : List L) : Prop :=
  zone.apex <:+ candidate ∧
    (zone.Occurs candidate ∨ candidate <:+ name ∨
      ∃ above, above <:+ name ∧ candidate = star :: above)

/-- No two relevant names have the same hash. -/
def CollisionFree (zone : Zone L) (hash : List L → Option H) (star : L) (name : List L) : Prop :=
  ∀ first second value, Relevant zone star name first → Relevant zone star name second →
    hash first = some value → hash second = some value → first = second

/-- A name is passed over by a link without opt-out. -/
def Covered (chain : HashChain zone hash) (name : List L) : Prop :=
  ∃ member owner next value, chain.IsLink false member owner next ∧
    hash name = some value ∧ CyclicBetween owner next value

theorem Covered.absent (covered : chain.Covered name) (below : zone.apex <:+ name) :
    ¬ zone.Occurs name := by
  obtain ⟨_, _, _, _, link, name_eq, between⟩ := covered
  exact link.absent below name_eq between

/-- Whatever ancestor the proof starts from: when its hash is listed, and the
name one label longer and its wildcard child are passed over by links without
opt-out, then that ancestor is the closest encloser and the name is denied. -/
theorem denies_of_covered (chain : HashChain zone hash) {star label : L} {encloser : List L}
    (collisionFree : CollisionFree zone hash star name) (inZone : zone.apex <:+ encloser)
    (nextCloser : label :: encloser <:+ name) {value : H} (encloser_eq : hash encloser = some value)
    (listed : value ∈ chain.hashes) (nextCovered : chain.Covered (label :: encloser))
    (wildcardCovered : chain.Covered (star :: encloser)) :
    ¬ zone.Occurs name ∧
      ∀ closest, zone.IsClosestEncloser name closest → ¬ zone.Occurs (star :: closest) := by
  obtain ⟨member, memberListed, member_eq⟩ := listed
  obtain ⟨memberInZone, memberOccurs⟩ := chain.existing member memberListed
  have encloserAbove : encloser <:+ name :=
    (List.suffix_cons label encloser).trans nextCloser
  have encloser_member : encloser = member :=
    collisionFree encloser member value ⟨inZone, .inr (.inl encloserAbove)⟩
      ⟨memberInZone, .inl memberOccurs⟩ encloser_eq member_eq
  have nextAbsent := nextCovered.absent (inZone.trans (List.suffix_cons label encloser))
  have isClosest := isClosestEncloser_of_nextCloser (encloser_member ▸ memberOccurs)
    nextAbsent nextCloser
  constructor
  · intro occurs
    exact nextAbsent (occurs.of_suffix nextCloser)
  · intro closest closestIs
    rw [closestIs.unique isClosest]
    exact wildcardCovered.absent (inZone.trans (List.suffix_cons star encloser))

end HashChain

end HnsDaneEngine.Zone
