import Mathlib.Data.List.Basic
import Mathlib.Data.Nat.Log

/-!
# Partial hash trees

A hash tree in which only some leaves are shown; a hidden subtree is known by its
digest alone.  The inputs of the hash function are separated by domain.  Two trees
with one digest agree wherever both are shown, or two different inputs that were
hashed for them have the same digest.
-/

namespace HnsDaneEngine.Merkle

universe u v w

/-- A hash function with the inputs of leaves, of inner nodes and of the padding. -/
structure Scheme (Item : Type u) (Digest : Type v) (Bytes : Type w) where
  hash : Bytes → Digest
  leaf : Item → Bytes
  node : Digest → Digest → Bytes
  padding : Bytes
  leaf_inj : ∀ {first second}, leaf first = leaf second → first = second
  node_inj : ∀ {left right left' right'}, node left right = node left' right' →
    left = left' ∧ right = right'
  leaf_ne_node : ∀ item left right, leaf item ≠ node left right
  leaf_ne_padding : ∀ item, leaf item ≠ padding
  node_ne_padding : ∀ left right, node left right ≠ padding

/-- A tree with hidden branches. -/
inductive PartialTree (Item : Type u) (Digest : Type v)
  | leaf (item : Item)
  | padding
  | hidden (digest : Digest)
  | node (left right : PartialTree Item Digest)
  deriving DecidableEq

variable {Item : Type u} {Digest : Type v} {Bytes : Type w}

namespace PartialTree

def digest (scheme : Scheme Item Digest Bytes) : PartialTree Item Digest → Digest
  | leaf item => scheme.hash (scheme.leaf item)
  | padding => scheme.hash scheme.padding
  | hidden digest => digest
  | node left right => scheme.hash (scheme.node (left.digest scheme) (right.digest scheme))

/-- The inputs that are hashed for the digest of a tree. -/
def inputs (scheme : Scheme Item Digest Bytes) : PartialTree Item Digest → List Bytes
  | leaf item => [scheme.leaf item]
  | padding => [scheme.padding]
  | hidden _ => []
  | node left right =>
    left.inputs scheme ++ right.inputs scheme ++
      [scheme.node (left.digest scheme) (right.digest scheme)]

/-- The input whose digest is that of the tree, unless the tree is hidden. -/
def preimage (scheme : Scheme Item Digest Bytes) : PartialTree Item Digest → Option Bytes
  | leaf item => some (scheme.leaf item)
  | padding => some scheme.padding
  | hidden _ => none
  | node left right => some (scheme.node (left.digest scheme) (right.digest scheme))

variable {scheme : Scheme Item Digest Bytes} {tree : PartialTree Item Digest}

theorem digest_of_preimage {input : Bytes} (shows : tree.preimage scheme = some input) :
    tree.digest scheme = scheme.hash input := by
  cases tree with
  | hidden digest => cases shows
  | _ =>
    cases shows
    rfl

theorem preimage_mem_inputs {input : Bytes} (shows : tree.preimage scheme = some input) :
    input ∈ tree.inputs scheme := by
  cases tree with
  | hidden digest => cases shows
  | _ =>
    cases shows
    simp [inputs]

theorem left_inputs_subset (left right left' right' : PartialTree Item Digest) :
    left.inputs scheme ++ left'.inputs scheme ⊆
      (node left right).inputs scheme ++ (node left' right').inputs scheme := by
  intro input member
  rcases List.mem_append.mp member with inFirst | inSecond
  · simp [inputs, inFirst]
  · simp [inputs, inSecond]

theorem right_inputs_subset (left right left' right' : PartialTree Item Digest) :
    right.inputs scheme ++ right'.inputs scheme ⊆
      (node left right).inputs scheme ++ (node left' right').inputs scheme := by
  intro input member
  rcases List.mem_append.mp member with inFirst | inSecond
  · simp [inputs, inFirst]
  · simp [inputs, inSecond]

/-- The shown leaves from left to right, each with its position at the depth of the
leaf; the tree itself is at the given position. -/
def shown : PartialTree Item Digest → Nat → List (Item × Nat)
  | leaf item, position => [(item, position)]
  | padding, _ => []
  | hidden _, _ => []
  | node left right, position =>
    left.shown (2 * position) ++ right.shown (2 * position + 1)

/-- Nothing is hidden. -/
def IsFull : PartialTree Item Digest → Prop
  | leaf _ => True
  | padding => True
  | hidden _ => False
  | node left right => left.IsFull ∧ right.IsFull

/-- All leaves are at one depth. -/
def HasDepth : PartialTree Item Digest → Nat → Prop
  | leaf _, depth => depth = 0
  | padding, _ => True
  | hidden _, _ => True
  | node left right, depth =>
    ∃ below, depth = below + 1 ∧ left.HasDepth below ∧ right.HasDepth below

end PartialTree

/-- Two different inputs with the same digest. -/
def Collision (scheme : Scheme Item Digest Bytes) (inputs : List Bytes) : Prop :=
  ∃ first ∈ inputs, ∃ second ∈ inputs, first ≠ second ∧ scheme.hash first = scheme.hash second

instance [DecidableEq Digest] [DecidableEq Bytes] (scheme : Scheme Item Digest Bytes)
    (inputs : List Bytes) : Decidable (Collision scheme inputs) :=
  inferInstanceAs (Decidable (∃ first ∈ inputs, ∃ second ∈ inputs,
    first ≠ second ∧ scheme.hash first = scheme.hash second))

variable {scheme : Scheme Item Digest Bytes} {tree other full : PartialTree Item Digest}

theorem Collision.mono {inputs more : List Bytes} (collision : Collision scheme inputs)
    (subset : inputs ⊆ more) : Collision scheme more := by
  rcases collision with ⟨first, first_mem, second, second_mem, different, same⟩
  exact ⟨first, subset first_mem, second, subset second_mem, different, same⟩

/-- Two trees are the same wherever both are shown. -/
inductive Compatible : PartialTree Item Digest → PartialTree Item Digest → Prop
  | hiddenLeft (digest : Digest) (tree : PartialTree Item Digest) :
      Compatible (.hidden digest) tree
  | hiddenRight (tree : PartialTree Item Digest) (digest : Digest) :
      Compatible tree (.hidden digest)
  | leaf (item : Item) : Compatible (.leaf item) (.leaf item)
  | padding : Compatible .padding .padding
  | node {left right left' right' : PartialTree Item Digest} (leftSame : Compatible left left')
      (rightSame : Compatible right right') : Compatible (.node left right) (.node left' right')

/-- Trees with one digest have one preimage, or there is a collision. -/
theorem preimage_eq_or_collision (same : tree.digest scheme = other.digest scheme)
    {first second : Bytes} (first_eq : tree.preimage scheme = some first)
    (second_eq : other.preimage scheme = some second) :
    first = second ∨ Collision scheme (tree.inputs scheme ++ other.inputs scheme) := by
  by_cases equal : first = second
  · exact .inl equal
  · right
    refine ⟨first, ?_, second, ?_, equal, ?_⟩
    · exact List.mem_append_left _ (PartialTree.preimage_mem_inputs first_eq)
    · exact List.mem_append_right _ (PartialTree.preimage_mem_inputs second_eq)
    · rw [← PartialTree.digest_of_preimage first_eq, same, PartialTree.digest_of_preimage second_eq]

/-- A digest binds all that is shown of the tree, or there is a collision. -/
theorem compatible_or_collision (same : tree.digest scheme = other.digest scheme) :
    Compatible tree other ∨ Collision scheme (tree.inputs scheme ++ other.inputs scheme) := by
  induction tree generalizing other with
  | hidden digest => exact .inl (.hiddenLeft digest other)
  | leaf item =>
    cases other with
    | hidden digest => exact .inl (.hiddenRight _ digest)
    | leaf item' =>
      refine (preimage_eq_or_collision same rfl rfl).imp_left fun equal => ?_
      rw [scheme.leaf_inj equal]
      exact .leaf item'
    | padding =>
      refine (preimage_eq_or_collision same rfl rfl).imp_left fun equal => ?_
      exact absurd equal (scheme.leaf_ne_padding item)
    | node left right =>
      refine (preimage_eq_or_collision same rfl rfl).imp_left fun equal => ?_
      exact absurd equal (scheme.leaf_ne_node item _ _)
  | padding =>
    cases other with
    | hidden digest => exact .inl (.hiddenRight _ digest)
    | leaf item =>
      refine (preimage_eq_or_collision same rfl rfl).imp_left fun equal => ?_
      exact absurd equal.symm (scheme.leaf_ne_padding item)
    | padding => exact .inl .padding
    | node left right =>
      refine (preimage_eq_or_collision same rfl rfl).imp_left fun equal => ?_
      exact absurd equal.symm (scheme.node_ne_padding _ _)
  | node left right leftIh rightIh =>
    cases other with
    | hidden digest => exact .inl (.hiddenRight _ digest)
    | leaf item =>
      refine (preimage_eq_or_collision same rfl rfl).imp_left fun equal => ?_
      exact absurd equal.symm (scheme.leaf_ne_node item _ _)
    | padding =>
      refine (preimage_eq_or_collision same rfl rfl).imp_left fun equal => ?_
      exact absurd equal (scheme.node_ne_padding _ _)
    | node left' right' =>
      rcases preimage_eq_or_collision same rfl rfl with equal | collision
      · rcases scheme.node_inj equal with ⟨left_same, right_same⟩
        rcases leftIh left_same with leftCompatible | collision
        · rcases rightIh right_same with rightCompatible | collision
          · exact .inl (.node leftCompatible rightCompatible)
          · exact .inr (collision.mono (PartialTree.right_inputs_subset _ _ _ _))
        · exact .inr (collision.mono (PartialTree.left_inputs_subset _ _ _ _))
      · exact .inr collision

/-- A leaf shown by one tree is shown at the same position by a full one. -/
theorem Compatible.shown_subset (compatible : Compatible tree full) (isFull : full.IsFull)
    (position : Nat) :
    tree.shown position ⊆ full.shown position := by
  induction compatible generalizing position with
  | hiddenLeft digest other => exact List.nil_subset _
  | hiddenRight other digest => exact isFull.elim
  | leaf item => exact List.Subset.refl _
  | padding => exact List.Subset.refl _
  | node leftSame rightSame leftIh rightIh =>
    intro leaf shown
    rcases List.mem_append.mp shown with inLeft | inRight
    · exact List.mem_append_left _ (leftIh isFull.1 _ inLeft)
    · exact List.mem_append_right _ (rightIh isFull.2 _ inRight)

/-- A shown leaf fixes the depth. -/
theorem Compatible.depth_eq (compatible : Compatible tree full) (isFull : full.IsFull)
    {depth fullDepth : Nat} (hasDepth : tree.HasDepth depth)
    (fullHasDepth : full.HasDepth fullDepth) {position : Nat} (shows : tree.shown position ≠ []) :
    depth = fullDepth := by
  induction compatible generalizing position depth fullDepth with
  | hiddenLeft digest other => exact absurd rfl shows
  | hiddenRight other digest => exact isFull.elim
  | leaf item => exact hasDepth.trans fullHasDepth.symm
  | padding => exact absurd rfl shows
  | node leftSame rightSame leftIh rightIh =>
    rcases hasDepth with ⟨below, rfl, leftDepth, rightDepth⟩
    rcases fullHasDepth with ⟨fullBelow, rfl, leftFull, rightFull⟩
    rw [PartialTree.shown, ne_eq, List.append_eq_nil_iff, not_and_or] at shows
    rcases shows with inLeft | inRight
    · rw [leftIh isFull.1 leftDepth leftFull inLeft]
    · rw [rightIh isFull.2 rightDepth rightFull inRight]

namespace PartialTree

/-- The position of the last leaf, where the path to it is shown and only padding
follows it. -/
def last? : PartialTree Item Digest → Nat → Option Nat
  | leaf _, position => some position
  | padding, _ => none
  | hidden _, _ => none
  | node left padding, position => left.last? (2 * position)
  | node _ right, position => right.last? (2 * position + 1)

theorem last?_node_of_ne {left right : PartialTree Item Digest} (notPadding : right ≠ padding)
    (position : Nat) : (node left right).last? position = right.last? (2 * position + 1) := by
  cases right with
  | padding => exact absurd rfl notPadding
  | _ => rfl

end PartialTree

/-- Two trees of one digest that both show their last leaf have it at the same position. -/
theorem Compatible.last_eq (compatible : Compatible tree other) {position last otherLast : Nat}
    (last_eq : tree.last? position = some last)
    (otherLast_eq : other.last? position = some otherLast) : last = otherLast := by
  induction compatible generalizing position with
  | hiddenLeft digest other => cases last_eq
  | hiddenRight other digest => cases otherLast_eq
  | leaf item => exact Option.some.inj (last_eq.symm.trans otherLast_eq)
  | padding => cases last_eq
  | @node left right left' right' leftSame rightSame leftIh rightIh =>
    by_cases padded : right = .padding
    · subst padded
      cases rightSame with
      | hiddenRight other digest => cases otherLast_eq
      | padding => exact leftIh last_eq otherLast_eq
    by_cases otherPadded : right' = .padding
    · subst otherPadded
      cases rightSame with
      | hiddenLeft digest other => cases last_eq
      | padding => exact absurd rfl padded
    · rw [PartialTree.last?_node_of_ne padded] at last_eq
      rw [PartialTree.last?_node_of_ne otherPadded] at otherLast_eq
      exact rightIh last_eq otherLast_eq

end HnsDaneEngine.Merkle

/-!
## Hash trees built level by level

The parents of a level join its nodes in pairs; a level of odd length is padded on
the right.  The root is what is left when a level has one node.
-/

namespace HnsDaneEngine.Merkle

universe u v w

section

variable {α : Type u} {β : Type v} (join : α → α → α) (pad : α)

/-- The level above a level. -/
def parents : List α → List α
  | [] => []
  | [last] => [join last pad]
  | left :: right :: rest => join left right :: parents rest

theorem length_parents (level : List α) :
    (parents join pad level).length = (level.length + 1) / 2 := by
  induction level using parents.induct with
  | case1 => simp [parents]
  | case2 last => simp [parents]
  | case3 left right rest ih =>
    rw [parents, List.length_cons, ih]
    simp only [List.length_cons]
    omega

theorem getElem?_parents (level : List α) (index : Nat) :
    (parents join pad level)[index]? =
      level[2 * index]?.map fun left => join left (level[2 * index + 1]?.getD pad) := by
  induction level using parents.induct generalizing index with
  | case1 => simp [parents]
  | case2 last =>
    cases index with
    | zero => simp [parents]
    | succ index => simp [parents, Nat.mul_add]
  | case3 left right rest ih =>
    cases index with
    | zero => simp [parents]
    | succ index =>
      rw [parents, List.getElem?_cons_succ, ih]
      rfl

/-- The node above all others; an empty level has none and yields the padding. -/
def rootOf : List α → α
  | [] => pad
  | [root] => root
  | left :: right :: rest => rootOf (parents join pad (left :: right :: rest))
termination_by level => level.length
decreasing_by
  rw [length_parents]
  simp only [List.length_cons]
  omega

variable {level : List α} {join' : β → β → β} {property : α → Prop}

theorem rootOf_of_one_lt (wide : 1 < level.length) :
    rootOf join pad level = rootOf join pad (parents join pad level) := by
  rcases level with _ | ⟨left, _ | ⟨right, rest⟩⟩
  · simp at wide
  · simp at wide
  · rw [rootOf]

variable {join pad}

theorem map_parents {pad' : β} {f : α → β}
    (joined : ∀ left right, f (join left right) = join' (f left) (f right)) (padded : f pad = pad')
    (level : List α) : (parents join pad level).map f = parents join' pad' (level.map f) := by
  induction level using parents.induct with
  | case1 => rfl
  | case2 last => simp [parents, joined, padded]
  | case3 left right rest ih => simp [parents, joined, ih]

/-- A map that respects joining takes roots to roots. -/
theorem map_rootOf {pad' : β} {f : α → β}
    (joined : ∀ left right, f (join left right) = join' (f left) (f right)) (padded : f pad = pad')
    (level : List α) : f (rootOf join pad level) = rootOf join' pad' (level.map f) := by
  induction level using rootOf.induct join pad with
  | case1 => simp [rootOf, padded]
  | case2 root => simp [rootOf]
  | case3 left right rest ih =>
    rw [rootOf, ih, map_parents joined padded, List.map_cons, List.map_cons]
    exact (rootOf.eq_3 join' pad' _ _ _).symm

theorem forall_parents
    (joined : ∀ left right, property left → property right → property (join left right))
    (padded : property pad) (holds : ∀ node ∈ level, property node) :
    ∀ node ∈ parents join pad level, property node := by
  induction level using parents.induct with
  | case1 => simp [parents]
  | case2 last => simpa [parents] using joined _ _ (holds last (by simp)) padded
  | case3 left right rest ih =>
    simp only [List.forall_mem_cons] at holds
    rw [parents, List.forall_mem_cons]
    exact ⟨joined _ _ holds.1 holds.2.1, ih holds.2.2⟩

theorem rootOf_property
    (joined : ∀ left right, property left → property right → property (join left right))
    (padded : property pad) (holds : ∀ node ∈ level, property node) :
    property (rootOf join pad level) := by
  induction level using rootOf.induct join pad with
  | case1 => simpa [rootOf] using padded
  | case2 root => simpa [rootOf] using holds
  | case3 left right rest ih =>
    rw [rootOf]
    exact ih (forall_parents joined padded holds)

end

variable {Item : Type u} {Digest : Type v} {Bytes : Type w}

/-- The hash tree of a list of items. -/
def fullTree (items : List Item) : PartialTree Item Digest :=
  rootOf .node .padding (items.map .leaf)

/-- The root of the hash tree, computed level by level on digests. -/
def merkleRoot (scheme : Scheme Item Digest Bytes) (items : List Item) : Digest :=
  rootOf (fun left right => scheme.hash (scheme.node left right)) (scheme.hash scheme.padding)
    (items.map fun item => scheme.hash (scheme.leaf item))

theorem digest_fullTree (scheme : Scheme Item Digest Bytes) (items : List Item) :
    (fullTree items).digest scheme = merkleRoot scheme items := by
  have mapped : (rootOf PartialTree.node .padding (items.map .leaf)).digest scheme =
      rootOf (fun left right => scheme.hash (scheme.node left right)) (scheme.hash scheme.padding)
        ((items.map PartialTree.leaf).map (PartialTree.digest scheme)) :=
    map_rootOf (fun _ _ => rfl) rfl _
  rw [List.map_map] at mapped
  exact mapped

variable (items : List Item)

theorem fullTree_isFull : (fullTree items : PartialTree Item Digest).IsFull := by
  apply rootOf_property (fun _ _ left right => ⟨left, right⟩) True.intro
  simp [PartialTree.IsFull]

/-- The shown leaves of a level whose first node is at the given position. -/
def shownLevel : List (PartialTree Item Digest) → Nat → List (Item × Nat)
  | [], _ => []
  | tree :: level, position => tree.shown position ++ shownLevel level (position + 1)

theorem shownLevel_parents (level : List (PartialTree Item Digest)) (position : Nat) :
    shownLevel (parents .node .padding level) position = shownLevel level (2 * position) := by
  induction level using parents.induct generalizing position with
  | case1 => rfl
  | case2 last => simp [parents, shownLevel, PartialTree.shown]
  | case3 left right rest ih =>
    rw [parents, shownLevel, ih, PartialTree.shown, shownLevel, shownLevel, List.append_assoc]
    rfl

theorem shown_rootOf (level : List (PartialTree Item Digest)) :
    (rootOf .node .padding level).shown 0 = shownLevel level 0 := by
  induction level using rootOf.induct PartialTree.node PartialTree.padding with
  | case1 => simp [rootOf, shownLevel, PartialTree.shown]
  | case2 root => simp [rootOf, shownLevel]
  | case3 left right rest ih =>
    rw [rootOf, ih, shownLevel_parents]

theorem shownLevel_leaves (position : Nat) :
    shownLevel (items.map PartialTree.leaf : List (PartialTree Item Digest)) position =
      items.zipIdx position := by
  induction items generalizing position with
  | nil => rfl
  | cons item items ih => simp [shownLevel, PartialTree.shown, ih]

/-- The leaves of the tree are the items in order. -/
theorem shown_fullTree : (fullTree items : PartialTree Item Digest).shown 0 = items.zipIdx := by
  rw [fullTree, shown_rootOf, shownLevel_leaves]

theorem hasDepth_parents {level : List (PartialTree Item Digest)} {depth : Nat}
    (holds : ∀ tree ∈ level, tree.HasDepth depth) :
    ∀ tree ∈ parents .node .padding level, tree.HasDepth (depth + 1) := by
  induction level using parents.induct with
  | case1 => simp [parents]
  | case2 last =>
    simp only [List.forall_mem_singleton] at holds
    simp only [parents, List.forall_mem_singleton]
    exact ⟨depth, rfl, holds, True.intro⟩
  | case3 left right rest ih =>
    simp only [List.forall_mem_cons] at holds
    rw [parents, List.forall_mem_cons]
    exact ⟨⟨depth, rfl, holds.1, holds.2.1⟩, ih holds.2.2⟩

theorem hasDepth_rootOf (level : List (PartialTree Item Digest)) {depth : Nat}
    (holds : ∀ tree ∈ level, tree.HasDepth depth) :
    (rootOf .node .padding level).HasDepth (depth + Nat.clog 2 level.length) := by
  induction level using rootOf.induct PartialTree.node PartialTree.padding generalizing depth with
  | case1 => simp [rootOf, PartialTree.HasDepth]
  | case2 root => simpa [rootOf] using holds
  | case3 left right rest ih =>
    have halved := ih (hasDepth_parents holds)
    rw [length_parents] at halved
    rw [rootOf, Nat.clog_of_two_le (by decide) (by simp), ← Nat.add_assoc, Nat.add_right_comm]
    exact halved

/-- All leaves are as deep as their number demands. -/
theorem hasDepth_fullTree :
    (fullTree items : PartialTree Item Digest).HasDepth (Nat.clog 2 items.length) := by
  have leaves : ∀ tree ∈ (items.map PartialTree.leaf : List (PartialTree Item Digest)),
      tree.HasDepth 0 := by
    simp [PartialTree.HasDepth]
  have depth := hasDepth_rootOf _ leaves
  rwa [List.length_map, Nat.zero_add] at depth

end HnsDaneEngine.Merkle
