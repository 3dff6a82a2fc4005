import Mathlib.Logic.Function.Basic

/-!
# Lineages

Nodes in a keyed table name the key of their parent and their own height.  An index by
height follows a tip when it holds the tip at its height, nothing above, and below every
entry the parent of that entry.  Such an index is determined by its tip: it holds the
ancestors of the tip.  Tables may grow under an index, and an index may grow at its tip.
Two indexes over compatible tables agree from a common entry downwards.
-/

namespace HnsDaneEngine.Data

universe u v

/-- The key of a node's parent, and the height of a node. -/
structure Kinship (κ : Type u) (ν : Type v) where
  parent : ν → κ
  height : ν → Nat

namespace Kinship

variable {κ : Type u} {ν : Type v} (kin : Kinship κ ν)

/-- The key after a number of steps from a node to its parent. -/
def climb (nodes : κ → Option ν) : Nat → κ → Option κ
  | 0, key => some key
  | steps + 1, key => (nodes key).bind fun node => climb nodes steps (kin.parent node)

/-- The ancestor of a node at a height; a node is an ancestor of itself. -/
def ancestorAt (nodes : κ → Option ν) (tip : κ) (height : Nat) : Option κ :=
  (nodes tip).bind fun node =>
    if height ≤ kin.height node then kin.climb nodes (kin.height node - height) tip else none

/-- Every entry is a node of its height, and below it is the parent of the node. -/
def Linked (nodes : κ → Option ν) (index : Nat → Option κ) : Prop :=
  ∀ ⦃height key⦄, index height = some key → ∃ node, nodes key = some node ∧
    kin.height node = height ∧ ∀ below, height = below + 1 → index below = some (kin.parent node)

/-- The index holds the tip and the tip's ancestors. -/
structure Follows (nodes : κ → Option ν) (index : Nat → Option κ) (tip : κ) : Prop where
  linked : kin.Linked nodes index
  top : ∃ node, nodes tip = some node ∧ index (kin.height node) = some tip ∧
    ∀ above, kin.height node < above → index above = none

variable {kin} {nodes : κ → Option ν} {index : Nat → Option κ}

theorem Linked.climb (linked : kin.Linked nodes index) {height : Nat} {key : κ}
    (entry : index height = some key) {steps : Nat} (inside : steps ≤ height) :
    kin.climb nodes steps key = index (height - steps) := by
  induction steps generalizing height key with
  | zero => rw [Kinship.climb, Nat.sub_zero, entry]
  | succ steps ih =>
    obtain ⟨node, node_eq, -, parent_eq⟩ := linked entry
    have below_eq := parent_eq (height - 1) (by omega)
    rw [Kinship.climb, node_eq, Option.bind_some, ih below_eq (by omega)]
    congr 1
    omega

variable {tip : κ} {node : ν} {larger : κ → Option ν}

/-- The entries of an index are the ancestors of its tip. -/
theorem Follows.eq_ancestorAt (follows : kin.Follows nodes index tip) (height : Nat) :
    index height = kin.ancestorAt nodes tip height := by
  obtain ⟨node, node_eq, entry, above⟩ := follows.top
  rw [ancestorAt, node_eq, Option.bind_some]
  split
  next inside =>
    rw [follows.linked.climb entry (Nat.sub_le _ _)]
    congr 1
    omega
  next outside => exact above height (Nat.lt_of_not_le outside)

/-- There is an entry at every height up to the tip. -/
theorem Follows.exists_entry (follows : kin.Follows nodes index tip)
    (node_eq : nodes tip = some node) {height : Nat} (inside : height ≤ kin.height node) :
    ∃ key entry, index height = some key ∧ nodes key = some entry ∧ kin.height entry = height := by
  obtain ⟨other, other_eq, top, -⟩ := follows.top
  obtain rfl : other = node := Option.some.inj (other_eq.symm.trans node_eq)
  have present : ∀ steps ≤ kin.height other, ∃ key, index (kin.height other - steps) = some key := by
    intro steps
    induction steps with
    | zero => exact fun _ => ⟨tip, top⟩
    | succ steps ih =>
      intro steps_le
      obtain ⟨key, entry⟩ := ih (by omega)
      obtain ⟨parent, -, -, below⟩ := follows.linked entry
      exact ⟨_, below _ (by omega)⟩
  obtain ⟨key, entry⟩ := present (kin.height other - height) (Nat.sub_le _ _)
  rw [Nat.sub_sub_self inside] at entry
  obtain ⟨found, found_eq, height_eq, -⟩ := follows.linked entry
  exact ⟨key, found, entry, found_eq, height_eq⟩

theorem Linked.mono (grows : ∀ key node, nodes key = some node → larger key = some node)
    (linked : kin.Linked nodes index) : kin.Linked larger index := by
  intro height key entry
  obtain ⟨node, node_eq, height_eq, below⟩ := linked entry
  exact ⟨node, grows key node node_eq, height_eq, below⟩

/-- New nodes do not disturb an index. -/
theorem Follows.mono (grows : ∀ key node, nodes key = some node → larger key = some node)
    (follows : kin.Follows nodes index tip) : kin.Follows larger index tip := by
  obtain ⟨node, node_eq, entry, above⟩ := follows.top
  exact ⟨follows.linked.mono grows, node, grows tip node node_eq, entry, above⟩

/-- An index with one entry, at height zero. -/
theorem Follows.root {key : κ} (node_eq : nodes key = some node) (height_eq : kin.height node = 0) :
    kin.Follows nodes (Function.update (fun _ => none) (kin.height node) (some key)) key := by
  constructor
  · intro height entry index_eq
    by_cases lowest : height = kin.height node
    · subst lowest
      rw [Function.update_self] at index_eq
      obtain rfl := Option.some.inj index_eq
      refine ⟨node, node_eq, rfl, ?_⟩
      intro below below_eq
      omega
    · rw [Function.update_of_ne lowest] at index_eq
      cases index_eq
  · refine ⟨node, node_eq, Function.update_self .., ?_⟩
    intro above above_lt
    exact Function.update_of_ne (by omega) _ _

/-- A child of the tip goes on top of the index. -/
theorem Follows.extend (follows : kin.Follows nodes index tip) {key : κ} {tipNode : ν}
    (tip_eq : nodes tip = some tipNode) (node_eq : nodes key = some node)
    (parent_eq : kin.parent node = tip) (height_eq : kin.height node = kin.height tipNode + 1) :
    kin.Follows nodes (Function.update index (kin.height node) (some key)) key := by
  obtain ⟨other, other_eq, top, above⟩ := follows.top
  obtain rfl : other = tipNode := Option.some.inj (other_eq.symm.trans tip_eq)
  constructor
  · intro height entry index_eq
    by_cases isTop : height = kin.height node
    · subst isTop
      rw [Function.update_self] at index_eq
      obtain rfl := Option.some.inj index_eq
      refine ⟨node, node_eq, rfl, ?_⟩
      intro below below_eq
      have below_top : below = kin.height other := by omega
      rw [Function.update_of_ne (by omega), below_top, top, parent_eq]
    · rw [Function.update_of_ne isTop] at index_eq
      obtain ⟨found, found_eq, found_height, below⟩ := follows.linked index_eq
      refine ⟨found, found_eq, found_height, ?_⟩
      intro under under_eq
      have inside : height ≤ kin.height other := by
        by_contra outside
        rw [above height (by omega)] at index_eq
        cases index_eq
      rw [Function.update_of_ne (by omega)]
      exact below under under_eq
  · refine ⟨node, node_eq, Function.update_self .., ?_⟩
    intro higher higher_lt
    rw [Function.update_of_ne (by omega)]
    exact above higher (by omega)

end Kinship

end HnsDaneEngine.Data
