import HnsDaneEngine.Urkel.Exclusion

/-!
# Proofs for a whole tree

The verifier knows a root hash only.  Here the root is that of a tree, which has a
value for some keys, and the proof for a key is read off the tree.  It opens the hash of
the tree, so whatever is accepted says the same of the key, unless the strings hashed for
it and for the tree collide.
-/

namespace HnsDaneEngine.Urkel

open Primitives

/-- A tree in which a node skips the bits that all keys below it share. -/
inductive Tree
  | empty
  | leaf (key : Hash) (value : Octets)
  | node (bitPrefix : BitPrefix) (left right : Tree)

/-- The proof with one more node above its own. -/
def UrkelProof.below (node : UrkelProofNode) (proof : UrkelProof) : UrkelProof :=
  { proof with nodes := node :: proof.nodes }

namespace Tree

section

variable (blake2b256 : Octets → Hash) (key : Hash)

def hash : Tree → Hash
  | empty => .zero
  | leaf key value => blake2b256 (leafInput key (blake2b256 value))
  | node bitPrefix left right => blake2b256 (internalInput bitPrefix (hash left) (hash right))

/-- The strings hashed for the tree. -/
def hashed : Tree → List Octets
  | empty => []
  | leaf key value => [value, leafInput key (blake2b256 value)]
  | node bitPrefix left right =>
    internalInput bitPrefix (left.hash blake2b256) (right.hash blake2b256) ::
      (hashed left ++ hashed right)

/-- The value of the key, of which the bits before the depth led here. -/
def lookup (depth : Nat) : Tree → Option Octets
  | empty => none
  | leaf other value => if other = key then some value else none
  | node bitPrefix left right =>
    if bitPrefix.has key.bytes depth then
      if hasBit key.bytes (depth + bitPrefix.size) then
        lookup (depth + bitPrefix.size + 1) right
      else lookup (depth + bitPrefix.size + 1) left
    else none

/-- The proof for the key: the hashes of the children beside its path, down to where
the path ends. -/
def prove (depth : Nat) : Tree → UrkelProof
  | empty => ⟨typeDeadend, depth, [], .deadend⟩
  | leaf other value =>
    if other = key then ⟨typeExists, depth, [], .exists_ value⟩
    else ⟨typeCollision, depth, [], .collision other (blake2b256 value)⟩
  | node bitPrefix left right =>
    if bitPrefix.has key.bytes depth then
      if hasBit key.bytes (depth + bitPrefix.size) then
        (prove (depth + bitPrefix.size + 1) right).below ⟨bitPrefix, left.hash blake2b256⟩
      else (prove (depth + bitPrefix.size + 1) left).below ⟨bitPrefix, right.hash blake2b256⟩
    else
      ⟨typeShort, depth, [], .short bitPrefix (left.hash blake2b256) (right.hash blake2b256)⟩

end

/-- No path is longer than the keys, and the values fit their length field. -/
def Fits (depth : Nat) : Tree → Prop
  | empty => depth ≤ urkelBits
  | leaf _ value => depth ≤ urkelBits ∧ value.length < 2 ^ 16
  | node bitPrefix left right =>
    Fits (depth + bitPrefix.size + 1) left ∧ Fits (depth + bitPrefix.size + 1) right

variable {blake2b256 : Octets → Hash} {key : Hash} {tree : Tree} {depth : Nat}

theorem Fits.depth_le (fits : tree.Fits depth) : depth ≤ urkelBits := by
  induction tree generalizing depth with
  | empty => exact fits
  | leaf other value => exact fits.1
  | node bitPrefix left right ihLeft ihRight =>
    have below := ihLeft fits.1
    omega

theorem has_of_empty {bitPrefix : BitPrefix} (empty : bitPrefix.size = 0) (keyBytes : Octets) :
    bitPrefix.has keyBytes depth = true := by
  simp [BitPrefix.has, BitPrefix.count, empty]

theorem value_prove : (tree.prove blake2b256 key depth).body.value = tree.lookup key depth := by
  induction tree generalizing depth with
  | empty => rfl
  | leaf other value =>
    rw [prove, lookup]
    split
    · rfl
    · rfl
  | node bitPrefix left right ihLeft ihRight =>
    rw [prove, lookup]
    split
    · split
      · exact ihRight
      · exact ihLeft
    · rfl

/-- The proof read off the tree leads from its hash down to where the path ends. -/
theorem opens_prove {hashed : List Octets} (fits : tree.Fits depth)
    (subset : tree.hashed blake2b256 ⊆ hashed) :
    Opens blake2b256 key hashed (tree.prove blake2b256 key depth).body depth
      (tree.hash blake2b256) (tree.prove blake2b256 key depth).nodes := by
  induction tree generalizing depth with
  | empty => exact rfl
  | leaf other value =>
    have leafMem := subset (List.mem_cons_of_mem _ (List.mem_singleton_self _))
    rw [prove]
    split
    · rename_i same
      subst same
      exact ⟨subset (List.mem_cons_self ..), leafMem, rfl⟩
    · rename_i different
      exact ⟨different, leafMem, rfl⟩
  | node bitPrefix left right ihLeft ihRight =>
    have size_le : bitPrefix.size ≤ urkelBits := by
      have below := fits.1.depth_le
      omega
    have inputMem := subset (List.mem_cons_self ..)
    have leftSubset : left.hashed blake2b256 ⊆ hashed := fun input mem =>
      subset (List.mem_cons_of_mem _ (List.mem_append_left _ mem))
    have rightSubset : right.hashed blake2b256 ⊆ hashed := fun input mem =>
      subset (List.mem_cons_of_mem _ (List.mem_append_right _ mem))
    rw [prove]
    split
    · rename_i matched
      split
      · rename_i bit
        exact ⟨size_le, matched, _, ihRight fits.2 rightSubset,
          by simpa [nodeInput, bit] using inputMem, by simp [nodeInput, bit, hash]⟩
      · rename_i bit
        exact ⟨size_le, matched, _, ihLeft fits.1 leftSubset,
          by simpa [nodeInput, bit] using inputMem, by simp [nodeInput, bit, hash]⟩
    · rename_i unmatched
      have nonempty : 0 < bitPrefix.size := by
        apply Nat.pos_of_ne_zero
        intro empty
        exact unmatched (has_of_empty empty key.bytes)
      exact ⟨nonempty, size_le, by simpa using unmatched, inputMem, rfl⟩

/-- An accepted proof says of the key what the tree says, unless different strings hashed
for the two have one digest or some string the digest zero. -/
theorem lookup_of_verify (blake2b256 : Octets → Hash) (key : Hash) (tree : Tree)
    (proof : UrkelProof) (fits : tree.Fits 0)
    (accepted : proof.verify blake2b256 (tree.hash blake2b256) key = true) :
    (proof.value = tree.lookup key 0 ∧
      proof.kind = if (tree.lookup key 0).isSome then .inclusion else .nonInclusion) ∨
    Collides blake2b256 ((proof.verifyRun blake2b256 (tree.hash blake2b256) key).2 ++
      tree.hashed blake2b256) ∨
    HashesToZero blake2b256 ((proof.verifyRun blake2b256 (tree.hash blake2b256) key).2 ++
      tree.hashed blake2b256) := by
  rcases opens_of_verify accepted with ⟨sane, opens⟩
  rcases opens_agree (opens.mono (List.subset_append_left _ (tree.hashed blake2b256)))
    (opens_prove fits (List.subset_append_right _ _)) with agree | broken
  · rw [value_prove] at agree
    apply Or.inl
    constructor
    · exact agree
    · rw [kind_eq_of_isSane sane, agree]
  · exact .inr broken

end Tree

open TwoLeaves in
theorem lookup_of_verify_twoLeaves :
    (proof.value = some value ∧ proof.kind = .inclusion) ∨
    Collides blake2b256 ((proof.verifyRun blake2b256 root key).2 ++
      (Tree.node shared (.leaf otherKey otherValue) (.leaf key value)).hashed blake2b256) ∨
    HashesToZero blake2b256 ((proof.verifyRun blake2b256 root key).2 ++
      (Tree.node shared (.leaf otherKey otherValue) (.leaf key value)).hashed blake2b256) := by
  have fits : (Tree.node shared (.leaf otherKey otherValue) (.leaf key value)).Fits 0 :=
    ⟨⟨by decide, by decide⟩, by decide, by decide⟩
  have root_eq : (Tree.node shared (.leaf otherKey otherValue) (.leaf key value)).hash
      blake2b256 = root := by
    decide +kernel
  have verified := Tree.lookup_of_verify blake2b256 key _ proof fits
    (by rw [root_eq]; exact verify_proof)
  rw [root_eq] at verified
  exact verified

end HnsDaneEngine.Urkel
