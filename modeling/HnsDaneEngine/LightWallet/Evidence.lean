import HnsDaneEngine.LightWallet.PartialMerkle
import HnsDaneEngine.Merkle.Tree

/-!
# Soundness of filtered-block evidence

The traversal of a payload builds a partial tree.  A root that is the Merkle root of a
list of transaction hashes binds this tree to the full one, whatever number of
transactions the payload claims.
-/

namespace HnsDaneEngine.LightWallet

open Codec Control Merkle Primitives

/-- The tree that a traversal builds. -/
abbrev Tree :=
  PartialTree Hash Hash

def treeNodes : Nodes Tree where
  hidden := .hidden
  leaf := .leaf
  internal := .node
  empty := .padding

/-- The strings that are hashed, separated by their first octet. -/
def scheme (blake2b256 : Octets → Hash) : Scheme Hash Hash Octets where
  hash := blake2b256
  leaf hash := 0 :: hash.bytes
  node left right := 1 :: (left.bytes ++ right.bytes)
  padding := []
  leaf_inj equal := Hash.ext_bytes (List.cons.inj equal).2
  node_inj equal := Hash.append_bytes_inj (List.cons.inj equal).2
  leaf_ne_node _ _ _ equal := absurd (List.cons.inj equal).1 (by decide)
  leaf_ne_padding _ := List.cons_ne_nil _ _
  node_ne_padding _ _ := List.cons_ne_nil _ _

variable {blake2b256 : Octets → Hash} {rightPosition leftPosition : Nat}

/-- The shape that a traversal for a number of transactions gives to its tree. -/
inductive Shaped (total : Nat) : Nat → Nat → Tree → Prop
  | hidden (height position : Nat) (hash : Hash) : Shaped total height position (.hidden hash)
  | leaf (position : Nat) (hash : Hash) : Shaped total 0 position (.leaf hash)
  | paired {height position : Nat} {left right : Tree}
      (leftShaped : Shaped total height (2 * position) left)
      (inside : 2 * position + 1 < treeWidth total height)
      (rightShaped : Shaped total height (2 * position + 1) right) :
      Shaped total (height + 1) position (.node left right)
  | padded {height position : Nat} {left : Tree}
      (leftShaped : Shaped total height (2 * position) left)
      (outside : treeWidth total height ≤ 2 * position + 1) :
      Shaped total (height + 1) position (.node left .padding)

/-- The matches that a tree shows. -/
def shownMatches (tree : Tree) (position : Nat) : List MatchedTransaction :=
  (tree.shown position).map fun shown => ⟨shown.1, shown.2⟩

/-- A run of the traversal with digests builds a tree on the way. -/
structure Builds (blake2b256 : Octets → Hash) (height position : Nat)
    (reader after : PartialTreeReader) (digest : Hash) (tree : Tree) : Prop where
  traverse_eq : traverse treeNodes height position reader = .ok (tree, after)
  digest_eq : tree.digest (scheme blake2b256) = digest
  shaped : Shaped reader.total height position tree
  total_eq : after.total = reader.total
  found_eq : after.found = reader.found ++ shownMatches tree position

variable {reader after middle last : PartialTreeReader} {hash : Hash} {position height : Nat}

theorem readBit_eq_ok {bit : Bool} (read : reader.readBit = .ok (bit, after)) :
    after.total = reader.total ∧ after.found = reader.found := by
  unfold PartialTreeReader.readBit at read
  split at read
  next => cases read
  next =>
    dsimp only at read
    split at read
    next => cases read
    next =>
      cases read
      exact ⟨rfl, rfl⟩

theorem readHash_eq_ok (read : reader.readHash = .ok (hash, after)) :
    after.total = reader.total ∧ after.found = reader.found := by
  unfold PartialTreeReader.readHash at read
  split at read
  next => cases read
  next =>
    split at read
    next => cases read
    next =>
      cases read
      exact ⟨rfl, rfl⟩

theorem recordMatch_eq_ok (recorded : reader.recordMatch hash position = .ok after) :
    after.total = reader.total ∧ after.found = reader.found ++ [⟨hash, position⟩] := by
  unfold PartialTreeReader.recordMatch at recorded
  simp only [guard_eq_ok_iff] at recorded
  rcases recorded with ⟨-, -, recorded⟩
  cases recorded
  exact ⟨rfl, rfl⟩

section

variable {Node : Type} {nodes : Nodes Node}

theorem traverse_hidden (position : Nat) (bit_eq : reader.readBit = .ok (false, middle))
    (hash_eq : middle.readHash = .ok (hash, after)) :
    traverse nodes height position reader = .ok (nodes.hidden hash, after) := by
  cases height with
  | zero =>
    rw [traverse, bit_eq]
    change (middle.readHash >>= _) = _
    rw [hash_eq]
    rfl
  | succ height =>
    rw [traverse, bit_eq]
    change (middle.readHash >>= _) = _
    rw [hash_eq]
    rfl

theorem traverse_leaf (bit_eq : reader.readBit = .ok (true, middle))
    (hash_eq : middle.readHash = .ok (hash, last))
    (recorded : last.recordMatch hash position = .ok after) :
    traverse nodes 0 position reader = .ok (nodes.leaf hash, after) := by
  rw [traverse, bit_eq]
  change (middle.readHash >>= _) = _
  rw [hash_eq]
  change (last.recordMatch hash position >>= _) = _
  rw [recorded]
  rfl

theorem traverse_paired {left right : Node} (bit_eq : reader.readBit = .ok (true, middle))
    (leftPosition_eq : checkedMul position 2 = some leftPosition)
    (left_eq : traverse nodes height leftPosition middle = .ok (left, last))
    (rightPosition_eq : checkedAdd leftPosition 1 = some rightPosition)
    (inside : rightPosition < treeWidth last.total height)
    (right_eq : traverse nodes height rightPosition last = .ok (right, after)) :
    traverse nodes (height + 1) position reader = .ok (nodes.internal left right, after) := by
  rw [traverse, bit_eq]
  simp only [bind, Except.bind, leftPosition_eq, left_eq, rightPosition_eq]
  rw [if_pos inside, right_eq]
  rfl

theorem traverse_padded {left : Node} (bit_eq : reader.readBit = .ok (true, middle))
    (leftPosition_eq : checkedMul position 2 = some leftPosition)
    (left_eq : traverse nodes height leftPosition middle = .ok (left, after))
    (rightPosition_eq : checkedAdd leftPosition 1 = some rightPosition)
    (outside : ¬ rightPosition < treeWidth after.total height) :
    traverse nodes (height + 1) position reader = .ok (nodes.internal left nodes.empty, after) := by
  rw [traverse, bit_eq]
  simp only [bind, Except.bind, leftPosition_eq, left_eq, rightPosition_eq]
  rw [if_neg outside]
  rfl

end

/-- A node that is not expanded. -/
theorem builds_hidden (bit_eq : reader.readBit = .ok (false, middle))
    (hash_eq : middle.readHash = .ok (hash, after)) :
    Builds blake2b256 height position reader after hash (.hidden hash) := by
  rcases readBit_eq_ok bit_eq with ⟨bit_total, bit_found⟩
  rcases readHash_eq_ok hash_eq with ⟨hash_total, hash_found⟩
  constructor
  · exact traverse_hidden position bit_eq hash_eq
  · rfl
  · exact .hidden height position hash
  · exact hash_total.trans bit_total
  · rw [hash_found, bit_found]
    exact (List.append_nil _).symm

theorem builds_leaf (bit_eq : reader.readBit = .ok (true, middle))
    (hash_eq : middle.readHash = .ok (hash, last))
    (recorded : last.recordMatch hash position = .ok after) :
    Builds blake2b256 0 position reader after (blake2b256 (0 :: hash.bytes)) (.leaf hash) := by
  rcases readBit_eq_ok bit_eq with ⟨bit_total, bit_found⟩
  rcases readHash_eq_ok hash_eq with ⟨hash_total, hash_found⟩
  rcases recordMatch_eq_ok recorded with ⟨recorded_total, recorded_found⟩
  constructor
  · exact traverse_leaf bit_eq hash_eq recorded
  · rfl
  · exact .leaf position hash
  · exact (recorded_total.trans hash_total).trans bit_total
  · rw [recorded_found, hash_found, bit_found]
    rfl

theorem shownMatches_node (left right : Tree) (position : Nat) :
    shownMatches (.node left right) position =
      shownMatches left (2 * position) ++ shownMatches right (2 * position + 1) :=
  List.map_append

theorem childPositions_eq {left right : Nat} (left_eq : checkedMul position 2 = some left)
    (right_eq : checkedAdd left 1 = some right) :
    left = 2 * position ∧ right = 2 * position + 1 := by
  rcases (checkedMul_eq_some left_eq).trans (Nat.mul_comm _ _) with rfl
  exact ⟨rfl, (checkedAdd_eq_some_iff.mp right_eq).1⟩

/-- An expanded node whose right child is inside the tree. -/
theorem builds_paired {left right : Hash}
    {leftTree rightTree : Tree} (bit_eq : reader.readBit = .ok (true, middle))
    (leftPosition_eq : checkedMul position 2 = some leftPosition)
    (leftBuilds : Builds blake2b256 height leftPosition middle last left leftTree)
    (rightPosition_eq : checkedAdd leftPosition 1 = some rightPosition)
    (inside : rightPosition < treeWidth last.total height)
    (rightBuilds : Builds blake2b256 height rightPosition last after right rightTree) :
    Builds blake2b256 (height + 1) position reader after
      (blake2b256 (1 :: (left.bytes ++ right.bytes))) (.node leftTree rightTree) := by
  rcases readBit_eq_ok bit_eq with ⟨bit_total, bit_found⟩
  rcases childPositions_eq leftPosition_eq rightPosition_eq with ⟨rfl, rfl⟩
  have last_total : last.total = reader.total := leftBuilds.total_eq.trans bit_total
  constructor
  · exact traverse_paired bit_eq leftPosition_eq leftBuilds.traverse_eq rightPosition_eq inside
      rightBuilds.traverse_eq
  · rw [PartialTree.digest, leftBuilds.digest_eq, rightBuilds.digest_eq]
    rfl
  · have leftShaped := leftBuilds.shaped
    have rightShaped := rightBuilds.shaped
    rw [bit_total] at leftShaped
    rw [last_total] at rightShaped inside
    exact .paired leftShaped inside rightShaped
  · exact rightBuilds.total_eq.trans last_total
  · rw [rightBuilds.found_eq, leftBuilds.found_eq, bit_found, shownMatches_node, List.append_assoc]

/-- An expanded node whose right child is padding. -/
theorem builds_padded {left : Hash} {leftTree : Tree} (bit_eq : reader.readBit = .ok (true, middle))
    (leftPosition_eq : checkedMul position 2 = some leftPosition)
    (leftBuilds : Builds blake2b256 height leftPosition middle after left leftTree)
    (rightPosition_eq : checkedAdd leftPosition 1 = some rightPosition)
    (outside : ¬ rightPosition < treeWidth after.total height) :
    Builds blake2b256 (height + 1) position reader after
      (blake2b256 (1 :: (left.bytes ++ (blake2b256 []).bytes))) (.node leftTree .padding) := by
  rcases readBit_eq_ok bit_eq with ⟨bit_total, bit_found⟩
  rcases childPositions_eq leftPosition_eq rightPosition_eq with ⟨rfl, rfl⟩
  have after_total : after.total = reader.total := leftBuilds.total_eq.trans bit_total
  constructor
  · exact traverse_padded bit_eq leftPosition_eq leftBuilds.traverse_eq rightPosition_eq outside
  · rw [PartialTree.digest, leftBuilds.digest_eq]
    rfl
  · have leftShaped := leftBuilds.shaped
    rw [bit_total] at leftShaped
    rw [after_total] at outside
    exact .padded leftShaped (Nat.le_of_not_lt outside)
  · exact after_total
  · rw [leftBuilds.found_eq, bit_found, shownMatches_node]
    exact congrArg _ (List.append_nil _).symm

/-- Every traversal with digests builds a tree. -/
theorem exists_builds {digest : Hash}
    (run : traverse (digestNodes blake2b256) height position reader = .ok (digest, after)) :
    ∃ tree, Builds blake2b256 height position reader after digest tree := by
  induction height generalizing position reader digest after with
  | zero =>
    rw [traverse] at run
    rcases of_bind_ok run with ⟨⟨parent, middle⟩, bit_eq, run⟩
    rcases of_bind_ok run with ⟨⟨hash, last⟩, hash_eq, run⟩
    cases parent with
    | false =>
      cases run
      exact ⟨_, builds_hidden bit_eq hash_eq⟩
    | true =>
      rcases of_bind_ok run with ⟨recorded, recorded_eq, run⟩
      cases run
      exact ⟨_, builds_leaf bit_eq hash_eq recorded_eq⟩
  | succ height ih =>
    rw [traverse] at run
    rcases of_bind_ok run with ⟨⟨parent, middle⟩, bit_eq, run⟩
    cases parent with
    | false =>
      rcases of_bind_ok run with ⟨⟨hash, last⟩, hash_eq, run⟩
      cases run
      exact ⟨_, builds_hidden bit_eq hash_eq⟩
    | true =>
      simp only [Bool.not_true, Bool.false_eq_true, if_false] at run
      split at run
      next => cases run
      next leftPosition leftPosition_eq =>
        rcases of_bind_ok run with ⟨⟨left, last⟩, left_eq, run⟩
        rcases ih left_eq with ⟨leftTree, leftBuilds⟩
        dsimp only at run
        split at run
        next => cases run
        next rightPosition rightPosition_eq =>
          split at run
          next inside =>
            rcases of_bind_ok run with ⟨⟨right, final⟩, right_eq, run⟩
            cases run
            rcases ih right_eq with ⟨rightTree, rightBuilds⟩
            exact ⟨_, builds_paired bit_eq leftPosition_eq leftBuilds rightPosition_eq inside
              rightBuilds⟩
          next outside =>
            cases run
            exact ⟨_, builds_padded bit_eq leftPosition_eq leftBuilds rightPosition_eq outside⟩

theorem lt_treeWidth_iff {total : Nat} :
    position < treeWidth total height ↔ position * 2 ^ height < total := by
  have positive : 0 < 2 ^ height := Nat.two_pow_pos height
  unfold treeWidth
  rw [Nat.lt_iff_add_one_le, Nat.le_div_iff_mul_le positive, Nat.add_one_mul]
  omega

/-- The leaves below a node are those below its two children. -/
theorem span_eq (position height : Nat) :
    position * 2 ^ (height + 1) = 2 * position * 2 ^ height ∧
      (position + 1) * 2 ^ (height + 1) = (2 * position + 1 + 1) * 2 ^ height := by
  rw [Nat.pow_succ]
  constructor <;> grind

namespace Shaped

variable {total : Nat} {tree : Tree}

section

variable (shaped : Shaped total height position tree)

include shaped

theorem hasDepth : tree.HasDepth height := by
  induction shaped with
  | hidden height position hash => exact True.intro
  | leaf position hash => rfl
  | paired leftShaped inside rightShaped leftIh rightIh => exact ⟨_, rfl, leftIh, rightIh⟩
  | padded leftShaped outside leftIh => exact ⟨_, rfl, leftIh, True.intro⟩

theorem ne_padding : tree ≠ .padding := by
  cases shaped <;> simp

/-- The leaves of a node are those below its position. -/
theorem shown_range :
    ∀ shown ∈ tree.shown position,
      position * 2 ^ height ≤ shown.2 ∧ shown.2 < (position + 1) * 2 ^ height := by
  induction shaped with
  | hidden height position hash => simp [PartialTree.shown]
  | leaf position hash => simp [PartialTree.shown]
  | @paired height position left right leftShaped inside rightShaped leftIh rightIh =>
    intro shown member
    rw [(span_eq position height).1, (span_eq position height).2]
    rcases List.mem_append.mp member with inLeft | inRight
    · have bounds := leftIh shown inLeft
      exact ⟨bounds.1, Nat.lt_of_lt_of_le bounds.2 (Nat.mul_le_mul_right _ (Nat.le_succ _))⟩
    · have bounds := rightIh shown inRight
      exact ⟨Nat.le_trans (Nat.mul_le_mul_right _ (Nat.le_succ _)) bounds.1, bounds.2⟩
  | @padded height position left leftShaped outside leftIh =>
    intro shown member
    rw [PartialTree.shown, PartialTree.shown, List.append_nil] at member
    have bounds := leftIh shown member
    rw [(span_eq position height).1, (span_eq position height).2]
    exact ⟨bounds.1, Nat.lt_of_lt_of_le bounds.2 (Nat.mul_le_mul_right _ (Nat.le_succ _))⟩

theorem shown_pairwise : (tree.shown position).Pairwise fun first second => first.2 < second.2 := by
  induction shaped with
  | hidden height position hash => exact .nil
  | leaf position hash => exact List.pairwise_singleton _ _
  | paired leftShaped inside rightShaped leftIh rightIh =>
    rw [PartialTree.shown, List.pairwise_append]
    refine ⟨leftIh, rightIh, fun first inLeft second inRight => ?_⟩
    exact Nat.lt_of_lt_of_le (leftShaped.shown_range first inLeft).2
      (rightShaped.shown_range second inRight).1
  | padded leftShaped outside leftIh =>
    rw [PartialTree.shown, PartialTree.shown, List.append_nil]
    exact leftIh

/-- A tree that shows the last leaf shows the path to it. -/
theorem last?_eq (positive : 0 < total)
    (shows : (hash, total - 1) ∈ tree.shown position) : tree.last? position = some (total - 1) := by
  induction shaped with
  | hidden height position hash => simp [PartialTree.shown] at shows
  | leaf position hash =>
    simp only [PartialTree.shown, List.mem_singleton, Prod.mk.injEq] at shows
    rw [PartialTree.last?, shows.2]
  | @paired height position left right leftShaped inside rightShaped leftIh rightIh =>
    rw [PartialTree.last?_node_of_ne rightShaped.ne_padding]
    rcases List.mem_append.mp shows with inLeft | inRight
    · -- the right child is inside the tree, so the last leaf is not on the left
      have bounds := (leftShaped.shown_range _ inLeft).2
      rw [lt_treeWidth_iff] at inside
      dsimp only at bounds
      omega
    · exact rightIh inRight
  | padded leftShaped outside leftIh =>
    rw [PartialTree.shown, PartialTree.shown, List.append_nil] at shows
    exact leftIh shows

end

end Shaped

theorem treeHeightFrom_eq {total : Nat} (low : height ≤ Nat.clog 2 total) :
    treeHeightFrom total height = Nat.clog 2 total := by
  induction height using treeHeightFrom.induct total with
  | case1 height wide ih =>
    rw [treeHeightFrom, if_pos wide]
    apply ih
    exact (Nat.lt_clog_iff_pow_lt (by decide)).mpr (one_lt_treeWidth_iff.mp wide)
  | case2 height narrow =>
    rw [treeHeightFrom, if_neg narrow]
    apply Nat.le_antisymm low
    rw [one_lt_treeWidth_iff, Nat.not_lt] at narrow
    exact Nat.clog_le_of_le_pow narrow

theorem treeHeight_eq (total : Nat) : treeHeight total = Nat.clog 2 total :=
  treeHeightFrom_eq (Nat.zero_le _)

section

variable {Header : Type} {codec : PayloadCodec Header}

/-- The tree that the payload of an input describes. -/
def inputTree (codec : PayloadCodec Header) (input : Octets) (anchor : WalletHeaderAnchor) :
    Except WalletEvidenceError Tree := do
  let payload ← parsePartialMerkle codec input anchor.hash anchor.merkleRoot
  let (tree, _) ← payload.root treeNodes
  .ok tree

/-- The strings that are hashed for a tree. -/
def treeInputs (blake2b256 : Octets → Hash) :
    Except WalletEvidenceError Tree → List Octets
  | .ok tree => tree.inputs (scheme blake2b256)
  | .error _ => []

/-- The strings that are hashed while an input is checked. -/
def hashedInputs (codec : PayloadCodec Header) (blake2b256 : Octets → Hash)
    (input : Octets) (anchor : WalletHeaderAnchor) : List Octets :=
  treeInputs blake2b256 (inputTree codec input anchor)

/-- What an accepted input says about its anchor. -/
structure Accepts (codec : PayloadCodec Header) (blake2b256 : Octets → Hash)
    (input : Octets) (anchor : WalletHeaderAnchor) (evidence : WalletBlockEvidence)
    (tree : Tree) : Prop where
  tree_eq : inputTree codec input anchor = .ok tree
  header_eq : evidence.header = anchor
  positive : 0 < evidence.totalTransactions
  shaped : Shaped evidence.totalTransactions (treeHeight evidence.totalTransactions) 0 tree
  digest_eq : tree.digest (scheme blake2b256) = anchor.merkleRoot
  found_eq : evidence.found = shownMatches tree 0

variable {input : Octets} {anchor : WalletHeaderAnchor} {evidence : WalletBlockEvidence}

theorem Accepts.hashedInputs_eq {tree : Tree}
    (accepts : Accepts codec blake2b256 input anchor evidence tree) :
    hashedInputs codec blake2b256 input anchor = tree.inputs (scheme blake2b256) :=
  congrArg (treeInputs blake2b256) accepts.tree_eq

theorem parsePartialMerkle_eq_ok {expectedHash expectedMerkleRoot : Hash} {payload : PartialMerkle}
    (parsed : parsePartialMerkle codec input expectedHash expectedMerkleRoot = .ok payload) :
    0 < payload.total := by
  unfold parsePartialMerkle at parsed
  rw [guard_eq_ok_iff] at parsed
  rcases of_bind_ok parsed.2 with ⟨⟨read, rest⟩, read_eq, parsed_eq⟩
  cases parsed_eq
  rcases Reader.of_bind_ok read_eq with ⟨slice, afterSlice, -, read_eq⟩
  rcases Reader.of_bind_ok read_eq with ⟨header, afterHeader, -, read_eq⟩
  rcases Reader.of_bind_ok read_eq with ⟨⟨⟩, afterAnchor, -, read_eq⟩
  rcases Reader.of_bind_ok read_eq with ⟨total, afterTotal, -, read_eq⟩
  rcases Reader.of_bind_ok read_eq with ⟨⟨⟩, afterNonzero, nonzero, read_eq⟩
  rcases Reader.of_bind_ok read_eq with ⟨⟨⟩, afterBound, -, read_eq⟩
  rcases Reader.of_bind_ok read_eq with ⟨count, afterCount, -, read_eq⟩
  rcases Reader.of_bind_ok read_eq with ⟨hashes, afterHashes, -, read_eq⟩
  rcases Reader.of_bind_ok read_eq with ⟨flags, afterFlags, -, read_eq⟩
  rcases Reader.of_bind_ok read_eq with ⟨⟨⟩, afterFinish, -, read_eq⟩
  rcases Reader.of_bind_ok read_eq with ⟨⟨⟩, afterMany, -, read_eq⟩
  rcases Reader.of_bind_ok read_eq with ⟨⟨⟩, afterFew, -, read_eq⟩
  rcases Reader.pure_eq_ok_iff.mp read_eq with ⟨rfl, -⟩
  exact Nat.pos_of_ne_zero (Reader.ensure_eq_ok_iff.mp nonzero).1

theorem exists_accepts
    (accepted : WalletBlockEvidence.decodeForAnchor codec blake2b256 input anchor = .ok evidence) :
    ∃ tree, Accepts codec blake2b256 input anchor evidence tree := by
  rcases of_bind_ok accepted with ⟨decoded, decoded_eq, evidence_eq⟩
  cases evidence_eq
  rcases of_bind_ok decoded_eq with ⟨payload, parsed, decoded_eq⟩
  rcases of_bind_ok decoded_eq with ⟨⟨root, after⟩, root_eq, decoded_eq⟩
  simp only [guard_eq_ok_iff, not_not] at decoded_eq
  rcases decoded_eq with ⟨-, -, same_root, decoded_eq⟩
  cases decoded_eq
  have run : traverse (digestNodes blake2b256) (treeHeight payload.total) 0 payload.reader =
      .ok (root, after) := root_eq
  rcases exists_builds run with ⟨tree, builds⟩
  refine ⟨tree, ?_⟩
  constructor
  · rw [inputTree, parsed]
    change (payload.root treeNodes >>= _) = _
    rw [PartialMerkle.root, builds.traverse_eq]
    rfl
  · rfl
  · exact parsePartialMerkle_eq_ok parsed
  · exact builds.shaped
  · exact builds.digest_eq.trans same_root
  · exact builds.found_eq

/-- The strings that are hashed for the Merkle root of a block. -/
def merkleInputs (blake2b256 : Octets → Hash) (hashes : List Hash) : List Octets :=
  (fullTree hashes).inputs (scheme blake2b256)

/-- Every match is a transaction of the block at its index, in increasing order, or two
different strings that the check and the Merkle root hash have the same digest. -/
theorem found_sound {hashes : List Hash} {anchor : WalletHeaderAnchor}
    (root_eq : anchor.merkleRoot = merkleRoot (scheme blake2b256) hashes) {input : Octets}
    {evidence : WalletBlockEvidence}
    (accepted : WalletBlockEvidence.decodeForAnchor codec blake2b256 input anchor =
      .ok evidence) :
    evidence.found.Pairwise (fun first second => first.index < second.index) ∧
      ((∀ found ∈ evidence.found, hashes[found.index]? = some found.hash) ∨
        Collision (scheme blake2b256)
          (hashedInputs codec blake2b256 input anchor ++ merkleInputs blake2b256 hashes)) := by
  rcases exists_accepts accepted with ⟨tree, accepts⟩
  rw [accepts.found_eq]
  constructor
  · rw [shownMatches, List.pairwise_map]
    exact accepts.shaped.shown_pairwise
  · have same : tree.digest (scheme blake2b256) = (fullTree hashes).digest (scheme blake2b256) := by
      rw [accepts.digest_eq, root_eq, digest_fullTree]
    refine (compatible_or_collision same).imp ?_ ?_
    · intro compatible found shown
      rcases List.mem_map.mp shown with ⟨⟨hash, index⟩, shows, rfl⟩
      have inBlock := compatible.shown_subset (fullTree_isFull hashes) 0 shows
      rw [shown_fullTree] at inBlock
      exact List.mem_zipIdx_iff_getElem?.mp inBlock
    · intro collision
      rw [accepts.hashedInputs_eq]
      exact collision

end

/-! A block of three transactions, under a digest that keeps the first 32 octets. -/

namespace ExampleBlock

theorem length_take_replicate (input : Octets) :
    ((input ++ List.replicate 32 0).take 32).length = 32 := by
  simp

def digest (input : Octets) : Hash :=
  ⟨(input ++ List.replicate 32 0).take 32, length_take_replicate input⟩

def readCompact (maximum : Nat) : Reader WalletEvidenceError Nat := do
  let number ← readLe .decode 1 id
  Reader.ensure (number < 0xfd ∧ number ≤ maximum) .decode
  pure number

/-- Headers of 236 octets, with the Merkle root behind octet 164. -/
def codec : PayloadCodec Octets where
  headerSize := 236
  decodeHeader := .ok
  blockHash _ := .zero
  merkleRoot header := digest (header.drop 164)
  readSlice := readOctets .decode
  readU32Le := readLe .decode 4 id
  readCompactUsize := readCompact
  readArray := do
    let octets ← readOctets .decode 32
    pure (digest octets)
  readVarbytes maximum := do
    let count ← readCompact maximum
    readOctets .decode count
  finish := do
    let rest ← get
    Reader.ensure (rest = []) .decode

def transaction (octet : UInt8) : Hash :=
  digest (List.replicate 32 octet)

def nodes : Nodes Hash :=
  digestNodes digest

/-- The subtree of the last transaction, which a payload may leave hidden. -/
def lastPair : Hash :=
  nodes.internal (nodes.leaf (transaction 3)) nodes.empty

def root : Hash :=
  nodes.internal (nodes.internal (nodes.leaf (transaction 1)) (nodes.leaf (transaction 2))) lastPair

def anchor : WalletHeaderAnchor where
  height := 9
  hash := .zero
  previousBlock := .zero
  treeRoot := .zero
  merkleRoot := root
  time := 100

/-- A payload that matches the first transaction and claims a number of them. -/
def payload (total : UInt8) : Octets :=
  List.replicate 164 0 ++ root.bytes ++ List.replicate 40 0 ++ [total, 0, 0, 0] ++ [3] ++
    (transaction 1).bytes ++ (nodes.leaf (transaction 2)).bytes ++ lastPair.bytes ++ [1, 7]

def evidence (total : Nat) : WalletBlockEvidence where
  header := anchor
  totalTransactions := total
  found := [⟨transaction 1, 0⟩]

theorem decodeForAnchor_payload :
    WalletBlockEvidence.decodeForAnchor codec digest (payload 3) anchor = .ok (evidence 3) := by
  decide +kernel

theorem merkleRoot_transactions :
    merkleRoot (scheme digest) [transaction 1, transaction 2, transaction 3] = root := by
  simp only [merkleRoot, List.map_cons, List.map_nil, rootOf, parents]
  rfl

theorem found_sound_first :
    (evidence 3).found.Pairwise (fun first second => first.index < second.index) ∧
      ((∀ found ∈ (evidence 3).found,
          [transaction 1, transaction 2, transaction 3][found.index]? = some found.hash) ∨
        Collision (scheme digest) (hashedInputs codec digest (payload 3) anchor ++
          merkleInputs digest [transaction 1, transaction 2, transaction 3])) :=
  found_sound merkleRoot_transactions.symm decodeForAnchor_payload

end ExampleBlock

end HnsDaneEngine.LightWallet
