import HnsDaneEngine.Encoding.Bits
import HnsDaneEngine.Encoding.ReadBack
import HnsDaneEngine.LightWallet.Evidence
import Mathlib.Algebra.BigOperators.Group.List.Basic
import Mathlib.Data.List.Nodup

/-!
# Completeness of filtered-block evidence

A block and a choice of its transactions have one payload: the nodes above chosen
transactions are expanded, and every other node is replaced by its digest.  The traversal
follows this payload to the digest of the root, as long as the flags fit into the octets
that a payload may have for them.
-/

namespace HnsDaneEngine.LightWallet

open Buffer Codec Control Merkle Primitives

/-! ## The payload of a block -/

section

variable (blake2b256 : Octets → Hash) (hashes : List Hash) (selected : Nat → Bool)

def transactionAt (index : Nat) : Hash :=
  hashes.getD index .zero

/-- The digest of a node, from its leaves up. -/
def nodeDigest : Nat → Nat → Hash
  | 0, position => (digestNodes blake2b256).leaf (transactionAt hashes position)
  | height + 1, position =>
    (digestNodes blake2b256).internal (nodeDigest height (2 * position))
      (if 2 * position + 1 < treeWidth hashes.length height then
        nodeDigest height (2 * position + 1)
      else (digestNodes blake2b256).empty)

/-- The chosen transactions below a node. -/
def selectedBelow (height position : Nat) : List Nat :=
  (List.range' (position * 2 ^ height) (2 ^ height)).filter fun index =>
    decide (index < hashes.length) && selected index

/-- The flags of the nodes in the order of the traversal. -/
def flagBits : Nat → Nat → List Bool
  | 0, position => [!(selectedBelow hashes selected 0 position).isEmpty]
  | height + 1, position =>
    if (selectedBelow hashes selected (height + 1) position).isEmpty then [false]
    else
      true :: (flagBits height (2 * position) ++
        if 2 * position + 1 < treeWidth hashes.length height then
          flagBits height (2 * position + 1)
        else [])

/-- The hashes of chosen transactions and of nodes that are not expanded. -/
def nodeHashes : Nat → Nat → List Hash
  | 0, position =>
    if (selectedBelow hashes selected 0 position).isEmpty then
      [nodeDigest blake2b256 hashes 0 position]
    else [transactionAt hashes position]
  | height + 1, position =>
    if (selectedBelow hashes selected (height + 1) position).isEmpty then
      [nodeDigest blake2b256 hashes (height + 1) position]
    else
      nodeHashes height (2 * position) ++
        if 2 * position + 1 < treeWidth hashes.length height then
          nodeHashes height (2 * position + 1)
        else []

def matchesBelow (height position : Nat) : List MatchedTransaction :=
  (selectedBelow hashes selected height position).map fun index =>
    ⟨transactionAt hashes index, index⟩

/-- The chosen transactions of the block in increasing order. -/
def selectedMatches : List MatchedTransaction :=
  ((List.range hashes.length).filter selected).map fun index =>
    ⟨transactionAt hashes index, index⟩

/-- The flags of the whole tree. -/
def blockFlags : List Bool :=
  flagBits hashes selected (treeHeight hashes.length) 0

def blockHashes : List Hash :=
  nodeHashes blake2b256 hashes selected (treeHeight hashes.length) 0

/-- A number in as many octets as it needs. -/
def compactSize (number : Nat) : Octets :=
  if number < 0xfd then leOctets 1 number
  else if number < 2 ^ 16 then 0xfd :: leOctets 2 number
  else if number < 2 ^ 32 then 0xfe :: leOctets 4 number
  else 0xff :: leOctets 8 number

/-- The payload without its header. -/
def partialTreePayload : Octets :=
  leOctets 4 hashes.length ++
    (compactSize (blockHashes blake2b256 hashes selected).length ++
      ((blockHashes blake2b256 hashes selected).flatMap Hash.bytes ++
        (compactSize (Bits.pack (blockFlags hashes selected)).length ++
          Bits.pack (blockFlags hashes selected))))

end

/-! ## Nodes and their leaves -/

section

variable {blake2b256 : Octets → Hash} {hashes : List Hash} {selected : Nat → Bool}
  {height position : Nat}

theorem treeWidth_zero (total : Nat) : treeWidth total 0 = total := by
  simp [treeWidth]

theorem treeWidth_succ (total height : Nat) :
    treeWidth total (height + 1) = (treeWidth total height + 1) / 2 := by
  have half (position : Nat) :
      position < treeWidth total (height + 1) ↔ position < (treeWidth total height + 1) / 2 := by
    have double : 2 * position < treeWidth total height ↔ position < treeWidth total (height + 1) := by
      rw [lt_treeWidth_iff, lt_treeWidth_iff, (span_eq position height).1]
    rw [← double]
    omega
  apply Nat.le_antisymm
  · exact Nat.le_of_not_lt fun less => Nat.lt_irrefl _ ((half _).mp less)
  · exact Nat.le_of_not_lt fun less => Nat.lt_irrefl _ ((half _).mpr less)

/-- The left child of a node of the tree is in the tree. -/
theorem left_inside {total : Nat} (inside : position < treeWidth total (height + 1)) :
    2 * position < treeWidth total height := by
  rw [treeWidth_succ] at inside
  omega

theorem selectedBelow_succ :
    selectedBelow hashes selected (height + 1) position =
      selectedBelow hashes selected height (2 * position) ++
        selectedBelow hashes selected height (2 * position + 1) := by
  have right_eq : (2 * position + 1) * 2 ^ height = 2 * position * 2 ^ height + 2 ^ height := by
    rw [Nat.add_one_mul]
  have length_eq : 2 ^ (height + 1) = 2 ^ height + 2 ^ height := by
    rw [Nat.pow_succ, Nat.mul_two]
  rw [selectedBelow, (span_eq position height).1, length_eq, ← List.range'_append_1,
    List.filter_append, ← right_eq]
  rfl

theorem selectedBelow_outside (outside : treeWidth hashes.length height ≤ position) :
    selectedBelow hashes selected height position = [] := by
  rw [← Nat.not_lt, lt_treeWidth_iff, Nat.not_lt] at outside
  rw [selectedBelow, List.filter_eq_nil_iff]
  intro index member
  have bounds := List.mem_range'_1.mp member
  have beyond : ¬ index < hashes.length := Nat.not_lt.mpr (outside.trans bounds.1)
  simp [beyond]

theorem selectedBelow_zero :
    selectedBelow hashes selected 0 position =
      if position < hashes.length ∧ selected position then [position] else [] := by
  simp [selectedBelow, List.filter_cons]

theorem selectedBelow_root (total_le : hashes.length ≤ 2 ^ height) :
    selectedBelow hashes selected height 0 = (List.range hashes.length).filter selected := by
  have length_eq : 2 ^ height = hashes.length + (2 ^ height - hashes.length) := by omega
  have inside : (List.range' 0 hashes.length).filter
      (fun index => decide (index < hashes.length) && selected index) =
        (List.range hashes.length).filter selected := by
    rw [← List.range_eq_range']
    apply List.filter_congr
    intro index member
    simp [List.mem_range.mp member]
  have outside : (List.range' (0 + hashes.length) (2 ^ height - hashes.length)).filter
      (fun index => decide (index < hashes.length) && selected index) = [] := by
    rw [List.filter_eq_nil_iff]
    intro index member
    have beyond : ¬ index < hashes.length := by
      have bounds := (List.mem_range'_1.mp member).1
      omega
    simp [beyond]
  rw [selectedBelow, Nat.zero_mul, length_eq, ← List.range'_append_1, List.filter_append, inside,
    outside, List.append_nil]

theorem matchesBelow_succ :
    matchesBelow hashes selected (height + 1) position =
      matchesBelow hashes selected height (2 * position) ++
        matchesBelow hashes selected height (2 * position + 1) := by
  rw [matchesBelow, selectedBelow_succ, List.map_append]
  rfl

/-- The digests of a level, from left to right. -/
def levelDigests (blake2b256 : Octets → Hash) (hashes : List Hash) (height : Nat) : List Hash :=
  (List.range (treeWidth hashes.length height)).map (nodeDigest blake2b256 hashes height)

theorem getElem?_levelDigests (blake2b256 : Octets → Hash) (hashes : List Hash)
    (height position : Nat) :
    (levelDigests blake2b256 hashes height)[position]? =
      if position < treeWidth hashes.length height then
        some (nodeDigest blake2b256 hashes height position)
      else none := by
  rw [levelDigests, List.getElem?_map]
  split
  next inside => rw [List.getElem?_range inside, Option.map_some]
  next outside => rw [List.getElem?_eq_none (by simpa using outside), Option.map_none]

theorem parents_levelDigests (blake2b256 : Octets → Hash) (hashes : List Hash) (height : Nat) :
    parents (digestNodes blake2b256).internal (digestNodes blake2b256).empty
        (levelDigests blake2b256 hashes height) =
      levelDigests blake2b256 hashes (height + 1) := by
  apply List.ext_getElem?
  intro position
  rw [getElem?_parents, getElem?_levelDigests, getElem?_levelDigests, getElem?_levelDigests]
  by_cases inside : position < treeWidth hashes.length (height + 1)
  · rw [if_pos (left_inside inside), if_pos inside, Option.map_some, nodeDigest]
    by_cases right_inside : 2 * position + 1 < treeWidth hashes.length height
    · rw [if_pos right_inside, if_pos right_inside, Option.getD_some]
    · rw [if_neg right_inside, if_neg right_inside, Option.getD_none]
  · have left_outside : ¬ 2 * position < treeWidth hashes.length height := by
      rw [treeWidth_succ] at inside
      omega
    rw [if_neg left_outside, if_neg inside, Option.map_none]

theorem treeWidth_pos (nonempty : hashes ≠ []) (height : Nat) :
    0 < treeWidth hashes.length height := by
  rw [lt_treeWidth_iff, Nat.zero_mul]
  exact List.length_pos_iff.mpr nonempty

theorem rootOf_levelDigests (blake2b256 : Octets → Hash) (nonempty : hashes ≠ []) (height : Nat) :
    rootOf (digestNodes blake2b256).internal (digestNodes blake2b256).empty
        (levelDigests blake2b256 hashes height) =
      nodeDigest blake2b256 hashes (treeHeightFrom hashes.length height) 0 := by
  induction height using treeHeightFrom.induct hashes.length with
  | case1 height wide ih =>
    rw [treeHeightFrom, if_pos wide, ← ih, rootOf_of_one_lt, parents_levelDigests]
    simpa [levelDigests] using wide
  | case2 height narrow =>
    have first := treeWidth_pos nonempty height
    have single : treeWidth hashes.length height = 1 := by omega
    rw [treeHeightFrom, if_neg narrow, levelDigests, single]
    simp [rootOf]

/-- The digest of the root is the Merkle root of the block. -/
theorem nodeDigest_root (blake2b256 : Octets → Hash) (nonempty : hashes ≠ []) :
    nodeDigest blake2b256 hashes (treeHeight hashes.length) 0 =
      merkleRoot (scheme blake2b256) hashes := by
  have leaves : levelDigests blake2b256 hashes 0 =
      hashes.map fun hash => (scheme blake2b256).hash ((scheme blake2b256).leaf hash) := by
    apply List.ext_getElem?
    intro position
    rw [getElem?_levelDigests, treeWidth_zero, List.getElem?_map]
    split
    next inside =>
      rw [List.getElem?_eq_getElem inside, Option.map_some, nodeDigest, transactionAt,
        List.getD_eq_getElem _ _ inside]
      rfl
    next outside => rw [List.getElem?_eq_none (Nat.le_of_not_lt outside), Option.map_none]
  rw [treeHeight, ← rootOf_levelDigests blake2b256 nonempty, leaves]
  rfl

theorem le_two_pow_treeHeight (total : Nat) : total ≤ 2 ^ treeHeight total := by
  rw [treeHeight_eq]
  exact Nat.le_pow_clog (by decide) total

end

/-! ## The traversal of a payload -/

section

variable {blake2b256 : Octets → Hash} {hashes : List Hash} {selected : Nat → Bool}
  {height position : Nat} {reader : PartialTreeReader}

/-- The reader after flags, hashes and matches. -/
def PartialTreeReader.advance (reader : PartialTreeReader) (bits : List Bool)
    (nodes : List Hash) (found : List MatchedTransaction) : PartialTreeReader :=
  { reader with
    bitsUsed := reader.bitsUsed + bits.length
    hashesUsed := reader.hashesUsed + nodes.length
    found := reader.found ++ found
    matchedHashes := (found.map MatchedTransaction.hash).reverse ++ reader.matchedHashes }

theorem PartialTreeReader.advance_advance (reader : PartialTreeReader) (bits bits' : List Bool)
    (nodes nodes' : List Hash) (found found' : List MatchedTransaction) :
    (reader.advance bits nodes found).advance bits' nodes' found' =
      reader.advance (bits ++ bits') (nodes ++ nodes') (found ++ found') := by
  simp [advance, Nat.add_assoc]

theorem readBit_of_occurs {bit : Bool} {bits : List Bool}
    (occurs : Occurs (bit :: bits) (Bits.unpack reader.flags) reader.bitsUsed)
    (bounded : (Bits.unpack reader.flags).length ≤ u64Max) :
    reader.readBit = .ok (bit, reader.advance [bit] [] []) := by
  have found := occurs.getElem?
  rw [Bits.getElem?_unpack, Option.map_eq_some_iff] at found
  rcases found with ⟨octet, octet_eq, rfl⟩
  have counted : checkedAdd reader.bitsUsed 1 = some (reader.bitsUsed + 1) := by
    have below := occurs.length_le
    rw [List.length_cons] at below
    exact checkedAdd_eq_some_iff.mpr ⟨rfl, by omega⟩
  simp only [PartialTreeReader.readBit, octet_eq, counted]
  simp [PartialTreeReader.advance, Bits.octetBit]

theorem readHash_of_occurs {hash : Hash} {nodes : List Hash}
    (occurs : Occurs (hash :: nodes) reader.hashes reader.hashesUsed)
    (bounded : reader.hashes.length ≤ u64Max) :
    reader.readHash = .ok (hash, reader.advance [] [hash] []) := by
  have counted : checkedAdd reader.hashesUsed 1 = some (reader.hashesUsed + 1) := by
    have below := occurs.length_le
    rw [List.length_cons] at below
    exact checkedAdd_eq_some_iff.mpr ⟨rfl, by omega⟩
  simp only [PartialTreeReader.readHash, occurs.getElem?, counted]
  simp [PartialTreeReader.advance]

theorem recordMatch_of_fresh {hash : Hash} (fresh : hash ∉ reader.matchedHashes)
    (small : position < 2 ^ 32) :
    reader.recordMatch hash position = .ok (reader.advance [] [] [⟨hash, position⟩]) := by
  rw [PartialTreeReader.recordMatch, if_neg fresh, if_neg (Nat.not_le.mpr small)]
  rfl

/-- What is left of the payload begins with a node. -/
structure Presents (blake2b256 : Octets → Hash) (hashes : List Hash) (selected : Nat → Bool)
    (height position : Nat) (reader : PartialTreeReader) : Prop where
  total_eq : reader.total = hashes.length
  flags : Occurs (flagBits hashes selected height position) (Bits.unpack reader.flags)
    reader.bitsUsed
  nodes : Occurs (nodeHashes blake2b256 hashes selected height position) reader.hashes
    reader.hashesUsed
  fresh : (((matchesBelow hashes selected height position).map MatchedTransaction.hash).reverse ++
    reader.matchedHashes).Nodup
  flags_le : (Bits.unpack reader.flags).length ≤ u64Max
  hashes_le : reader.hashes.length ≤ u64Max

/-- The reader behind a node. -/
def behind (blake2b256 : Octets → Hash) (hashes : List Hash) (selected : Nat → Bool)
    (height position : Nat) (reader : PartialTreeReader) : PartialTreeReader :=
  reader.advance (flagBits hashes selected height position)
    (nodeHashes blake2b256 hashes selected height position)
    (matchesBelow hashes selected height position)

/-- A node without chosen transactions is not expanded. -/
theorem traverse_unselected (presents : Presents blake2b256 hashes selected height position reader)
    (unselected : selectedBelow hashes selected height position = []) :
    traverse (digestNodes blake2b256) height position reader =
      .ok (nodeDigest blake2b256 hashes height position,
        behind blake2b256 hashes selected height position reader) := by
  have bits_eq : flagBits hashes selected height position = [false] := by
    cases height with
    | zero => simp [flagBits, unselected]
    | succ height => simp [flagBits, unselected]
  have nodes_eq : nodeHashes blake2b256 hashes selected height position =
      [nodeDigest blake2b256 hashes height position] := by
    cases height with
    | zero => simp [nodeHashes, unselected]
    | succ height => simp [nodeHashes, unselected]
  have matches_eq : matchesBelow hashes selected height position = [] := by
    rw [matchesBelow, unselected, List.map_nil]
  have flags := presents.flags
  have nodes := presents.nodes
  rw [bits_eq] at flags
  rw [nodes_eq] at nodes
  rw [behind, bits_eq, nodes_eq, matches_eq]
  have hash_eq := @readHash_of_occurs (reader.advance [false] [] []) _ _ nodes presents.hashes_le
  rw [PartialTreeReader.advance_advance] at hash_eq
  exact traverse_hidden position (readBit_of_occurs flags presents.flags_le) hash_eq

theorem traverse_selected_leaf (presents : Presents blake2b256 hashes selected 0 position reader)
    (chosen : selectedBelow hashes selected 0 position = [position]) (small : position < 2 ^ 32) :
    traverse (digestNodes blake2b256) 0 position reader =
      .ok (nodeDigest blake2b256 hashes 0 position,
        behind blake2b256 hashes selected 0 position reader) := by
  have bits_eq : flagBits hashes selected 0 position = [true] := by
    simp [flagBits, chosen]
  have nodes_eq : nodeHashes blake2b256 hashes selected 0 position =
      [transactionAt hashes position] := by
    simp [nodeHashes, chosen]
  have matches_eq : matchesBelow hashes selected 0 position =
      [⟨transactionAt hashes position, position⟩] := by
    rw [matchesBelow, chosen, List.map_singleton]
  have flags := presents.flags
  have nodes := presents.nodes
  have fresh := presents.fresh
  rw [bits_eq] at flags
  rw [nodes_eq] at nodes
  rw [matches_eq, List.map_singleton, List.reverse_singleton, List.singleton_append,
    List.nodup_cons] at fresh
  rw [behind, bits_eq, nodes_eq, matches_eq]
  have hash_eq := @readHash_of_occurs (reader.advance [true] [] []) _ _ nodes presents.hashes_le
  rw [PartialTreeReader.advance_advance] at hash_eq
  have recorded := @recordMatch_of_fresh position
    (reader.advance [true] [transactionAt hashes position] []) _ fresh.1 small
  rw [PartialTreeReader.advance_advance] at recorded
  exact traverse_leaf (readBit_of_occurs flags presents.flags_le) hash_eq recorded

/-- The children of an expanded node are presented one after the other. -/
theorem Presents.left (presents : Presents blake2b256 hashes selected (height + 1) position reader)
    (chosen : selectedBelow hashes selected (height + 1) position ≠ []) :
    reader.readBit = .ok (true, reader.advance [true] [] []) ∧
      Presents blake2b256 hashes selected height (2 * position) (reader.advance [true] [] []) := by
  have flags := presents.flags
  have nodes := presents.nodes
  have fresh := presents.fresh
  rw [flagBits, if_neg (by simpa using chosen)] at flags
  rw [nodeHashes, if_neg (by simpa using chosen), occurs_append_iff] at nodes
  rw [matchesBelow_succ, List.map_append, List.reverse_append, List.append_assoc] at fresh
  have later := (occurs_cons_iff.mp flags).2
  rw [occurs_append_iff] at later
  constructor
  · exact readBit_of_occurs flags presents.flags_le
  · constructor
    · exact presents.total_eq
    · exact later.1
    · exact nodes.1
    · exact (List.nodup_append.mp fresh).2.1
    · exact presents.flags_le
    · exact presents.hashes_le

theorem Presents.right
    (presents : Presents blake2b256 hashes selected (height + 1) position reader)
    (chosen : selectedBelow hashes selected (height + 1) position ≠ [])
    (inside : 2 * position + 1 < treeWidth hashes.length height) :
    Presents blake2b256 hashes selected height (2 * position + 1)
      (behind blake2b256 hashes selected height (2 * position) (reader.advance [true] [] [])) := by
  have flags := presents.flags
  have nodes := presents.nodes
  have fresh := presents.fresh
  rw [flagBits, if_neg (by simpa using chosen), if_pos inside] at flags
  rw [nodeHashes, if_neg (by simpa using chosen), if_pos inside, occurs_append_iff] at nodes
  rw [matchesBelow_succ, List.map_append, List.reverse_append, List.append_assoc] at fresh
  have later := (occurs_cons_iff.mp flags).2
  rw [occurs_append_iff] at later
  constructor
  · exact presents.total_eq
  · exact later.2
  · exact nodes.2
  · exact fresh
  · exact presents.flags_le
  · exact presents.hashes_le

theorem position_lt_of_inside (bounded : hashes.length ≤ maxFilteredBlockTransactions)
    (inside : position < treeWidth hashes.length height) : position < 16666 := by
  rw [lt_treeWidth_iff] at inside
  have scaled := Nat.le_mul_of_pos_right position (Nat.two_pow_pos height)
  exact Nat.lt_of_le_of_lt scaled (Nat.lt_of_lt_of_le inside bounded)

/-- The traversal of a node that the payload presents. -/
theorem traverse_presented (bounded : hashes.length ≤ maxFilteredBlockTransactions)
    (inside : position < treeWidth hashes.length height)
    (presents : Presents blake2b256 hashes selected height position reader) :
    traverse (digestNodes blake2b256) height position reader =
      .ok (nodeDigest blake2b256 hashes height position,
        behind blake2b256 hashes selected height position reader) := by
  have position_lt := position_lt_of_inside bounded inside
  induction height generalizing position reader with
  | zero =>
    by_cases unselected : selectedBelow hashes selected 0 position = []
    · exact traverse_unselected presents unselected
    have chosen : selectedBelow hashes selected 0 position = [position] := by
      rw [selectedBelow_zero] at unselected ⊢
      split_ifs at unselected ⊢ with holds
      · rfl
      · exact absurd rfl unselected
    exact traverse_selected_leaf presents chosen (by omega)
  | succ height ih =>
    by_cases unselected : selectedBelow hashes selected (height + 1) position = []
    · exact traverse_unselected presents unselected
    have chosen : ¬ (selectedBelow hashes selected (height + 1) position).isEmpty := by
      simpa using unselected
    rcases presents.left unselected with ⟨bit_eq, leftPresents⟩
    have left_position : checkedMul position 2 = some (2 * position) := by
      rw [checkedMul, if_pos, Nat.mul_comm]
      rw [u64Max]
      omega
    have right_position : checkedAdd (2 * position) 1 = some (2 * position + 1) := by
      rw [checkedAdd, if_pos]
      rw [u64Max]
      omega
    have left_lt := left_inside inside
    have left_eq := ih left_lt leftPresents (position_lt_of_inside bounded left_lt)
    by_cases right_inside : 2 * position + 1 < treeWidth hashes.length height
    · have rightPresents := presents.right unselected right_inside
      have right_eq := ih right_inside rightPresents (position_lt_of_inside bounded right_inside)
      have last_inside : 2 * position + 1 < treeWidth reader.total height := by
        rw [presents.total_eq]
        exact right_inside
      have run := traverse_paired bit_eq left_position left_eq right_position last_inside right_eq
      rw [run, nodeDigest, if_pos right_inside, behind, behind, behind, flagBits, if_neg chosen,
        if_pos right_inside, nodeHashes, if_neg chosen, if_pos right_inside, matchesBelow_succ,
        PartialTreeReader.advance_advance, PartialTreeReader.advance_advance]
      rfl
    · have last_outside : ¬ 2 * position + 1 < treeWidth reader.total height := by
        rw [presents.total_eq]
        exact right_inside
      have right_matches : matchesBelow hashes selected height (2 * position + 1) = [] := by
        rw [matchesBelow, selectedBelow_outside (Nat.le_of_not_lt right_inside), List.map_nil]
      have run := traverse_padded bit_eq left_position left_eq right_position last_outside
      rw [run, nodeDigest, if_neg right_inside, behind, behind, flagBits, if_neg chosen,
        if_neg right_inside, nodeHashes, if_neg chosen, if_neg right_inside, matchesBelow_succ,
        right_matches, List.append_nil, List.append_nil, List.append_nil,
        PartialTreeReader.advance_advance]
      rfl

end

/-! ## Sizes -/

section

variable (blake2b256 : Octets → Hash) (hashes : List Hash) (selected : Nat → Bool)

/-- A node has at most one hash for each transaction below it. -/
theorem length_nodeHashes_le {height position : Nat}
    (inside : position < treeWidth hashes.length height) :
    (nodeHashes blake2b256 hashes selected height position).length ≤
      min hashes.length ((position + 1) * 2 ^ height) - position * 2 ^ height := by
  induction height generalizing position with
  | zero =>
    rw [treeWidth_zero] at inside
    rw [nodeHashes]
    split <;> simp <;> omega
  | succ height ih =>
    have first := lt_treeWidth_iff.mp inside
    have left := ih (left_inside inside)
    have span := span_eq position height
    have positive : 0 < 2 ^ height := Nat.two_pow_pos height
    have middle : (2 * position + 1) * 2 ^ height = 2 * position * 2 ^ height + 2 ^ height :=
      Nat.add_one_mul _ _
    have last : (2 * position + 1 + 1) * 2 ^ height =
        2 * position * 2 ^ height + 2 ^ height + 2 ^ height := by
      rw [Nat.add_one_mul, middle]
    rw [span.1] at first
    rw [nodeHashes, span.1, span.2, last]
    rw [middle] at left
    split
    next =>
      rw [List.length_singleton]
      omega
    next =>
      rw [List.length_append]
      by_cases right_inside : 2 * position + 1 < treeWidth hashes.length height
      · have right := ih right_inside
        have right_first := lt_treeWidth_iff.mp right_inside
        rw [last, middle] at right
        rw [middle] at right_first
        rw [if_pos right_inside]
        omega
      · rw [if_neg right_inside, List.length_nil]
        omega

theorem length_nodeHashes_le_flagBits (height position : Nat) :
    (nodeHashes blake2b256 hashes selected height position).length ≤
      (flagBits hashes selected height position).length := by
  induction height generalizing position with
  | zero =>
    rw [nodeHashes, flagBits]
    split <;> simp
  | succ height ih =>
    have left := ih (2 * position)
    have right := ih (2 * position + 1)
    rw [nodeHashes, flagBits]
    split_ifs <;> simp <;> omega

theorem length_flagBits_lt (height position : Nat) :
    (flagBits hashes selected height position).length < 2 ^ (height + 1) := by
  induction height generalizing position with
  | zero => simp [flagBits]
  | succ height ih =>
    have left := ih (2 * position)
    have right := ih (2 * position + 1)
    have positive : 0 < 2 ^ height := Nat.two_pow_pos height
    rw [Nat.pow_succ] at left right ⊢
    rw [Nat.pow_succ, flagBits]
    split_ifs <;> simp <;> omega

variable {hashes}

theorem length_blockHashes_le (nonempty : hashes ≠ []) :
    (blockHashes blake2b256 hashes selected).length ≤ hashes.length := by
  have positive : 0 < hashes.length := List.length_pos_iff.mpr nonempty
  have inside := treeWidth_pos nonempty (treeHeight hashes.length)
  have counted := length_nodeHashes_le blake2b256 hashes selected inside
  rw [blockHashes]
  omega

theorem length_blockFlags_lt (bounded : hashes.length ≤ maxFilteredBlockTransactions) :
    (blockFlags hashes selected).length < 2 ^ 16 := by
  have height_le : treeHeight hashes.length ≤ 15 := by
    rw [treeHeight_eq]
    exact Nat.clog_le_of_le_pow (bounded.trans (by decide))
  have counted := length_flagBits_lt hashes selected (treeHeight hashes.length) 0
  have power : 2 ^ (treeHeight hashes.length + 1) ≤ 2 ^ 16 :=
    Nat.pow_le_pow_right (by decide) (Nat.succ_le_succ height_le)
  exact Nat.lt_of_lt_of_le counted power

end

/-! ## Reading a payload -/

/-- What the canonical decoder reads back, and where it stops. -/
structure CodecLaws {Header : Type} (codec : PayloadCodec Header) : Prop where
  readSlice : ∀ octets, ReadsBack (codec.readSlice octets.length) octets octets
  readU32Le : ∀ number, number < 2 ^ 32 → ReadsBack codec.readU32Le (leOctets 4 number) number
  readCompactUsize : ∀ maximum number, number ≤ maximum → number < 2 ^ 64 →
    ReadsBack (codec.readCompactUsize maximum) (compactSize number) number
  readArray : ∀ hash : Hash, ReadsBack codec.readArray hash.bytes hash
  readVarbytes : ∀ maximum octets, octets.length ≤ maximum → octets.length < 2 ^ 64 →
    ReadsBack (codec.readVarbytes maximum) (compactSize octets.length ++ octets) octets
  readVarbytes_long : ∀ maximum octets, maximum < octets.length → octets.length < 2 ^ 64 →
    ∃ error, codec.readVarbytes maximum (compactSize octets.length ++ octets) = .error error
  finish : codec.finish [] = .ok ((), [])

/-- The octets are a header with the Merkle root of a block. -/
structure HeaderOf {Header : Type} (codec : PayloadCodec Header) (blake2b256 : Octets → Hash)
    (hashes : List Hash) (octets : Octets) (header : Header) : Prop where
  length_eq : octets.length = codec.headerSize
  decoded : codec.decodeHeader octets = .ok header
  root_eq : codec.merkleRoot header = merkleRoot (scheme blake2b256) hashes

section

variable {Header : Type} {codec : PayloadCodec Header} {blake2b256 : Octets → Hash}
  {hashes : List Hash} {headerOctets : Octets} {header : Header}

theorem length_compactSize_le (number : Nat) : (compactSize number).length ≤ 9 := by
  unfold compactSize
  split_ifs <;> simp

theorem selectedMatches_eq (selected : Nat → Bool) :
    matchesBelow hashes selected (treeHeight hashes.length) 0 = selectedMatches hashes selected := by
  rw [matchesBelow, selectedBelow_root (le_two_pow_treeHeight _), selectedMatches]

theorem selectedMatches_nodup (distinct : hashes.Nodup) (selected : Nat → Bool) :
    ((selectedMatches hashes selected).map MatchedTransaction.hash).Nodup := by
  rw [selectedMatches, List.map_map]
  apply List.Nodup.map_on
  · intro first firstMember second secondMember same
    have firstInside := List.mem_range.mp (List.mem_filter.mp firstMember).1
    have secondInside := List.mem_range.mp (List.mem_filter.mp secondMember).1
    change hashes.getD first .zero = hashes.getD second .zero at same
    rw [List.getD_eq_getElem _ _ firstInside, List.getD_eq_getElem _ _ secondInside] at same
    exact (distinct.getElem_inj_iff).mp same
  · exact List.nodup_range.filter _

section

variable {selected : Nat → Bool} (laws : CodecLaws codec)
  (headerOf : HeaderOf codec blake2b256 hashes headerOctets header) (nonempty : hashes ≠ [])
  (bounded : hashes.length ≤ maxFilteredBlockTransactions) (distinct : hashes.Nodup)
  (fits : (Bits.pack (blockFlags hashes selected)).length ≤ maxPartialMerkleFlagBytes)

include nonempty bounded

include laws headerOf in
/-- The reader reaches the flags, whatever they are. -/
theorem readPartialMerkle_payload (selected : Nat → Bool) :
    readPartialMerkle codec (codec.blockHash header) (codec.merkleRoot header)
        (headerOctets ++ partialTreePayload blake2b256 hashes selected) =
      (codec.readVarbytes maxPartialMerkleFlagBytes >>= fun flags => codec.finish >>= fun _ =>
        Reader.ensure ((blockHashes blake2b256 hashes selected).length ≤ hashes.length)
          .tooManyHashes >>= fun _ =>
        Reader.ensure ((blockHashes blake2b256 hashes selected).length ≤ flags.length * 8)
          .flagsTooSmall >>= fun _ =>
        pure ⟨hashes.length, blockHashes blake2b256 hashes selected, flags⟩)
        (compactSize (Bits.pack (blockFlags hashes selected)).length ++
          Bits.pack (blockFlags hashes selected)) := by
  have count_le := length_blockHashes_le blake2b256 selected nonempty
  have bound_eq : maxFilteredBlockTransactions = 16666 := rfl
  have slice := laws.readSlice headerOctets
  rw [headerOf.length_eq] at slice
  have lifted := Reader.lift_eq_ok_iff.mpr
    ⟨headerOf.decoded, @rfl _ (partialTreePayload blake2b256 hashes selected)⟩
  rw [readPartialMerkle, Reader.bind_of_ok (slice _), Reader.bind_of_ok lifted,
    Reader.bind_of_ok (Reader.ensure_of_holds ⟨rfl, rfl⟩ _ _), partialTreePayload,
    Reader.bind_of_ok (laws.readU32Le hashes.length (by omega) _),
    Reader.bind_of_ok (Reader.ensure_of_holds (by simpa using nonempty) _ _),
    Reader.bind_of_ok (Reader.ensure_of_holds bounded _ _),
    Reader.bind_of_ok (laws.readCompactUsize _ _ count_le (by omega) _),
    Reader.bind_of_ok (ReadsBack.many (fun hash _ => laws.readArray hash) _)]

include fits in
theorem length_partialTreePayload_le (blake2b256 : Octets → Hash) :
    (partialTreePayload blake2b256 hashes selected).length ≤
      4 + 9 + maxFilteredBlockTransactions * 32 + 9 + maxPartialMerkleFlagBytes := by
  have octets_length (nodes : List Hash) : (nodes.flatMap Hash.bytes).length = nodes.length * 32 := by
    induction nodes with
    | nil => rfl
    | cons node nodes ih =>
      rw [List.flatMap_cons, List.length_append, ih, node.length_eq, List.length_cons]
      omega
  have count_le := length_blockHashes_le blake2b256 selected nonempty
  have count_size := length_compactSize_le (blockHashes blake2b256 hashes selected).length
  have flags_size := length_compactSize_le (Bits.pack (blockFlags hashes selected)).length
  have hashes_size := Nat.mul_le_mul_right 32 (count_le.trans bounded)
  simp only [partialTreePayload, List.length_append, length_leOctets, octets_length]
  omega

include laws headerOf fits in
theorem parsePartialMerkle_payload :
    parsePartialMerkle codec (headerOctets ++ partialTreePayload blake2b256 hashes selected)
        (codec.blockHash header) (codec.merkleRoot header) =
      .ok ⟨hashes.length, blockHashes blake2b256 hashes selected,
        Bits.pack (blockFlags hashes selected)⟩ := by
  have count_le := length_blockHashes_le blake2b256 selected nonempty
  have enough : (blockHashes blake2b256 hashes selected).length ≤
      (Bits.pack (blockFlags hashes selected)).length * 8 := by
    have counted : (blockHashes blake2b256 hashes selected).length ≤
        (blockFlags hashes selected).length :=
      length_nodeHashes_le_flagBits blake2b256 hashes selected _ _
    rw [Bits.length_pack]
    omega
  have small : (Bits.pack (blockFlags hashes selected)).length < 2 ^ 64 :=
    Nat.lt_of_le_of_lt fits (by decide)
  have size := length_partialTreePayload_le nonempty bounded fits blake2b256
  have input_le : ¬ maxMerkleBlockPayloadBytes codec.headerSize <
      (headerOctets ++ partialTreePayload blake2b256 hashes selected).length := by
    rw [List.length_append, headerOf.length_eq, maxMerkleBlockPayloadBytes]
    omega
  rw [parsePartialMerkle, if_neg input_le,
    readPartialMerkle_payload laws headerOf nonempty bounded selected,
    Reader.bind_of_ok (laws.readVarbytes _ _ fits small).eq_ok, Reader.bind_of_ok laws.finish,
    Reader.bind_of_ok (Reader.ensure_of_holds count_le _ _),
    Reader.bind_of_ok (Reader.ensure_of_holds enough _ _)]
  rfl

include distinct fits in
/-- The whole payload is in front of the traversal. -/
theorem presents_root (blake2b256 : Octets → Hash) :
    Presents blake2b256 hashes selected (treeHeight hashes.length) 0
      (PartialMerkle.reader ⟨hashes.length, blockHashes blake2b256 hashes selected,
        Bits.pack (blockFlags hashes selected)⟩) := by
  have count_le := length_blockHashes_le blake2b256 selected nonempty
  constructor
  · rfl
  · exact Bits.occurs_unpack_pack _
  · exact occurs_self _
  · rw [selectedMatches_eq]
    change ((List.map _ _).reverse ++ []).Nodup
    rw [List.append_nil, List.nodup_reverse]
    exact selectedMatches_nodup distinct selected
  · change (Bits.unpack (Bits.pack (blockFlags hashes selected))).length ≤ _
    rw [Bits.length_unpack]
    exact (Nat.mul_le_mul_left 8 fits).trans (by decide)
  · exact (count_le.trans bounded).trans (by decide)

include laws headerOf distinct fits in
/-- A payload whose flags fit is accepted with the chosen transactions. -/
theorem decodePartialMerkle_of_fits :
    decodePartialMerkle codec blake2b256
        (headerOctets ++ partialTreePayload blake2b256 hashes selected)
        (codec.blockHash header) (codec.merkleRoot header) =
      .ok ⟨hashes.length, selectedMatches hashes selected⟩ := by
  have parsed := parsePartialMerkle_payload laws headerOf nonempty bounded fits
  have inside := treeWidth_pos nonempty (treeHeight hashes.length)
  have run := traverse_presented bounded inside
    (presents_root nonempty bounded distinct fits blake2b256)
  rw [nodeDigest_root blake2b256 nonempty, ← headerOf.root_eq, behind, selectedMatches_eq] at run
  rw [decodePartialMerkle, parsed]
  change (traverse _ _ _ _ >>= _) = _
  rw [run]
  change (if ((0 + (blockFlags hashes selected).length + 7) / 8 ≠
      (Bits.pack (blockFlags hashes selected)).length) then
        Except.error WalletEvidenceError.unusedFlagBits
      else if (0 + (blockHashes blake2b256 hashes selected).length ≠
        (blockHashes blake2b256 hashes selected).length) then .error .unusedHashes
      else if codec.merkleRoot header ≠ codec.merkleRoot header then .error .merkleRootMismatch
      else .ok (DecodedPartialMerkle.mk hashes.length ([] ++ selectedMatches hashes selected))) = _
  rw [Bits.length_pack, Nat.zero_add, Nat.zero_add, if_neg (not_not.mpr rfl),
    if_neg (not_not.mpr rfl), if_neg (not_not.mpr rfl), List.nil_append]

include laws headerOf in
/-- A payload with more flags than it may have is refused. -/
theorem decodePartialMerkle_ne_ok
    (long : maxPartialMerkleFlagBytes < (Bits.pack (blockFlags hashes selected)).length)
    (decoded : DecodedPartialMerkle) :
    decodePartialMerkle codec blake2b256
        (headerOctets ++ partialTreePayload blake2b256 hashes selected)
        (codec.blockHash header) (codec.merkleRoot header) ≠ .ok decoded := by
  have small : (Bits.pack (blockFlags hashes selected)).length < 2 ^ 64 := by
    have counted := length_blockFlags_lt selected bounded
    rw [Bits.length_pack]
    omega
  rcases laws.readVarbytes_long _ _ long small with ⟨error, refused⟩
  intro accepted
  rcases of_bind_ok accepted with ⟨payload, parsed, -⟩
  rw [parsePartialMerkle, guard_eq_ok_iff] at parsed
  rcases of_bind_ok parsed.2 with ⟨⟨read, rest⟩, read_eq, -⟩
  rw [readPartialMerkle_payload laws headerOf nonempty bounded selected] at read_eq
  rcases Reader.of_bind_ok read_eq with ⟨flags, middle, flags_eq, -⟩
  rw [refused] at flags_eq
  cases flags_eq

end

/-- The payload of a block and a choice of its transactions is accepted with exactly these
transactions when its nodes have a flag each in the octets that a payload may have. -/
theorem filteredBlock_complete_iff (laws : CodecLaws codec)
    (headerOf : HeaderOf codec blake2b256 hashes headerOctets header) (nonempty : hashes ≠ [])
    (bounded : hashes.length ≤ maxFilteredBlockTransactions) (distinct : hashes.Nodup)
    (selected : Nat → Bool) :
    decodePartialMerkle codec blake2b256
        (headerOctets ++ partialTreePayload blake2b256 hashes selected)
        (codec.blockHash header) (codec.merkleRoot header) =
      .ok ⟨hashes.length, selectedMatches hashes selected⟩ ↔
    (blockFlags hashes selected).length ≤ 8 * maxPartialMerkleFlagBytes := by
  have octets : (blockFlags hashes selected).length ≤ 8 * maxPartialMerkleFlagBytes ↔
      (Bits.pack (blockFlags hashes selected)).length ≤ maxPartialMerkleFlagBytes := by
    rw [Bits.length_pack]
    omega
  rw [octets]
  constructor
  · intro accepted
    by_contra long
    exact decodePartialMerkle_ne_ok laws headerOf nonempty bounded (Nat.not_le.mp long) _ accepted
  · exact decodePartialMerkle_of_fits laws headerOf nonempty bounded distinct

end

/-! ## The number of flags -/

section

theorem sum_pairs (value : Nat → Nat) (count : Nat) :
    ((List.range count).map fun position => value (2 * position) + value (2 * position + 1)).sum =
      ((List.range (2 * count)).map value).sum := by
  induction count with
  | zero => rfl
  | succ count ih =>
    rw [Nat.mul_succ, List.range_succ, List.range_succ, List.range_succ]
    simp only [List.map_append, List.map_singleton, List.sum_append, List.sum_singleton, ih]
    omega

/-- Children that are in a level are counted once each. -/
theorem sum_children (value : Nat → Nat) (width : Nat) :
    ((List.range ((width + 1) / 2)).map fun position =>
      value (2 * position) + if 2 * position + 1 < width then value (2 * position + 1) else 0).sum =
        ((List.range width).map value).sum := by
  have below (count : Nat) (count_le : 2 * count ≤ width) :
      ((List.range count).map fun position =>
        value (2 * position) + if 2 * position + 1 < width then value (2 * position + 1) else 0) =
          (List.range count).map fun position =>
            value (2 * position) + value (2 * position + 1) := by
    apply List.map_congr_left
    intro position member
    have position_lt := List.mem_range.mp member
    rw [if_pos (by omega)]
  rcases Nat.even_or_odd' width with ⟨count, even | odd⟩
  · have half : (width + 1) / 2 = count := by omega
    rw [half, below count (by omega), sum_pairs, even]
  · have half : (width + 1) / 2 = count + 1 := by omega
    rw [half, List.range_succ, List.map_append, List.sum_append, below count (by omega), sum_pairs,
      odd, List.range_succ, List.map_append, List.sum_append]
    simp

variable (hashes : List Hash)

theorem selectedBelow_all_ne_nil {height position : Nat}
    (inside : position < treeWidth hashes.length height) :
    selectedBelow hashes (fun _ => true) height position ≠ [] := by
  rw [lt_treeWidth_iff] at inside
  apply List.ne_nil_of_mem
  rw [selectedBelow, List.mem_filter, List.mem_range'_1]
  constructor
  · have positive : 0 < 2 ^ height := Nat.two_pow_pos height
    exact ⟨Nat.le_refl _, by omega⟩
  · simpa using inside

/-- Where all transactions are chosen, every node has its flag. -/
theorem sum_flagBits_all (height : Nat) :
    ((List.range (treeWidth hashes.length height)).map fun position =>
      (flagBits hashes (fun _ => true) height position).length).sum =
        ((List.range (height + 1)).map (treeWidth hashes.length)).sum := by
  induction height with
  | zero =>
    have single : (fun position => (flagBits hashes (fun _ => true) 0 position).length) =
        fun _ => 1 := rfl
    simp [single]
  | succ height ih =>
    have expanded : ((List.range (treeWidth hashes.length (height + 1))).map fun position =>
        (flagBits hashes (fun _ => true) (height + 1) position).length) =
        (List.range (treeWidth hashes.length (height + 1))).map fun position =>
          1 + ((flagBits hashes (fun _ => true) height (2 * position)).length +
            if 2 * position + 1 < treeWidth hashes.length height then
              (flagBits hashes (fun _ => true) height (2 * position + 1)).length
            else 0) := by
      apply List.map_congr_left
      intro position member
      have chosen := selectedBelow_all_ne_nil hashes (List.mem_range.mp member)
      rw [flagBits, if_neg (by simpa using chosen), List.length_cons, List.length_append,
        Nat.add_comm]
      split_ifs <;> rfl
    rw [expanded, List.sum_map_add, treeWidth_succ, sum_children
      (fun position => (flagBits hashes (fun _ => true) height position).length), ih,
      @List.range_succ (height + 1), List.map_append, List.sum_append, ← treeWidth_succ]
    simp [Nat.add_comm]

theorem length_blockFlags_all (nonempty : hashes ≠ []) :
    (blockFlags hashes fun _ => true).length =
      ((List.range (treeHeight hashes.length + 1)).map (treeWidth hashes.length)).sum := by
  have single : treeWidth hashes.length (treeHeight hashes.length) = 1 := by
    have first := treeWidth_pos nonempty (treeHeight hashes.length)
    have narrow : ¬ 1 < treeWidth hashes.length (treeHeight hashes.length) := by
      rw [one_lt_treeWidth_iff, Nat.not_lt]
      exact le_two_pow_treeHeight _
    omega
  have total := sum_flagBits_all hashes (treeHeight hashes.length)
  rw [single] at total
  simpa [blockFlags] using total

end

/-! Headers and blocks under the digest that keeps the first 32 octets. -/

namespace ExampleFilter

open ExampleBlock (digest length_take_replicate transaction)

def readTagged (tag : Nat) : Reader WalletEvidenceError Nat :=
  if tag < 0xfd then pure tag
  else if tag = 0xfd then readLe .decode 2 id
  else if tag = 0xfe then readLe .decode 4 id
  else readLe .decode 8 id

def readCompact (maximum : Nat) : Reader WalletEvidenceError Nat := do
  let tag ← readLe .decode 1 id
  let number ← readTagged tag
  Reader.ensure (number ≤ maximum) .decode
  pure number

def codec : PayloadCodec Octets :=
  { ExampleBlock.codec with
    readCompactUsize := readCompact
    readVarbytes := fun maximum => do
      let count ← readCompact maximum
      readOctets .decode count }

theorem digest_append (hash : Hash) (rest : Octets) : digest (hash.bytes ++ rest) = hash := by
  apply Hash.ext_bytes
  change (hash.bytes ++ rest ++ List.replicate 32 0).take 32 = hash.bytes
  rw [List.append_assoc, List.take_left' hash.length_eq]

variable {number : Nat}

theorem readsBack_width (width : Nat) (fits : number < 256 ^ width) :
    ReadsBack (readLe WalletEvidenceError.decode width id) (leOctets width number) number :=
  ReadsBack.le WalletEvidenceError.decode fits

theorem readsBack_octets (octets : Octets) :
    ReadsBack (readOctets WalletEvidenceError.decode octets.length) octets octets :=
  ReadsBack.octets WalletEvidenceError.decode octets rfl

/-- The number of a compact size, before it is compared with the bound. -/
theorem readsBack_number (fits : number < 2 ^ 64) :
    ReadsBack (readLe .decode 1 id >>= readTagged) (compactSize number) number := by
  have tagged (tag : Nat) (tag_lt : tag < 256) (octets : Octets)
      (later : ReadsBack (readTagged tag) octets number) :
      ReadsBack (readLe .decode 1 id >>= readTagged) (leOctets 1 tag ++ octets) number :=
    (readsBack_width 1 (by simpa using tag_lt)).bind later
  unfold compactSize
  split_ifs with one two four
  · have read := tagged number (by omega) [] (by
      rw [readTagged, if_pos one]
      exact ReadsBack.pure number)
    rwa [List.append_nil] at read
  · exact tagged 0xfd (by decide) (leOctets 2 number) (readsBack_width 2 (by simpa using two))
  · exact tagged 0xfe (by decide) (leOctets 4 number) (readsBack_width 4 (by simpa using four))
  · exact tagged 0xff (by decide) (leOctets 8 number) (readsBack_width 8 (by simpa using fits))

theorem readCompact_append (maximum : Nat) (fits : number < 2 ^ 64) (rest : Octets) :
    readCompact maximum (compactSize number ++ rest) =
      (Reader.ensure (number ≤ maximum) .decode >>= fun _ => pure number) rest := by
  rcases Reader.of_bind_ok (readsBack_number fits rest) with ⟨tag, middle, tag_eq, number_eq⟩
  rw [readCompact, Reader.bind_of_ok tag_eq, Reader.bind_of_ok number_eq]

theorem readsBack_readCompact {maximum : Nat} (number_le : number ≤ maximum)
    (fits : number < 2 ^ 64) : ReadsBack (readCompact maximum) (compactSize number) number := by
  intro rest
  rw [readCompact_append maximum fits, Reader.bind_of_ok (Reader.ensure_of_holds number_le _ _)]
  rfl

theorem codec_laws : CodecLaws codec where
  readSlice := readsBack_octets
  readU32Le number fits := readsBack_width 4 (by simpa using fits)
  readCompactUsize maximum number := readsBack_readCompact
  readArray hash := by
    have read := @ReadsBack.bind_pure _ _ _ _ digest _ _
      (ReadsBack.octets WalletEvidenceError.decode hash.bytes hash.length_eq)
    have digest_eq := digest_append hash []
    rw [List.append_nil] at digest_eq
    rwa [digest_eq] at read
  readVarbytes maximum octets octets_le fits :=
    (readsBack_readCompact octets_le fits).bind (readsBack_octets octets)
  readVarbytes_long maximum octets long fits := by
    refine ⟨.decode, ?_⟩
    change (readCompact maximum >>= readOctets .decode) _ = _
    change (readCompact maximum _ >>= fun read => readOctets .decode read.1 read.2) = _
    rw [readCompact_append maximum fits, Reader.ensure, if_neg (Nat.not_le.mpr long)]
    rfl
  finish := rfl

/-- A header that carries the Merkle root of the transactions. -/
def headerOctets (hashes : List Hash) : Octets :=
  List.replicate 164 0 ++ ((merkleRoot (scheme digest) hashes).bytes ++ List.replicate 40 0)

theorem headerOf (hashes : List Hash) :
    HeaderOf codec digest hashes (headerOctets hashes) (headerOctets hashes) where
  length_eq := by
    rw [headerOctets, List.length_append, List.length_append, Hash.length_eq, List.length_replicate,
      List.length_replicate]
    rfl
  decoded := rfl
  root_eq := by
    change digest ((headerOctets hashes).drop 164) = _
    rw [headerOctets, List.drop_left' List.length_replicate, digest_append]

/-- As many different transactions as a block may have. -/
def many : List Hash :=
  (List.range maxFilteredBlockTransactions).map fun number =>
    ⟨leOctets 32 number, length_leOctets 32 number⟩

theorem length_many : many.length = maxFilteredBlockTransactions := by
  simp [many]

theorem many_nodup : many.Nodup := by
  apply List.Nodup.map_on
  · intro first firstMember second secondMember same
    have bound : maxFilteredBlockTransactions < 256 ^ 32 := by decide
    have firstFits := Nat.lt_trans (List.mem_range.mp firstMember) bound
    have secondFits := Nat.lt_trans (List.mem_range.mp secondMember) bound
    have octets_eq : leOctets 32 first = leOctets 32 second := congrArg Hash.bytes same
    rw [← leNumber_leOctets firstFits, octets_eq, leNumber_leOctets secondFits]
  · exact List.nodup_range

theorem many_ne_nil : many ≠ [] := by
  rw [← List.length_pos_iff, length_many]
  decide

/-- The tree of the largest block has more nodes than a payload may have flags. -/
theorem length_blockFlags_many : (blockFlags many fun _ => true).length = 33341 := by
  have height_eq : treeHeight maxFilteredBlockTransactions = 15 := by
    rw [treeHeight_eq]
    rfl
  rw [length_blockFlags_all many many_ne_nil, length_many, height_eq]
  decide

theorem largest_block_refused :
    many.length = maxFilteredBlockTransactions ∧ many.Nodup ∧
      HeaderOf codec digest many (headerOctets many) (headerOctets many) ∧
      decodePartialMerkle codec digest
          (headerOctets many ++ partialTreePayload digest many fun _ => true)
          (codec.blockHash (headerOctets many)) (codec.merkleRoot (headerOctets many)) ≠
        .ok ⟨many.length, selectedMatches many fun _ => true⟩ := by
  refine ⟨length_many, many_nodup, headerOf many, ?_⟩
  apply decodePartialMerkle_ne_ok codec_laws (headerOf many) many_ne_nil (Nat.le_of_eq length_many)
  rw [Bits.length_pack, length_blockFlags_many]
  decide

/-- Five transactions, of which the second and the last are chosen. -/
def five : List Hash :=
  [1, 2, 3, 4, 5].map transaction

def chosen (index : Nat) : Bool :=
  index == 1 || index == 4

theorem filteredBlock_complete_chosen :
    decodePartialMerkle codec digest (headerOctets five ++ partialTreePayload digest five chosen)
        (codec.blockHash (headerOctets five)) (codec.merkleRoot (headerOctets five)) =
      .ok ⟨5, [⟨transaction 2, 1⟩, ⟨transaction 5, 4⟩]⟩ := by
  have flags_le : (blockFlags five chosen).length ≤ 8 * maxPartialMerkleFlagBytes := by
    have height_eq : treeHeight five.length = 3 := by
      rw [treeHeight_eq]
      rfl
    rw [blockFlags, height_eq]
    decide
  exact (filteredBlock_complete_iff codec_laws (headerOf five) (List.cons_ne_nil _ _) (by decide)
    (by decide) chosen).mpr flags_le

end ExampleFilter

end HnsDaneEngine.LightWallet
