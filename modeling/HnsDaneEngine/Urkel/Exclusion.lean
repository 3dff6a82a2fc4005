import HnsDaneEngine.Urkel.Proof

/-!
# Mutual exclusion of Urkel proofs

Two accepted proofs for one root and one key are read from the root downwards.
Equal hashes come from equal strings, unless the runs contain a collision, and
the strings determine what was hashed: the first octet separates leaves,
internal nodes and skip nodes, and the size field of a skip node fixes where its
prefix ends.  Both proofs therefore take the same branches until both reach
their position, where the remaining combinations of bodies exclude each other.
-/

namespace HnsDaneEngine.Urkel

open Primitives

/-- Two different hashed strings have the same digest. -/
def Collides (blake2b256 : Octets → Hash) (hashed : List Octets) : Prop :=
  ∃ first ∈ hashed, ∃ second ∈ hashed, first ≠ second ∧ blake2b256 first = blake2b256 second

/-- Some hashed string has the all-zero digest. -/
def HashesToZero (blake2b256 : Octets → Hash) (hashed : List Octets) : Prop :=
  ∃ input ∈ hashed, blake2b256 input = Hash.zero

theorem leafInput_inj {firstKey secondKey firstValue secondValue : Hash}
    (equal : leafInput firstKey firstValue = leafInput secondKey secondValue) :
    firstKey = secondKey ∧ firstValue = secondValue := by
  simp only [leafInput, List.cons.injEq, true_and] at equal
  exact Hash.append_bytes_inj equal

theorem leafInput_ne_internalInput (key valueHash : Hash) (bitPrefix : BitPrefix)
    (left right : Hash) : leafInput key valueHash ≠ internalInput bitPrefix left right := by
  unfold leafInput internalInput
  split <;> simp

/-- Sizes of at most 256 are determined by the size field. -/
theorem size_eq_of_field {first second : Nat} (firstSmall : first ≤ urkelBits)
    (secondSmall : second ≤ urkelBits) (low_eq : UInt8.ofNat first = UInt8.ofNat second)
    (high_eq : UInt8.ofNat (first / 256) = UInt8.ofNat (second / 256)) : first = second := by
  have low := congrArg UInt8.toNat low_eq
  have high := congrArg UInt8.toNat high_eq
  simp only [UInt8.toNat_ofNat', urkelBits] at low high firstSmall secondSmall
  omega

/-- An internal or skip node is determined by the string that is hashed for
it. -/
theorem internalInput_inj {first second : BitPrefix}
    {firstLeft firstRight secondLeft secondRight : Hash}
    (firstSmall : first.size ≤ urkelBits) (secondSmall : second.size ≤ urkelBits)
    (equal : internalInput first firstLeft firstRight =
      internalInput second secondLeft secondRight) :
    first = second ∧ firstLeft = secondLeft ∧ firstRight = secondRight := by
  obtain ⟨firstSize, firstData, firstLength⟩ := first
  obtain ⟨secondSize, secondData, secondLength⟩ := second
  simp only [internalInput] at equal
  split at equal
  · rename_i firstEmpty
    split at equal
    · rename_i secondEmpty
      subst firstEmpty secondEmpty
      simp only [List.cons.injEq, true_and] at equal
      obtain rfl : firstData = [] := List.length_eq_zero_iff.mp firstLength
      obtain rfl : secondData = [] := List.length_eq_zero_iff.mp secondLength
      exact ⟨rfl, Hash.append_bytes_inj equal⟩
    · simp at equal
  · split at equal
    · simp at equal
    simp only [List.cons.injEq, true_and] at equal
    obtain ⟨low_eq, high_eq, rest_eq⟩ := equal
    obtain rfl := size_eq_of_field firstSmall secondSmall low_eq high_eq
    obtain ⟨rfl, children_eq⟩ :=
      List.append_inj rest_eq (firstLength.trans secondLength.symm)
    exact ⟨rfl, Hash.append_bytes_inj children_eq⟩

section

variable (blake2b256 : Octets → Hash) (key : Hash) (hashed : List Octets)

/-- The string hashed for a node whose branch bit is at `branch`, over a child on
the path of the key. -/
def nodeInput (node : UrkelProofNode) (branch : Nat) (child : Hash) : Octets :=
  if hasBit key.bytes branch then internalInput node.bitPrefix node.hash child
  else internalInput node.bitPrefix child node.hash

/-- The body is accepted at a depth with a hash, with the strings for it among
the hashed ones. -/
def OpensLeaf (depth : Nat) (hash : Hash) : ProofBody → Prop
  | .deadend => hash = .zero
  | .short bitPrefix left right =>
    0 < bitPrefix.size ∧ bitPrefix.size ≤ urkelBits ∧ bitPrefix.has key.bytes depth = false ∧
      internalInput bitPrefix left right ∈ hashed ∧
      hash = blake2b256 (internalInput bitPrefix left right)
  | .collision other valueHash =>
    other ≠ key ∧ leafInput other valueHash ∈ hashed ∧ hash = blake2b256 (leafInput other valueHash)
  | .exists_ value =>
    value ∈ hashed ∧ leafInput key (blake2b256 value) ∈ hashed ∧
      hash = blake2b256 (leafInput key (blake2b256 value))

/-- The nodes lead from a hash at a depth down to the body. -/
def Opens (body : ProofBody) : Nat → Hash → List UrkelProofNode → Prop
  | depth, hash, [] => OpensLeaf blake2b256 key hashed depth hash body
  | depth, hash, node :: rest =>
    node.bitPrefix.size ≤ urkelBits ∧ node.bitPrefix.has key.bytes depth = true ∧
      ∃ child, Opens body (depth + node.bitPrefix.size + 1) child rest ∧
        nodeInput key node (depth + node.bitPrefix.size) child ∈ hashed ∧
        hash = blake2b256 (nodeInput key node (depth + node.bitPrefix.size) child)

/-- A run keeps the strings that were hashed before. -/
theorem subset_climbRun (root next : Hash) (depth : Nat) (nodes : List UrkelProofNode) :
    hashed ⊆ (climbRun blake2b256 root key next depth hashed nodes).2 := by
  induction nodes generalizing next depth hashed with
  | nil => simp [climbRun]
  | cons node rest ih =>
    unfold climbRun
    split
    · simp
    · dsimp only
      split
      · simp
      · exact List.Subset.trans (by simp) (ih _ _ _)

variable {blake2b256 key hashed}

variable {depth : Nat} {hash : Hash} {body : ProofBody} {more : List Octets}

theorem OpensLeaf.mono (opens : OpensLeaf blake2b256 key hashed depth hash body)
    (subset : hashed ⊆ more) : OpensLeaf blake2b256 key more depth hash body := by
  cases body with
  | deadend => exact opens
  | short bitPrefix left right =>
    exact ⟨opens.1, opens.2.1, opens.2.2.1, subset opens.2.2.2.1, opens.2.2.2.2⟩
  | collision other valueHash => exact ⟨opens.1, subset opens.2.1, opens.2.2⟩
  | exists_ value => exact ⟨subset opens.1, subset opens.2.1, opens.2.2⟩

/-- The loop climbs: below the nodes that remain, the path down to the body is
already open; when the loop accepts, it is open from the root. -/
theorem opens_of_climbRun {root next : Hash} {remaining done : List UrkelProofNode}
    {result : List Octets} (small : ∀ node ∈ remaining, node.bitPrefix.size ≤ urkelBits)
    (accepted : climbRun blake2b256 root key next depth hashed remaining = (true, result))
    (opens : Opens blake2b256 key result body depth next done) :
    Opens blake2b256 key result body 0 root (remaining.reverse ++ done) := by
  induction remaining generalizing next depth hashed done with
  | nil =>
    simp only [climbRun, Prod.mk.injEq, Bool.and_eq_true, beq_iff_eq] at accepted
    obtain ⟨⟨rfl, rfl⟩, _⟩ := accepted
    exact opens
  | cons node rest ih =>
    unfold climbRun at accepted
    split at accepted
    · simp at accepted
    rename_i deep
    dsimp only at accepted
    split at accepted
    · simp at accepted
    rename_i matched
    rw [Bool.not_eq_true', Bool.not_eq_false] at matched
    rw [List.forall_mem_cons] at small
    have input_eq : (if hasBit key.bytes (depth - 1) then
        internalInput node.bitPrefix node.hash next
        else internalInput node.bitPrefix next node.hash) =
        nodeInput key node (depth - 1) next := rfl
    rw [input_eq] at accepted
    have subset := subset_climbRun blake2b256 key
      (hashed ++ [nodeInput key node (depth - 1) next]) root
      (blake2b256 (nodeInput key node (depth - 1) next))
      (depth - 1 - node.bitPrefix.size) rest
    rw [accepted] at subset
    have branch_eq : depth - 1 - node.bitPrefix.size + node.bitPrefix.size = depth - 1 := by
      omega
    have depth_eq : depth - 1 + 1 = depth := by omega
    rw [List.reverse_cons, List.append_assoc]
    apply ih small.2 accepted
    refine ⟨small.1, matched, next, ?_, ?_, ?_⟩
    · rw [branch_eq, depth_eq]
      exact opens
    · rw [branch_eq]
      exact subset (by simp)
    · rw [branch_eq]

theorem Opens.mono {nodes : List UrkelProofNode}
    (opens : Opens blake2b256 key hashed body depth hash nodes) (subset : hashed ⊆ more) :
    Opens blake2b256 key more body depth hash nodes := by
  induction nodes generalizing depth hash with
  | nil => exact OpensLeaf.mono opens subset
  | cons node rest ih =>
    obtain ⟨small, matched, child, below, mem, hash_eq⟩ := opens
    exact ⟨small, matched, child, ih below, subset mem, hash_eq⟩

/-- The value that a body includes. -/
def ProofBody.value : ProofBody → Option Octets
  | .exists_ value => some value
  | _ => none

/-- Hashed strings with one digest are equal, or collide. -/
theorem eq_or_collides {first second : Octets} (firstMem : first ∈ hashed)
    (secondMem : second ∈ hashed) (digest_eq : blake2b256 first = blake2b256 second) :
    first = second ∨ Collides blake2b256 hashed := by
  by_cases equal : first = second
  · exact .inl equal
  · exact .inr ⟨first, firstMem, second, secondMem, equal, digest_eq⟩

/-- Different strings with one digest collide. -/
theorem collides_of_ne {first second : Octets} (firstMem : first ∈ hashed)
    (secondMem : second ∈ hashed) (digest_eq : blake2b256 first = blake2b256 second)
    (ne : first ≠ second) : Collides blake2b256 hashed :=
  (eq_or_collides firstMem secondMem digest_eq).resolve_left ne

/-- The value of the key and a body without value exclude each other at one
position. -/
theorem leaf_exclusive {value : Octets}
    (includes : OpensLeaf blake2b256 key hashed depth hash (.exists_ value))
    (opens : OpensLeaf blake2b256 key hashed depth hash body) :
    body.value = some value ∨ Collides blake2b256 hashed ∨ HashesToZero blake2b256 hashed := by
  obtain ⟨valueMem, leafMem, hash_eq⟩ := includes
  cases body with
  | deadend => exact .inr (.inr ⟨_, leafMem, hash_eq.symm.trans opens⟩)
  | short bitPrefix left right =>
    obtain ⟨_, _, _, inputMem, input_eq⟩ := opens
    exact .inr (.inl (collides_of_ne leafMem inputMem (hash_eq.symm.trans input_eq)
      (leafInput_ne_internalInput _ _ _ _ _)))
  | collision other valueHash =>
    obtain ⟨otherKey, inputMem, input_eq⟩ := opens
    apply Or.inr
    apply Or.inl
    apply collides_of_ne leafMem inputMem (hash_eq.symm.trans input_eq)
    intro equal
    exact otherKey (leafInput_inj equal).1.symm
  | exists_ other =>
    obtain ⟨otherMem, otherLeafMem, other_eq⟩ := opens
    rcases eq_or_collides leafMem otherLeafMem (hash_eq.symm.trans other_eq) with
      equal | collides
    · rcases eq_or_collides valueMem otherMem (leafInput_inj equal).2 with rfl | collides
      · exact .inl rfl
      · exact .inr (.inl collides)
    · exact .inr (.inl collides)

/-- A node on the path of the key and a body at the same position exclude each
other: the skipped bits of a `short` body are not those of the key. -/
theorem leaf_node_exclusive {other : ProofBody} {node : UrkelProofNode} {rest : List UrkelProofNode}
    (opens : OpensLeaf blake2b256 key hashed depth hash body)
    (below : Opens blake2b256 key hashed other depth hash (node :: rest)) :
    Collides blake2b256 hashed ∨ HashesToZero blake2b256 hashed := by
  obtain ⟨small, matched, child, _, nodeMem, node_eq⟩ := below
  have leaf_ne : ∀ leafKey valueHash,
      leafInput leafKey valueHash ≠ nodeInput key node (depth + node.bitPrefix.size) child := by
    intro leafKey valueHash
    unfold nodeInput
    split <;> exact leafInput_ne_internalInput _ _ _ _ _
  cases body with
  | deadend => exact .inr ⟨_, nodeMem, node_eq.symm.trans opens⟩
  | collision leafKey valueHash =>
    obtain ⟨_, inputMem, input_eq⟩ := opens
    exact .inl (collides_of_ne inputMem nodeMem (input_eq.symm.trans node_eq) (leaf_ne _ _))
  | exists_ value =>
    obtain ⟨_, inputMem, input_eq⟩ := opens
    exact .inl (collides_of_ne inputMem nodeMem (input_eq.symm.trans node_eq) (leaf_ne _ _))
  | short bitPrefix left right =>
    obtain ⟨_, prefixSmall, unmatched, inputMem, input_eq⟩ := opens
    apply Or.inl
    apply collides_of_ne inputMem nodeMem (input_eq.symm.trans node_eq)
    intro equal
    have prefix_eq : bitPrefix = node.bitPrefix := by
      unfold nodeInput at equal
      split at equal
      · exact (internalInput_inj prefixSmall small equal).1
      · exact (internalInput_inj prefixSmall small equal).1
    rw [prefix_eq, matched] at unmatched
    contradiction

/-- Equal strings for two nodes at one position lead to one child. -/
theorem nodeInput_inj {first second : UrkelProofNode} {firstChild secondChild : Hash}
    (firstSmall : first.bitPrefix.size ≤ urkelBits)
    (secondSmall : second.bitPrefix.size ≤ urkelBits)
    (equal : nodeInput key first (depth + first.bitPrefix.size) firstChild =
      nodeInput key second (depth + second.bitPrefix.size) secondChild) :
    first.bitPrefix.size = second.bitPrefix.size ∧ firstChild = secondChild := by
  have prefix_eq : first.bitPrefix = second.bitPrefix := by
    unfold nodeInput at equal
    split at equal <;> split at equal <;>
      exact (internalInput_inj firstSmall secondSmall equal).1
  refine ⟨congrArg BitPrefix.size prefix_eq, ?_⟩
  unfold nodeInput at equal
  rw [prefix_eq] at equal
  split at equal
  · exact (internalInput_inj secondSmall secondSmall equal).2.2
  · exact (internalInput_inj secondSmall secondSmall equal).2.1

/-- Two openings of one hash at one position agree on the value. -/
theorem opens_agree {firstBody secondBody : ProofBody}
    {firstNodes secondNodes : List UrkelProofNode}
    (first : Opens blake2b256 key hashed firstBody depth hash firstNodes)
    (second : Opens blake2b256 key hashed secondBody depth hash secondNodes) :
    firstBody.value = secondBody.value ∨ Collides blake2b256 hashed ∨
      HashesToZero blake2b256 hashed := by
  induction firstNodes generalizing depth hash secondNodes with
  | nil =>
    cases secondNodes with
    | cons node rest => exact .inr (leaf_node_exclusive first second)
    | nil =>
      cases firstBody with
      | exists_ value => exact (leaf_exclusive first second).imp_left Eq.symm
      | deadend | short | collision =>
        cases secondBody with
        | exists_ value => exact leaf_exclusive second first
        | deadend | short | collision => exact .inl rfl
  | cons node rest ih =>
    cases secondNodes with
    | nil => exact .inr (leaf_node_exclusive second first)
    | cons otherNode otherRest =>
      obtain ⟨small, _, child, below, mem, hash_eq⟩ := first
      obtain ⟨otherSmall, _, otherChild, otherBelow, otherMem, other_eq⟩ := second
      rcases eq_or_collides mem otherMem (hash_eq.symm.trans other_eq) with equal | collides
      · obtain ⟨size_eq, rfl⟩ := nodeInput_inj small otherSmall equal
        rw [size_eq] at below
        exact ih below otherBelow
      · exact .inr (.inl collides)

/-- What a sane body says about the type field and its prefix. -/
def SaneBody (proofType : UInt8) : ProofBody → Prop
  | .deadend => proofType = typeDeadend
  | .short bitPrefix _ _ =>
    proofType = typeShort ∧ 0 < bitPrefix.size ∧ bitPrefix.size ≤ urkelBits
  | .collision _ _ => proofType = typeCollision
  | .exists_ _ => proofType = typeExists

variable {proof : UrkelProof}

theorem saneBody_of_isSane (sane : proof.isSane = true) :
    (∀ node ∈ proof.nodes, node.bitPrefix.size ≤ urkelBits) ∧
      SaneBody proof.proofType proof.body := by
  unfold UrkelProof.isSane at sane
  split at sane
  · contradiction
  split at sane
  · contradiction
  · rename_i noneLong
    constructor
    · simpa using noneLong
    · cases body_eq : proof.body <;> simp_all [SaneBody]

/-- The kind of a sane proof says whether its body has a value. -/
theorem kind_eq_of_isSane (sane : proof.isSane = true) :
    proof.kind = if proof.body.value.isSome then .inclusion else .nonInclusion := by
  have saneBody := (saneBody_of_isSane sane).2
  unfold UrkelProof.kind
  cases body_eq : proof.body with
  | deadend =>
    rw [body_eq] at saneBody
    rw [show proof.proofType = typeDeadend from saneBody]
    rfl
  | short bitPrefix left right =>
    rw [body_eq] at saneBody
    rw [saneBody.1]
    rfl
  | collision other valueHash =>
    rw [body_eq] at saneBody
    rw [show proof.proofType = typeCollision from saneBody]
    rfl
  | exists_ value =>
    rw [body_eq] at saneBody
    rw [show proof.proofType = typeExists from saneBody]
    rfl

/-- A body that fits the key opens its hash over the strings hashed for it. -/
theorem opensLeaf_of_leafRun {proofType : UInt8} {leaf : Hash} (sane : SaneBody proofType body)
    (fits : leafRun blake2b256 key depth body = some (leaf, hashed)) :
    OpensLeaf blake2b256 key hashed depth leaf body := by
  cases body with
  | deadend =>
    simp only [leafRun, Option.some.injEq, Prod.mk.injEq] at fits
    exact fits.1.symm
  | short bitPrefix left right =>
    simp only [leafRun] at fits
    split at fits
    · contradiction
    · rename_i unmatched
      simp only [Option.some.injEq, Prod.mk.injEq] at fits
      obtain ⟨rfl, rfl⟩ := fits
      exact ⟨sane.2.1, sane.2.2, by simpa using unmatched, by simp, rfl⟩
  | collision other valueHash =>
    simp only [leafRun] at fits
    split at fits
    · contradiction
    · rename_i otherKey
      simp only [Option.some.injEq, Prod.mk.injEq] at fits
      obtain ⟨rfl, rfl⟩ := fits
      exact ⟨otherKey, by simp, rfl⟩
  | exists_ value =>
    simp only [leafRun, Option.some.injEq, Prod.mk.injEq] at fits
    obtain ⟨rfl, rfl⟩ := fits
    exact ⟨by simp, by simp, rfl⟩

/-- An accepted proof is sane and opens the root, over the strings hashed by its
run. -/
theorem opens_of_verify {root : Hash} (accepted : proof.verify blake2b256 root key = true) :
    proof.isSane = true ∧
      Opens blake2b256 key (proof.verifyRun blake2b256 root key).2 proof.body 0 root
        proof.nodes := by
  unfold UrkelProof.verify at accepted
  unfold UrkelProof.verifyRun at accepted ⊢
  cases sane : proof.isSane with
  | false => simp [sane] at accepted
  | true =>
    obtain ⟨small, saneBody⟩ := saneBody_of_isSane sane
    cases fits : leafRun blake2b256 key proof.depth proof.body with
    | none => simp [sane, fits] at accepted
    | some leaf =>
      obtain ⟨leaf, hashed⟩ := leaf
      simp only [sane, fits, Bool.not_true, Bool.false_eq_true, if_false, true_and]
        at accepted ⊢
      have subset := subset_climbRun blake2b256 key hashed root leaf proof.depth proof.nodes.reverse
      have opensLeaf := (opensLeaf_of_leafRun saneBody fits).mono subset
      have opens : Opens blake2b256 key (climbRun blake2b256 root key leaf proof.depth hashed
          proof.nodes.reverse).2 proof.body 0 root (proof.nodes.reverse.reverse ++ []) :=
        opens_of_climbRun (by simpa using small) (Prod.ext accepted rfl) opensLeaf
      simpa using opens

end

/-- Two decoded and accepted proofs for one root and key both include the same
value or both include none, unless the two runs hash different strings to one digest or some
string to zero. -/
theorem verify_exclusive (blake2b256 : Octets → Hash) (root key : Hash)
    (firstBytes secondBytes : Octets) (first second : UrkelProof)
    (_firstDecoded : UrkelProof.decode firstBytes = .ok first)
    (_secondDecoded : UrkelProof.decode secondBytes = .ok second)
    (firstAccepted : first.verify blake2b256 root key = true)
    (secondAccepted : second.verify blake2b256 root key = true) :
    (first.kind = .inclusion ∧ second.kind = .inclusion ∧ first.value = second.value) ∨
      (first.kind = .nonInclusion ∧ second.kind = .nonInclusion) ∨
      Collides blake2b256 ((first.verifyRun blake2b256 root key).2 ++
        (second.verifyRun blake2b256 root key).2) ∨
      HashesToZero blake2b256 ((first.verifyRun blake2b256 root key).2 ++
        (second.verifyRun blake2b256 root key).2) := by
  obtain ⟨firstSane, firstOpens⟩ := opens_of_verify firstAccepted
  obtain ⟨secondSane, secondOpens⟩ := opens_of_verify secondAccepted
  have agree := opens_agree
    (firstOpens.mono (List.subset_append_left _ (second.verifyRun blake2b256 root key).2))
    (secondOpens.mono (List.subset_append_right (first.verifyRun blake2b256 root key).2 _))
  rcases agree with value_eq | broken
  · rw [kind_eq_of_isSane firstSane, kind_eq_of_isSane secondSane, ← value_eq]
    cases present : first.body.value with
    | some value => exact .inl ⟨rfl, rfl, value_eq⟩
    | none => exact .inr (.inl ⟨rfl, rfl⟩)
  · exact .inr (.inr broken)

namespace TwoLeaves

def key : Hash :=
  ⟨List.replicate 32 3, by simp⟩

/-- A key with the same first six bits. -/
def otherKey : Hash :=
  ⟨List.replicate 32 1, by simp⟩

/-- `dns` -/
def value : Octets :=
  [100, 110, 115]

/-- `tls` -/
def otherValue : Octets :=
  [116, 108, 115]

def valueHash : Hash :=
  ⟨[122, 0, 98, 46, 105, 181, 37, 135, 11, 154, 234, 215, 240, 227, 6, 3, 218, 76, 233,
    104, 227, 97, 77, 101, 208, 73, 114, 152, 255, 143, 74, 35], by decide⟩

def leafHash : Hash :=
  ⟨[247, 223, 233, 156, 83, 223, 25, 153, 152, 230, 202, 172, 175, 183, 171, 157, 47, 73,
    199, 102, 187, 165, 14, 191, 72, 197, 195, 146, 26, 77, 70, 236], by decide⟩

def otherValueHash : Hash :=
  ⟨[243, 167, 220, 187, 252, 224, 118, 84, 171, 29, 206, 29, 193, 127, 56, 251, 73, 245,
    128, 203, 66, 99, 77, 56, 60, 98, 217, 223, 18, 20, 251, 68], by decide⟩

def otherLeafHash : Hash :=
  ⟨[100, 49, 114, 66, 10, 12, 70, 7, 182, 220, 241, 127, 75, 123, 145, 188, 188, 187, 155,
    16, 250, 91, 81, 47, 123, 80, 73, 147, 17, 234, 253, 21], by decide⟩

def root : Hash :=
  ⟨[106, 224, 204, 248, 53, 79, 67, 152, 159, 63, 53, 155, 25, 220, 46, 220, 89, 68, 25,
    112, 109, 233, 208, 251, 10, 193, 213, 239, 129, 45, 43, 144], by decide⟩

/-- The six bits above both leaves. -/
def shared : BitPrefix :=
  ⟨6, [0], by decide⟩

/-- BLAKE2b-256 on the strings of the tree. -/
def blake2b256 (input : Octets) : Hash :=
  if input = value then valueHash
  else if input = leafInput key valueHash then leafHash
  else if input = otherValue then otherValueHash
  else if input = leafInput otherKey otherValueHash then otherLeafHash
  else if input = internalInput shared otherLeafHash leafHash then root
  else key

/-- An inclusion proof below one node.  Of the bitmap one bit is read, the others differ. -/
def bytes (bitmap : UInt8) : Octets :=
  [7, 0xc0, 1, 0, bitmap, 6, 0] ++ otherLeafHash.bytes ++ [3, 0] ++ value

def proof : UrkelProof :=
  ⟨typeExists, 7, [⟨shared, otherLeafHash⟩], .exists_ value⟩

theorem decode_bytes : UrkelProof.decode (bytes 0x80) = .ok proof := by
  rfl

theorem decode_otherBytes : UrkelProof.decode (bytes 0x81) = .ok proof := by
  rfl

theorem verify_proof : proof.verify blake2b256 root key = true := by
  decide +kernel

end TwoLeaves

open TwoLeaves in
theorem verify_exclusive_twoLeaves :
    bytes 0x80 ≠ bytes 0x81 ∧ proof.nodes ≠ [] ∧
    ((proof.kind = .inclusion ∧ proof.kind = .inclusion ∧ proof.value = proof.value) ∨
      (proof.kind = .nonInclusion ∧ proof.kind = .nonInclusion) ∨
      Collides blake2b256 ((proof.verifyRun blake2b256 root key).2 ++
        (proof.verifyRun blake2b256 root key).2) ∨
      HashesToZero blake2b256 ((proof.verifyRun blake2b256 root key).2 ++
        (proof.verifyRun blake2b256 root key).2)) := by
  refine ⟨by decide, by decide, ?_⟩
  exact verify_exclusive blake2b256 root key (bytes 0x80) (bytes 0x81) proof proof decode_bytes
    decode_otherBytes verify_proof verify_proof

end HnsDaneEngine.Urkel
