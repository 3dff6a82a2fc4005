import HnsDaneEngine.Data.Keyed
import HnsDaneEngine.LightWallet.Evidence
import Mathlib.Data.List.Sort

/-!
# Views of one block from several peers

Views of a block are merged when they agree on the header and on the number of
transactions.  This number only shapes the traversal and is never hashed: two accepted
views agree on it when each shows the last transaction that it claims.
-/

namespace HnsDaneEngine.LightWallet

open Control Data Merkle Primitives

/-- Complete matched transaction set for one locally validated block header. -/
structure VerifiedWalletBlock (Transaction : Type) where
  evidence : WalletBlockEvidence
  transactions : List Transaction
  deriving DecidableEq

/-- What the views merged so far prove. -/
structure MergedViews (Transaction : Type) where
  found : Store Nat MatchedTransaction
  positions : Store Hash Nat
  transactions : Store Hash Transaction

section

variable {Transaction : Type} [DecidableEq Transaction]
  (transactionHash : Transaction → Option Hash)

/-- The transactions of one view by their hashes. -/
def blockTransactions : List Transaction → Store Hash Transaction →
    Except WalletEvidenceError (Store Hash Transaction)
  | [], known => .ok known
  | transaction :: rest, known =>
    match transactionHash transaction with
    | none => .error .transaction
    | some hash =>
      if (known.lookup hash).isSome then .error .peerViewTransactionMismatch
      else blockTransactions rest (known.insert hash transaction)

/-- Add the matches of one view; `unmatched` are its transactions without a match. -/
def mergeMatches : List MatchedTransaction → Store Hash Transaction → MergedViews Transaction →
    Except WalletEvidenceError (MergedViews Transaction)
  | [], unmatched, merged =>
    if unmatched.entries.isEmpty then .ok merged else .error .peerViewTransactionMismatch
  | matched :: rest, unmatched, merged =>
    match unmatched.lookup matched.hash with
    | none => .error .peerViewTransactionMismatch
    | some transaction =>
      if (merged.positions.lookup matched.hash).any (fun position => position ≠ matched.index) ∨
          (merged.found.lookup matched.index).any (fun known => known.hash ≠ matched.hash) ∨
          (merged.transactions.lookup matched.hash).any (fun known => known ≠ transaction) then
        .error .peerViewConflict
      else
        mergeMatches rest (unmatched.erase matched.hash)
          { positions := merged.positions.insert matched.hash matched.index
            found := merged.found.insert matched.index matched
            transactions := merged.transactions.insert matched.hash transaction }

def mergeView (header : WalletHeaderAnchor) (totalTransactions : Nat)
    (merged : MergedViews Transaction) (block : VerifiedWalletBlock Transaction) :
    Except WalletEvidenceError (MergedViews Transaction) :=
  if block.evidence.header ≠ header ∨ block.evidence.totalTransactions ≠ totalTransactions then
    .error .peerViewHeaderMismatch
  else if block.transactions.length ≠ block.evidence.found.length then
    .error .peerViewTransactionMismatch
  else do
    let unmatched ← blockTransactions transactionHash block.transactions ∅
    mergeMatches block.evidence.found unmatched merged

/-- The transactions of the merged matches, in the order of the matches. -/
def mergedTransactions : List MatchedTransaction → Store Hash Transaction →
    Except WalletEvidenceError (List Transaction)
  | [], transactions =>
    if transactions.entries.isEmpty then .ok [] else .error .peerViewTransactionMismatch
  | matched :: rest, transactions =>
    match transactions.lookup matched.hash with
    | none => .error .peerViewTransactionMismatch
    | some transaction => do
      let others ← mergedTransactions rest (transactions.erase matched.hash)
      .ok (transaction :: others)

/-- Merge independently verified views of the same block. -/
def mergePeerViews (blocks : List (VerifiedWalletBlock Transaction)) :
    Except WalletEvidenceError (VerifiedWalletBlock Transaction) :=
  match blocks.head? with
  | none => .error .emptyPeerViews
  | some first => do
    let header := first.evidence.header
    let totalTransactions := first.evidence.totalTransactions
    let merged ← blocks.foldlM (mergeView transactionHash header totalTransactions) ⟨∅, ∅, ∅⟩
    let found := (merged.found.entries.map (·.2)).mergeSort fun one other =>
      one.index ≤ other.index
    let transactions ← mergedTransactions found merged.transactions
    .ok ⟨⟨header, totalTransactions, found⟩, transactions⟩

end

section

variable {Transaction : Type} [DecidableEq Transaction]
  {transactionHash : Transaction → Option Hash}

omit [DecidableEq Transaction] in
theorem blockTransactions_ne (transactions : List Transaction) (known : Store Hash Transaction) :
    blockTransactions transactionHash transactions known ≠ .error .peerViewHeaderMismatch := by
  induction transactions generalizing known with
  | nil => simp [blockTransactions]
  | cons transaction rest ih =>
    rw [blockTransactions]
    split
    next => simp
    next =>
      split
      next => simp
      next => exact ih _

theorem mergeMatches_ne (found : List MatchedTransaction) (unmatched : Store Hash Transaction)
    (merged : MergedViews Transaction) :
    mergeMatches found unmatched merged ≠ .error .peerViewHeaderMismatch := by
  induction found generalizing unmatched merged with
  | nil =>
    rw [mergeMatches]
    split <;> simp
  | cons matched rest ih =>
    rw [mergeMatches]
    split
    next => simp
    next =>
      split
      next => simp
      next => exact ih _ _

omit [DecidableEq Transaction] in
theorem mergedTransactions_ne (found : List MatchedTransaction)
    (transactions : Store Hash Transaction) :
    mergedTransactions found transactions ≠ .error .peerViewHeaderMismatch := by
  induction found generalizing transactions with
  | nil =>
    rw [mergedTransactions]
    split <;> simp
  | cons matched rest ih =>
    rw [mergedTransactions]
    split
    next => simp
    next => exact bind_ne_error (ih _) (by simp)

/-- Views that agree on header and number never fail with a header mismatch. -/
theorem mergePeerViews_ne {blocks : List (VerifiedWalletBlock Transaction)}
    (agree : ∀ first ∈ blocks, ∀ second ∈ blocks, first.evidence.header = second.evidence.header ∧
        first.evidence.totalTransactions = second.evidence.totalTransactions) :
    mergePeerViews transactionHash blocks ≠ .error .peerViewHeaderMismatch := by
  unfold mergePeerViews
  cases blocks with
  | nil => simp
  | cons first rest =>
    apply bind_ne_error
    · apply foldlM_ne_error
      intro block member state
      have same := agree block member first List.mem_cons_self
      unfold mergeView
      rw [if_neg (by simp [same.1, same.2])]
      split
      next => simp
      next => exact bind_ne_error (blockTransactions_ne _ _) fun _ => mergeMatches_ne _ _ _
    · intro merged
      exact bind_ne_error (mergedTransactions_ne _ _) (by simp)

end

/-- The evidence shows the last of the transactions that it claims. -/
def WalletBlockEvidence.ShowsLast (evidence : WalletBlockEvidence) : Prop :=
  ∃ found ∈ evidence.found, found.index = evidence.totalTransactions - 1

section

variable {Header : Type} {codec : PayloadCodec Header} {blake2b256 : Octets → Hash} {input : Octets}
  {anchor : WalletHeaderAnchor} {evidence : WalletBlockEvidence} {tree : Tree}

section

variable (accepts : Accepts codec blake2b256 input anchor evidence tree)

include accepts

theorem Accepts.last?_eq (showsLast : evidence.ShowsLast) :
    tree.last? 0 = some (evidence.totalTransactions - 1) := by
  rcases showsLast with ⟨found, shown, last⟩
  rw [accepts.found_eq] at shown
  rcases List.mem_map.mp shown with ⟨⟨hash, index⟩, shows, rfl⟩
  dsimp only at last
  rw [last] at shows
  exact accepts.shaped.last?_eq accepts.positive shows

/-- Two payloads for one anchor that show their last transactions claim one number. -/
theorem totalTransactions_eq_or_collision {otherInput : Octets}
    {otherEvidence : WalletBlockEvidence} {otherTree : Tree}
    (otherAccepts : Accepts codec blake2b256 otherInput anchor otherEvidence otherTree)
    (showsLast : evidence.ShowsLast) (otherShowsLast : otherEvidence.ShowsLast) :
    evidence.totalTransactions = otherEvidence.totalTransactions ∨
      Collision (scheme blake2b256) (hashedInputs codec blake2b256 input anchor ++
        hashedInputs codec blake2b256 otherInput anchor) := by
  rw [accepts.hashedInputs_eq, otherAccepts.hashedInputs_eq]
  have same := accepts.digest_eq.trans otherAccepts.digest_eq.symm
  refine (compatible_or_collision same).imp_left fun compatible => ?_
  have last_same := compatible.last_eq (accepts.last?_eq showsLast)
    (otherAccepts.last?_eq otherShowsLast)
  have positive := accepts.positive
  have otherPositive := otherAccepts.positive
  omega

/-- A match fixes the height of the tree of a block. -/
theorem treeHeight_eq_or_collision {hashes : List Hash}
    (root_eq : anchor.merkleRoot = merkleRoot (scheme blake2b256) hashes)
    (shows : evidence.found ≠ []) :
    treeHeight evidence.totalTransactions = treeHeight hashes.length ∨
      Collision (scheme blake2b256) (hashedInputs codec blake2b256 input anchor ++
        merkleInputs blake2b256 hashes) := by
  rw [accepts.hashedInputs_eq]
  have same : tree.digest (scheme blake2b256) = (fullTree hashes).digest (scheme blake2b256) := by
    rw [accepts.digest_eq, root_eq, digest_fullTree]
  refine (compatible_or_collision same).imp_left fun compatible => ?_
  rw [treeHeight_eq hashes.length]
  apply compatible.depth_eq (fullTree_isFull hashes) accepts.shaped.hasDepth
    (hasDepth_fullTree hashes)
  intro hidden
  apply shows
  rw [accepts.found_eq, shownMatches, hidden]
  rfl

end

/-- Accepted views of one anchor that all show the last transaction they claim agree on the
number of transactions, so that merging them does not fail with a header mismatch; and a view
with a match claims a number whose tree is as high as that of the block. -/
theorem views_agree {Transaction : Type} [DecidableEq Transaction]
    (transactionHash : Transaction → Option Hash) {anchor : WalletHeaderAnchor}
    {views : List (Octets × VerifiedWalletBlock Transaction)}
    (accepted : ∀ view ∈ views, WalletBlockEvidence.decodeForAnchor codec blake2b256 view.1 anchor =
      .ok view.2.evidence) :
    ((∀ view ∈ views, view.2.evidence.ShowsLast) →
      ((∀ first ∈ views, ∀ second ∈ views,
          first.2.evidence.totalTransactions = second.2.evidence.totalTransactions) ∧
        mergePeerViews transactionHash (views.map Prod.snd) ≠ .error .peerViewHeaderMismatch) ∨
      Collision (scheme blake2b256)
        (views.flatMap fun view => hashedInputs codec blake2b256 view.1 anchor)) ∧
    ∀ hashes, anchor.merkleRoot = merkleRoot (scheme blake2b256) hashes →
      ∀ view ∈ views, view.2.evidence.found ≠ [] →
        treeHeight view.2.evidence.totalTransactions = treeHeight hashes.length ∨
          Collision (scheme blake2b256) (hashedInputs codec blake2b256 view.1 anchor ++
            merkleInputs blake2b256 hashes) := by
  constructor
  · intro showLast
    by_cases collision : Collision (scheme blake2b256)
        (views.flatMap fun view => hashedInputs codec blake2b256 view.1 anchor)
    · exact .inr collision
    left
    have totals : ∀ first ∈ views, ∀ second ∈ views,
        first.2.evidence.totalTransactions = second.2.evidence.totalTransactions := by
      intro first inFirst second inSecond
      rcases exists_accepts (accepted first inFirst) with ⟨tree, accepts⟩
      rcases exists_accepts (accepted second inSecond) with ⟨otherTree, otherAccepts⟩
      rcases totalTransactions_eq_or_collision accepts otherAccepts (showLast first inFirst)
        (showLast second inSecond) with equal | collides
      · exact equal
      · refine absurd (collides.mono ?_) collision
        intro input hashed
        rcases List.mem_append.mp hashed with ofFirst | ofSecond
        · exact List.mem_flatMap.mpr ⟨first, inFirst, ofFirst⟩
        · exact List.mem_flatMap.mpr ⟨second, inSecond, ofSecond⟩
    refine ⟨totals, mergePeerViews_ne ?_⟩
    intro block inBlock other inOther
    rcases List.mem_map.mp inBlock with ⟨first, inFirst, rfl⟩
    rcases List.mem_map.mp inOther with ⟨second, inSecond, rfl⟩
    rcases exists_accepts (accepted first inFirst) with ⟨tree, accepts⟩
    rcases exists_accepts (accepted second inSecond) with ⟨otherTree, otherAccepts⟩
    exact ⟨accepts.header_eq.trans otherAccepts.header_eq.symm,
      totals first inFirst second inSecond⟩
  · intro hashes root_eq view inView shows
    rcases exists_accepts (accepted view inView) with ⟨tree, accepts⟩
    exact treeHeight_eq_or_collision accepts root_eq shows

end

/-! The last transaction stays hidden, and the block may as well have four. -/

namespace ExampleBlock

def view (total : Nat) : VerifiedWalletBlock Nat where
  evidence := evidence total
  transactions := [1]

def transactionHash (number : Nat) : Option Hash :=
  some (transaction (UInt8.ofNat number))

/-- A payload for three transactions, with its hashes and flags. -/
def partialPayload (hashes : List Hash) (flags : UInt8) : Octets :=
  List.replicate 164 0 ++ root.bytes ++ List.replicate 40 0 ++ [3, 0, 0, 0] ++ [3] ++
    hashes.flatMap Hash.bytes ++ [1, flags]

/-- Both views match the last transaction, and each one of the others. -/
def overlapping : List (Octets × VerifiedWalletBlock Nat) :=
  [(partialPayload [transaction 1, nodes.leaf (transaction 2), transaction 3] 0x37,
      ⟨⟨anchor, 3, [⟨transaction 1, 0⟩, ⟨transaction 3, 2⟩]⟩, [1, 3]⟩),
    (partialPayload [nodes.leaf (transaction 1), transaction 2, transaction 3] 0x3b,
      ⟨⟨anchor, 3, [⟨transaction 2, 1⟩, ⟨transaction 3, 2⟩]⟩, [2, 3]⟩)]

theorem decodeForAnchor_overlapping :
    ∀ view ∈ overlapping, WalletBlockEvidence.decodeForAnchor codec digest view.1 anchor =
      .ok view.2.evidence := by
  decide +kernel

theorem not_collision_overlapping :
    ¬ Collision (scheme digest)
      (overlapping.flatMap fun view => hashedInputs codec digest view.1 anchor) := by
  decide +kernel

theorem views_agree_overlapping :
    (∀ first ∈ overlapping, ∀ second ∈ overlapping,
        first.2.evidence.totalTransactions = second.2.evidence.totalTransactions) ∧
      mergePeerViews transactionHash (overlapping.map Prod.snd) ≠
        .error .peerViewHeaderMismatch := by
  have showLast : ∀ view ∈ overlapping, view.2.evidence.ShowsLast := by
    rw [overlapping, List.forall_mem_cons, List.forall_mem_singleton]
    constructor
    · exact ⟨⟨transaction 3, 2⟩, by simp, rfl⟩
    · exact ⟨⟨transaction 3, 2⟩, by simp, rfl⟩
  exact ((views_agree transactionHash decodeForAnchor_overlapping).1 showLast).resolve_right
    not_collision_overlapping

/-- Two payloads for the anchor of three transactions claim three and four. -/
theorem views_disagree :
    anchor.merkleRoot =
        merkleRoot (scheme digest) [transaction 1, transaction 2, transaction 3] ∧
      WalletBlockEvidence.decodeForAnchor codec digest (payload 3) anchor =
        .ok (view 3).evidence ∧
      WalletBlockEvidence.decodeForAnchor codec digest (payload 4) anchor =
        .ok (view 4).evidence ∧
      ¬ Collision (scheme digest) (hashedInputs codec digest (payload 3) anchor ++
        hashedInputs codec digest (payload 4) anchor) ∧
      mergePeerViews transactionHash [view 3, view 4] = .error .peerViewHeaderMismatch := by
  refine ⟨?_, ?_, ?_, ?_, ?_⟩
  · simp only [merkleRoot, List.map_cons, List.map_nil, rootOf, parents]
    rfl
  · decide +kernel
  · decide +kernel
  · decide +kernel
  · decide +kernel

end ExampleBlock

end HnsDaneEngine.LightWallet
