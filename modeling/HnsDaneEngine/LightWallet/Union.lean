import HnsDaneEngine.LightWallet.Collector
import Mathlib.Data.List.Dedup

/-!
# The union of several views

Merging views of one block yields the block that shows what any of them shows.  Such a
block is determined by what it shows, so that the order of the views, their repetition and
the grouping of merges do not matter.
-/

namespace HnsDaneEngine.LightWallet

open Codec Control Data Merkle Primitives

section

variable {Transaction : Type} {transactionHash : Transaction → Option Hash}

/-- A match with its transaction. -/
abbrev Row (Transaction : Type) : Type :=
  MatchedTransaction × Transaction

/-- What a block shows. -/
def VerifiedWalletBlock.rows (block : VerifiedWalletBlock Transaction) : List (Row Transaction) :=
  block.evidence.found.zip block.transactions

/-- The transactions of a block are those of its matches, in the order of their indexes. -/
structure InOrder (transactionHash : Transaction → Option Hash)
    (block : VerifiedWalletBlock Transaction) : Prop where
  found : MatchesInOrder block.evidence.found
  aligned : block.transactions.map transactionHash = block.evidence.found.map (some ·.hash)

/-- Rows that share a hash or an index are the same. -/
def Consistent (rows : List (Row Transaction)) : Prop :=
  ∀ first ∈ rows, ∀ second ∈ rows,
    first.1.hash = second.1.hash ∨ first.1.index = second.1.index → first = second

theorem Consistent.mono {rows more : List (Row Transaction)} (consistent : Consistent more)
    (subset : rows ⊆ more) : Consistent rows :=
  fun first inFirst second inSecond => consistent first (subset inFirst) second (subset inSecond)

namespace InOrder

variable {block : VerifiedWalletBlock Transaction}

section

variable (inOrder : InOrder transactionHash block)

include inOrder

theorem length_eq : block.transactions.length = block.evidence.found.length := by
  simpa using congrArg List.length inOrder.aligned

theorem map_fst_rows : block.rows.map Prod.fst = block.evidence.found :=
  List.map_fst_zip (Nat.le_of_eq inOrder.length_eq.symm)

theorem map_snd_rows : block.rows.map Prod.snd = block.transactions :=
  List.map_snd_zip (Nat.le_of_eq inOrder.length_eq)

theorem ascending : block.rows.Pairwise fun first second => first.1.index < second.1.index := by
  have sorted := inOrder.found.ascending
  rw [← inOrder.map_fst_rows, List.pairwise_map] at sorted
  exact sorted

theorem distinct : (block.rows.map fun row => row.1.hash).Nodup := by
  have apart := inOrder.found.distinct
  rw [← inOrder.map_fst_rows, List.map_map] at apart
  exact apart

theorem hash_eq {row : Row Transaction} (member : row ∈ block.rows) :
    transactionHash row.2 = some row.1.hash := by
  have same : block.rows.map (fun row => transactionHash row.2) =
      block.rows.map fun row => some row.1.hash := by
    have aligned := inOrder.aligned
    rw [← inOrder.map_fst_rows, ← inOrder.map_snd_rows, List.map_map, List.map_map] at aligned
    exact aligned
  exact List.map_inj_left.mp same row member

end

end InOrder

/-- The block shows exactly the given rows. -/
structure IsUnion (transactionHash : Transaction → Option Hash) (header : WalletHeaderAnchor)
    (totalTransactions : Nat) (rows : List (Row Transaction))
    (merged : VerifiedWalletBlock Transaction) : Prop where
  header_eq : merged.evidence.header = header
  total_eq : merged.evidence.totalTransactions = totalTransactions
  inOrder : InOrder transactionHash merged
  mem_rows_iff : ∀ row, row ∈ merged.rows ↔ row ∈ rows

/-- Strictly ascending lists with the same members are the same. -/
theorem eq_of_ascending {rows others : List (Row Transaction)}
    (ascending : rows.Pairwise fun first second => first.1.index < second.1.index)
    (othersAscending : others.Pairwise fun first second => first.1.index < second.1.index)
    (same : ∀ row, row ∈ rows ↔ row ∈ others) : rows = others := by
  have distinct {list : List (Row Transaction)}
      (sorted : list.Pairwise fun first second => first.1.index < second.1.index) : list.Nodup :=
    sorted.imp fun less equal => absurd less (by rw [equal]; exact Nat.lt_irrefl _)
  have perm : rows.Perm others :=
    (List.perm_ext_iff_of_nodup (distinct ascending) (distinct othersAscending)).mpr same
  rw [← @sortBy_eq _ _ _ (fun row : Row Transaction => row.1.index) _ _ perm othersAscending]
  exact (sortBy_eq (List.Perm.refl _) ascending).symm

namespace IsUnion

variable {header : WalletHeaderAnchor} {totalTransactions : Nat}
  {rows others : List (Row Transaction)} {merged other : VerifiedWalletBlock Transaction}

/-- There is one block that shows given rows. -/
theorem unique (isUnion : IsUnion transactionHash header totalTransactions rows merged)
    (otherUnion : IsUnion transactionHash header totalTransactions rows other) :
    merged = other := by
  have rows_eq : merged.rows = other.rows := by
    apply eq_of_ascending isUnion.inOrder.ascending otherUnion.inOrder.ascending
    intro row
    rw [isUnion.mem_rows_iff, otherUnion.mem_rows_iff]
  have found_eq : merged.evidence.found = other.evidence.found := by
    rw [← isUnion.inOrder.map_fst_rows, rows_eq, otherUnion.inOrder.map_fst_rows]
  have transactions_eq : merged.transactions = other.transactions := by
    rw [← isUnion.inOrder.map_snd_rows, rows_eq, otherUnion.inOrder.map_snd_rows]
  have header_eq := isUnion.header_eq.trans otherUnion.header_eq.symm
  have total_eq := isUnion.total_eq.trans otherUnion.total_eq.symm
  rcases merged with ⟨⟨header, total, found⟩, transactions⟩
  rcases other with ⟨⟨otherHeader, otherTotal, otherFound⟩, otherTransactions⟩
  simp_all

theorem congr (isUnion : IsUnion transactionHash header totalTransactions rows merged)
    (same : ∀ row, row ∈ rows ↔ row ∈ others) :
    IsUnion transactionHash header totalTransactions others merged :=
  ⟨isUnion.header_eq, isUnion.total_eq, isUnion.inOrder, fun row =>
    (isUnion.mem_rows_iff row).trans (same row)⟩

end IsUnion

end

/-! ## Merging the rows of views -/

section

variable {Transaction : Type} {transactionHash : Transaction → Option Hash}

/-- The store holds the transactions of the rows by their hashes. -/
def Holds (store : Store Hash Transaction) (rows : List (Row Transaction)) : Prop :=
  ∀ hash transaction, store.lookup hash = some transaction ↔
    ∃ index, (⟨hash, index⟩, transaction) ∈ rows

variable {store : Store Hash Transaction} {row : Row Transaction} {rows : List (Row Transaction)}

theorem Holds.isEmpty (holds : Holds store []) : store.entries.isEmpty := by
  rw [List.isEmpty_iff, List.eq_nil_iff_forall_not_mem]
  rintro ⟨hash, transaction⟩ member
  rw [← AList.mem_lookup_iff] at member
  rcases (holds hash transaction).mp member with ⟨index, none⟩
  cases none

theorem Holds.lookup_head (holds : Holds store (row :: rows)) :
    store.lookup row.1.hash = some row.2 :=
  (holds _ _).mpr ⟨row.1.index, List.mem_cons_self⟩

theorem Holds.erase (holds : Holds store (row :: rows))
    (distinct : ((row :: rows).map fun row => row.1.hash).Nodup) :
    Holds (store.erase row.1.hash) rows := by
  rw [List.map_cons, List.nodup_cons] at distinct
  intro hash transaction
  by_cases same : hash = row.1.hash
  · subst same
    rw [AList.lookup_erase]
    constructor
    · intro none
      cases none
    · rintro ⟨index, member⟩
      exact absurd (List.mem_map.mpr ⟨_, member, rfl⟩) distinct.1
  · rw [AList.lookup_erase_ne same, holds]
    constructor
    · rintro ⟨index, member⟩
      rcases List.mem_cons.mp member with head | later
      · exact absurd (congrArg (fun row : Row Transaction => row.1.hash) head) same
      · exact ⟨index, later⟩
    · rintro ⟨index, member⟩
      exact ⟨index, List.mem_cons_of_mem _ member⟩

theorem Holds.insert (holds : Holds store rows)
    (same_row : ∀ other ∈ rows, other.1.hash = row.1.hash → other = row) :
    Holds (store.insert row.1.hash row.2) (rows ++ [row]) := by
  intro hash transaction
  by_cases same : hash = row.1.hash
  · subst same
    rw [AList.lookup_insert]
    constructor
    · intro transaction_eq
      cases transaction_eq
      exact ⟨row.1.index, by simp⟩
    · rintro ⟨index, member⟩
      rcases List.mem_append.mp member with before | added
      · rw [← same_row _ before rfl]
      · rw [← List.mem_singleton.mp added]
  · rw [AList.lookup_insert_ne same, holds]
    constructor
    · rintro ⟨index, member⟩
      exact ⟨index, List.mem_append_left _ member⟩
    · rintro ⟨index, member⟩
      rcases List.mem_append.mp member with before | added
      · exact ⟨index, before⟩
      · rw [← List.mem_singleton.mp added] at same
        exact absurd rfl same

/-- The maps hold the rows. -/
structure Represents (merged : MergedViews Transaction) (rows : List (Row Transaction)) : Prop where
  found_iff : ∀ index matched, merged.found.lookup index = some matched ↔
    ∃ transaction, (matched, transaction) ∈ rows ∧ matched.index = index
  positions_iff : ∀ hash index, merged.positions.lookup hash = some index ↔
    ∃ transaction, (⟨hash, index⟩, transaction) ∈ rows
  transactions : Holds merged.transactions rows

theorem represents_empty : Represents (⟨∅, ∅, ∅⟩ : MergedViews Transaction) [] := by
  constructor
  · simp
  · simp
  · simp [Holds]

/-- One more row. -/
def MergedViews.add (merged : MergedViews Transaction) (row : Row Transaction) :
    MergedViews Transaction where
  positions := merged.positions.insert row.1.hash row.1.index
  found := merged.found.insert row.1.index row.1
  transactions := merged.transactions.insert row.1.hash row.2

theorem Represents.add {merged : MergedViews Transaction}
    (represents : Represents merged rows) (consistent : Consistent (rows ++ [row])) :
    Represents (merged.add row) (rows ++ [row]) := by
  have last : row ∈ rows ++ [row] := by simp
  rcases row with ⟨⟨hash, index⟩, transaction⟩
  constructor
  · intro other matched
    by_cases same : other = index
    · subst same
      rw [MergedViews.add, AList.lookup_insert]
      constructor
      · intro matched_eq
        cases matched_eq
        exact ⟨transaction, last, rfl⟩
      · rintro ⟨shown, member, index_eq⟩
        cases consistent _ member _ last (.inr index_eq)
        rfl
    · rw [MergedViews.add, AList.lookup_insert_ne same, represents.found_iff]
      constructor
      · rintro ⟨shown, member, index_eq⟩
        exact ⟨shown, List.mem_append_left _ member, index_eq⟩
      · rintro ⟨shown, member, index_eq⟩
        rcases List.mem_append.mp member with before | added
        · exact ⟨shown, before, index_eq⟩
        · cases List.mem_singleton.mp added
          exact absurd index_eq.symm same
  · intro other position
    by_cases same : other = hash
    · subst same
      rw [MergedViews.add, AList.lookup_insert]
      constructor
      · intro index_eq
        cases index_eq
        exact ⟨transaction, last⟩
      · rintro ⟨shown, member⟩
        cases consistent _ member _ last (.inl rfl)
        rfl
    · rw [MergedViews.add, AList.lookup_insert_ne same, represents.positions_iff]
      constructor
      · rintro ⟨shown, member⟩
        exact ⟨shown, List.mem_append_left _ member⟩
      · rintro ⟨shown, member⟩
        rcases List.mem_append.mp member with before | added
        · exact ⟨shown, before⟩
        · cases List.mem_singleton.mp added
          exact absurd rfl same
  · exact represents.transactions.insert fun other member same =>
      consistent other (List.mem_append_left _ member) _ last (.inl same)

theorem Holds.lookup_eq_none (holds : Holds store rows)
    {hash : Hash} (absent : hash ∉ rows.map fun row => row.1.hash) :
    store.lookup hash = none := by
  rw [Option.eq_none_iff_forall_not_mem]
  intro transaction found
  rcases (holds hash transaction).mp found with ⟨index, member⟩
  exact absent (List.mem_map.mpr ⟨_, member, rfl⟩)

theorem blockTransactions_eq_ok {known : List (Row Transaction)} (holds : Holds store known)
    (hashes : ∀ row ∈ rows, transactionHash row.2 = some row.1.hash)
    (distinct : ((known ++ rows).map fun row => row.1.hash).Nodup) :
    ∃ after, blockTransactions transactionHash (rows.map Prod.snd) store = .ok after ∧
      Holds after (known ++ rows) := by
  induction rows generalizing known store with
  | nil => exact ⟨store, rfl, by rw [List.append_nil]; exact holds⟩
  | cons row rows ih =>
    have absent : row.1.hash ∉ known.map fun row => row.1.hash := by
      rw [List.map_append, List.map_cons, List.nodup_append] at distinct
      intro before
      exact distinct.2.2 _ before _ List.mem_cons_self rfl
    have added : Holds (store.insert row.1.hash row.2) (known ++ [row]) :=
      holds.insert fun other member same => absurd (List.mem_map.mpr ⟨other, member, same⟩) absent
    have append_eq : known ++ row :: rows = known ++ [row] ++ rows := by simp
    rw [append_eq] at distinct ⊢
    rcases ih added (fun other member => hashes other (List.mem_cons_of_mem _ member)) distinct
      with ⟨after, after_eq, after_holds⟩
    refine ⟨after, ?_, after_holds⟩
    rw [List.map_cons, blockTransactions, hashes row List.mem_cons_self]
    simp only [holds.lookup_eq_none absent]
    exact after_eq

section

variable [DecidableEq Transaction] {merged : MergedViews Transaction}
  {blocks : List (VerifiedWalletBlock Transaction)}

/-- The matches of a view that agrees with the views before it. -/
theorem mergeMatches_eq_ok {later : List (Row Transaction)} {unmatched : Store Hash Transaction}
    (holds : Holds unmatched later) (represents : Represents merged rows)
    (distinct : (later.map fun row => row.1.hash).Nodup) (consistent : Consistent (rows ++ later)) :
    ∃ after, mergeMatches (later.map Prod.fst) unmatched merged = .ok after ∧
      Represents after (rows ++ later) := by
  induction later generalizing rows unmatched merged with
  | nil =>
    refine ⟨merged, ?_, by rw [List.append_nil]; exact represents⟩
    rw [List.map_nil, mergeMatches, if_pos holds.isEmpty]
  | cons row later ih =>
    have append_eq : rows ++ row :: later = rows ++ [row] ++ later := by simp
    have inAll : row ∈ rows ++ row :: later := by simp
    have before (other : Row Transaction) (member : other ∈ rows)
        (same : other.1.hash = row.1.hash ∨ other.1.index = row.1.index) : other = row :=
      consistent other (List.mem_append_left _ member) row inAll same
    have added : Represents (merged.add row) (rows ++ [row]) := by
      apply represents.add
      rw [append_eq] at consistent
      exact consistent.mono (List.subset_append_left _ _)
    have agrees : ¬ ((merged.positions.lookup row.1.hash).any
          (fun position => position ≠ row.1.index) ∨
        (merged.found.lookup row.1.index).any (fun known => known.hash ≠ row.1.hash) ∨
        (merged.transactions.lookup row.1.hash).any (fun known => known ≠ row.2)) := by
      simp only [Option.any_eq_true, decide_eq_true_eq, not_or, not_exists, not_and, not_not]
      refine ⟨?_, ?_, ?_⟩
      · intro position found
        rcases (represents.positions_iff _ _).mp found with ⟨transaction, member⟩
        exact congrArg (fun row : Row Transaction => row.1.index) (before _ member (.inl rfl))
      · intro matched found
        rcases (represents.found_iff _ _).mp found with ⟨transaction, member, index_eq⟩
        exact congrArg (fun row : Row Transaction => row.1.hash) (before _ member (.inr index_eq))
      · intro transaction found
        rcases (represents.transactions _ _).mp found with ⟨index, member⟩
        exact congrArg Prod.snd (before _ member (.inl rfl))
    have rest_distinct := (List.nodup_cons.mp distinct).2
    rw [append_eq] at consistent ⊢
    rcases ih (holds.erase distinct) added rest_distinct consistent with
      ⟨after, after_eq, after_represents⟩
    refine ⟨after, ?_, after_represents⟩
    rw [List.map_cons, mergeMatches, holds.lookup_head]
    simp only [if_neg agrees]
    exact after_eq

variable {header : WalletHeaderAnchor} {totalTransactions : Nat}

/-- Views of one block: their header, their number of transactions and their order. -/
structure IsView (transactionHash : Transaction → Option Hash) (header : WalletHeaderAnchor)
    (totalTransactions : Nat) (block : VerifiedWalletBlock Transaction) : Prop where
  header_eq : block.evidence.header = header
  total_eq : block.evidence.totalTransactions = totalTransactions
  inOrder : InOrder transactionHash block

theorem mergeView_eq_ok {block : VerifiedWalletBlock Transaction}
    (view : IsView transactionHash header totalTransactions block)
    (represents : Represents merged rows) (consistent : Consistent (rows ++ block.rows)) :
    ∃ after, mergeView transactionHash header totalTransactions merged block = .ok after ∧
      Represents after (rows ++ block.rows) := by
  have inOrder := view.inOrder
  have empty : Holds (∅ : Store Hash Transaction) [] := by simp [Holds]
  rcases blockTransactions_eq_ok empty (fun row => inOrder.hash_eq) inOrder.distinct with
    ⟨unmatched, unmatched_eq, holds⟩
  rw [List.nil_append] at holds
  rcases mergeMatches_eq_ok holds represents inOrder.distinct consistent with
    ⟨after, after_eq, after_represents⟩
  refine ⟨after, ?_, after_represents⟩
  rw [inOrder.map_snd_rows] at unmatched_eq
  rw [inOrder.map_fst_rows] at after_eq
  rw [mergeView, if_neg (by simp [view.header_eq, view.total_eq]),
    if_neg (not_not.mpr inOrder.length_eq), unmatched_eq]
  exact after_eq

theorem foldlM_mergeView
    (views : ∀ block ∈ blocks, IsView transactionHash header totalTransactions block)
    (represents : Represents merged rows)
    (consistent : Consistent (rows ++ blocks.flatMap VerifiedWalletBlock.rows)) :
    ∃ after, blocks.foldlM (mergeView transactionHash header totalTransactions) merged = .ok after ∧
      Represents after (rows ++ blocks.flatMap VerifiedWalletBlock.rows) := by
  induction blocks generalizing rows merged with
  | nil => exact ⟨merged, rfl, by simpa using represents⟩
  | cons block blocks ih =>
    rw [List.flatMap_cons, ← List.append_assoc] at consistent ⊢
    rcases mergeView_eq_ok (views block List.mem_cons_self) represents
      (consistent.mono (List.subset_append_left _ _)) with ⟨middle, middle_eq, middle_represents⟩
    rcases ih (fun other member => views other (List.mem_cons_of_mem _ member)) middle_represents
      consistent with ⟨after, after_eq, after_represents⟩
    refine ⟨after, ?_, after_represents⟩
    rw [List.foldlM_cons, middle_eq]
    exact after_eq

omit [DecidableEq Transaction] in
theorem mergedTransactions_eq_ok
    (holds : Holds store rows) (distinct : (rows.map fun row => row.1.hash).Nodup) :
    mergedTransactions (rows.map Prod.fst) store = .ok (rows.map Prod.snd) := by
  induction rows generalizing store with
  | nil => rw [List.map_nil, mergedTransactions, if_pos holds.isEmpty, List.map_nil]
  | cons row rows ih =>
    rw [List.map_cons, mergedTransactions, holds.lookup_head]
    simp only [ih (holds.erase distinct) (List.nodup_cons.mp distinct).2]
    rfl

/-- The rows in the order of their indexes. -/
theorem exists_ascending (consistent : Consistent rows) :
    ∃ sorted : List (Row Transaction),
      sorted.Pairwise (fun first second => first.1.index < second.1.index) ∧
        ∀ row, row ∈ sorted ↔ row ∈ rows := by
  refine ⟨sortBy (fun row => row.1.index) rows.dedup, ?_, ?_⟩
  · have once : (sortBy (fun row : Row Transaction => row.1.index) rows.dedup).Nodup :=
      (sortBy_perm _ _).nodup_iff.mpr (List.nodup_dedup rows)
    refine ((pairwise_sortBy _ _).and once).imp_of_mem ?_
    intro first second inFirst inSecond ordered
    refine Nat.lt_of_le_of_ne ordered.1 fun same => ordered.2 ?_
    exact consistent first (List.mem_dedup.mp (mem_sortBy.mp inFirst)) second
      (List.mem_dedup.mp (mem_sortBy.mp inSecond)) (.inr same)
  · intro row
    rw [mem_sortBy, List.mem_dedup]

omit [DecidableEq Transaction] in
theorem Represents.sorted_found {sorted : List (Row Transaction)}
    (represents : Represents merged rows)
    (ascending : sorted.Pairwise fun first second => first.1.index < second.1.index)
    (same : ∀ row, row ∈ sorted ↔ row ∈ rows) :
    ((merged.found.entries.map (·.2)).mergeSort fun one other => one.index ≤ other.index) =
      sorted.map Prod.fst := by
  have distinct : ((sorted.map fun row => (row.1.index, row.1)).map Prod.fst).Nodup := by
    rw [List.map_map, List.Nodup, List.pairwise_map]
    exact ascending.imp fun less => Nat.ne_of_lt less
  have lookup_iff (index : Nat) (matched : MatchedTransaction) :
      merged.found.lookup index = some matched ↔
        (index, matched) ∈ sorted.map fun row => (row.1.index, row.1) := by
    rw [represents.found_iff, List.mem_map]
    constructor
    · rintro ⟨transaction, member, rfl⟩
      exact ⟨(matched, transaction), (same _).mpr member, rfl⟩
    · rintro ⟨⟨shown, transaction⟩, member, pair_eq⟩
      cases pair_eq
      exact ⟨transaction, (same _).mp member, rfl⟩
  have perm := (Store.entries_perm distinct lookup_iff).map (·.2)
  rw [List.map_map, List.map_map] at perm
  exact @sortBy_eq _ _ _ MatchedTransaction.index _ _ perm (List.pairwise_map.mpr ascending)

/-- Views that do not contradict each other are merged into their union. -/
theorem mergePeerViews_isUnion (nonempty : blocks ≠ [])
    (views : ∀ block ∈ blocks, IsView transactionHash header totalTransactions block)
    (consistent : Consistent (blocks.flatMap VerifiedWalletBlock.rows)) :
    ∃ merged, mergePeerViews transactionHash blocks = .ok merged ∧
      IsUnion transactionHash header totalTransactions
        (blocks.flatMap VerifiedWalletBlock.rows) merged := by
  rcases foldlM_mergeView views represents_empty consistent with ⟨after, after_eq, represents⟩
  rw [List.nil_append] at represents
  rcases exists_ascending consistent with ⟨sorted, ascending, same⟩
  have holds : Holds after.transactions sorted := by
    intro hash transaction
    simp only [represents.transactions hash transaction, same]
  have distinct : (sorted.map fun row => row.1.hash).Nodup := by
    rw [List.Nodup, List.pairwise_map]
    refine ascending.imp_of_mem ?_
    intro first second inFirst inSecond less same_hash
    have equal := consistent first ((same _).mp inFirst) second ((same _).mp inSecond)
      (.inl same_hash)
    rw [equal] at less
    exact Nat.lt_irrefl _ less
  have transactions_eq := mergedTransactions_eq_ok holds distinct
  refine ⟨⟨⟨header, totalTransactions, sorted.map Prod.fst⟩, sorted.map Prod.snd⟩, ?_, ?_⟩
  · rcases blocks with _ | ⟨first, rest⟩
    · exact absurd rfl nonempty
    have view := views first List.mem_cons_self
    simp only [mergePeerViews, List.head?_cons, view.header_eq, view.total_eq, after_eq]
    change (mergedTransactions ((after.found.entries.map (·.2)).mergeSort
      fun one other => one.index ≤ other.index) after.transactions >>= fun transactions =>
        Except.ok (VerifiedWalletBlock.mk ⟨header, totalTransactions,
          (after.found.entries.map (·.2)).mergeSort fun one other => one.index ≤ other.index⟩
          transactions)) = _
    rw [represents.sorted_found ascending same, transactions_eq]
    rfl
  · have rows_eq : VerifiedWalletBlock.rows (⟨⟨header, totalTransactions, sorted.map Prod.fst⟩,
        sorted.map Prod.snd⟩ : VerifiedWalletBlock Transaction) = sorted :=
      (List.zip_of_prod rfl rfl).symm
    constructor
    · rfl
    · rfl
    · constructor
      · constructor
        · exact List.pairwise_map.mpr ascending
        · simpa [Function.comp_def] using distinct
      · change (sorted.map Prod.snd).map transactionHash = (sorted.map Prod.fst).map _
        rw [List.map_map, List.map_map]
        apply List.map_congr_left
        intro row member
        rcases List.mem_flatMap.mp ((same row).mp member) with ⟨block, inBlocks, inRows⟩
        exact (views block inBlocks).inOrder.hash_eq inRows
    · intro row
      rw [rows_eq]
      exact same row

end

end

/-! ## Groups of merges -/

/-- A view, or the merge of at least one grouping. -/
inductive Grouping (Block : Type) : Type
  | view (block : Block)
  | group (first : Grouping Block) (rest : List (Grouping Block))

namespace Grouping

mutual

/-- The views of a grouping from left to right. -/
def leaves {Block : Type} : Grouping Block → List Block
  | .view block => [block]
  | .group first rest => first.leaves ++ leavesOfAll rest

def leavesOfAll {Block : Type} : List (Grouping Block) → List Block
  | [] => []
  | grouping :: rest => grouping.leaves ++ leavesOfAll rest

end

section

variable {Transaction : Type} [DecidableEq Transaction]
  (transactionHash : Transaction → Option Hash)

mutual

/-- Merge each group before the groups around it. -/
def merge : Grouping (VerifiedWalletBlock Transaction) →
    Except WalletEvidenceError (VerifiedWalletBlock Transaction)
  | .view block => .ok block
  | .group first rest => do
    let first ← first.merge
    let rest ← mergeAll rest
    mergePeerViews transactionHash (first :: rest)

def mergeAll : List (Grouping (VerifiedWalletBlock Transaction)) →
    Except WalletEvidenceError (List (VerifiedWalletBlock Transaction))
  | [] => .ok []
  | grouping :: rest => do
    let block ← grouping.merge
    let blocks ← mergeAll rest
    .ok (block :: blocks)

end

variable {transactionHash} {header : WalletHeaderAnchor} {totalTransactions : Nat}
variable {block : VerifiedWalletBlock Transaction}

omit [DecidableEq Transaction] in
theorem isUnion_view (view : IsView transactionHash header totalTransactions block) :
    IsUnion transactionHash header totalTransactions block.rows block :=
  ⟨view.header_eq, view.total_eq, view.inOrder, fun _ => Iff.rfl⟩

omit [DecidableEq Transaction] in
theorem isView_of_isUnion {rows : List (Row Transaction)}
    (isUnion : IsUnion transactionHash header totalTransactions rows block) :
    IsView transactionHash header totalTransactions block :=
  ⟨isUnion.header_eq, isUnion.total_eq, isUnion.inOrder⟩

mutual

/-- However views are grouped, merging yields their union. -/
theorem merge_isUnion : (grouping : Grouping (VerifiedWalletBlock Transaction)) →
    (∀ block ∈ grouping.leaves, IsView transactionHash header totalTransactions block) →
    Consistent (grouping.leaves.flatMap VerifiedWalletBlock.rows) →
    ∃ merged, grouping.merge transactionHash = .ok merged ∧
      IsUnion transactionHash header totalTransactions
        (grouping.leaves.flatMap VerifiedWalletBlock.rows) merged
  | .view block, views, _ => by
    rw [leaves, List.forall_mem_singleton] at views
    refine ⟨block, by rw [merge], ?_⟩
    simpa [leaves] using isUnion_view views
  | .group first rest, views, consistent => by
    rw [leaves] at views consistent
    rw [List.flatMap_append] at consistent
    rcases List.forall_mem_append.mp views with ⟨first_views, rest_views⟩
    rcases merge_isUnion first first_views (consistent.mono (List.subset_append_left _ _)) with
      ⟨front, front_eq, front_union⟩
    rcases mergeAll_isUnion rest rest_views (consistent.mono (List.subset_append_right _ _)) with
      ⟨blocks, blocks_eq, blocks_views, blocks_rows⟩
    have same (row : Row Transaction) :
        row ∈ (front :: blocks).flatMap VerifiedWalletBlock.rows ↔
          row ∈ (leaves (.group first rest)).flatMap VerifiedWalletBlock.rows := by
      rw [List.flatMap_cons, List.mem_append, leaves, List.flatMap_append, List.mem_append,
        front_union.mem_rows_iff, blocks_rows]
    have parts_views : ∀ block ∈ front :: blocks,
        IsView transactionHash header totalTransactions block :=
      List.forall_mem_cons.mpr ⟨isView_of_isUnion front_union, blocks_views⟩
    have parts_consistent : Consistent ((front :: blocks).flatMap VerifiedWalletBlock.rows) := by
      rw [← List.flatMap_append] at consistent
      exact consistent.mono fun row member => (same row).mp member
    rcases mergePeerViews_isUnion (List.cons_ne_nil _ _) parts_views parts_consistent with
      ⟨merged, merged_eq, merged_union⟩
    refine ⟨merged, ?_, merged_union.congr same⟩
    rw [merge, front_eq, blocks_eq]
    exact merged_eq

theorem mergeAll_isUnion : (groupings : List (Grouping (VerifiedWalletBlock Transaction))) →
    (∀ block ∈ leavesOfAll groupings, IsView transactionHash header totalTransactions block) →
    Consistent ((leavesOfAll groupings).flatMap VerifiedWalletBlock.rows) →
    ∃ blocks, mergeAll transactionHash groupings = .ok blocks ∧
      (∀ block ∈ blocks, IsView transactionHash header totalTransactions block) ∧
      ∀ row, row ∈ blocks.flatMap VerifiedWalletBlock.rows ↔
        row ∈ (leavesOfAll groupings).flatMap VerifiedWalletBlock.rows
  | [], _, _ => ⟨[], by rw [mergeAll], by simp, by simp [leavesOfAll]⟩
  | grouping :: rest, views, consistent => by
    rw [leavesOfAll] at views consistent
    rw [List.flatMap_append] at consistent
    rcases List.forall_mem_append.mp views with ⟨front_views, rest_views⟩
    rcases merge_isUnion grouping front_views (consistent.mono (List.subset_append_left _ _)) with
      ⟨front, front_eq, front_union⟩
    rcases mergeAll_isUnion rest rest_views (consistent.mono (List.subset_append_right _ _)) with
      ⟨blocks, blocks_eq, blocks_views, blocks_rows⟩
    refine ⟨front :: blocks, ?_, ?_, ?_⟩
    · rw [mergeAll, front_eq, blocks_eq]
      rfl
    · exact List.forall_mem_cons.mpr ⟨isView_of_isUnion front_union, blocks_views⟩
    · intro row
      rw [List.flatMap_cons, List.mem_append, leavesOfAll, List.flatMap_append, List.mem_append,
        front_union.mem_rows_iff, blocks_rows]

end

end

end Grouping

/-! ## Views from accepted payloads -/

/-- Trees of one shape show one leaf at a position if they agree at all. -/
theorem Shaped.eq_of_shown {total height position : Nat} {tree other : Tree}
    (compatible : Compatible tree other) (shaped : Shaped total height position tree)
    (otherShaped : Shaped total height position other) {first second : Hash} {index : Nat}
    (firstShown : (first, index) ∈ tree.shown position)
    (secondShown : (second, index) ∈ other.shown position) : first = second := by
  induction compatible generalizing height position with
  | hiddenLeft digest other => simp [PartialTree.shown] at firstShown
  | hiddenRight other digest => simp [PartialTree.shown] at secondShown
  | padding => simp [PartialTree.shown] at firstShown
  | leaf item =>
    simp only [PartialTree.shown, List.mem_singleton, Prod.mk.injEq] at firstShown secondShown
    rw [firstShown.1, secondShown.1]
  | node leftSame rightSame leftIh rightIh =>
    rw [PartialTree.shown, List.mem_append] at firstShown secondShown
    cases shaped with
    | paired leftShaped inside rightShaped =>
      cases otherShaped with
      | paired otherLeft otherInside otherRight =>
        rcases firstShown with inLeft | inRight
        · rcases secondShown with otherInLeft | otherInRight
          · exact leftIh leftShaped otherLeft inLeft otherInLeft
          · have low := (leftShaped.shown_range _ inLeft).2
            have high := (otherRight.shown_range _ otherInRight).1
            exact absurd low (Nat.not_lt.mpr high)
        · rcases secondShown with otherInLeft | otherInRight
          · have low := (otherLeft.shown_range _ otherInLeft).2
            have high := (rightShaped.shown_range _ inRight).1
            exact absurd low (Nat.not_lt.mpr high)
          · exact rightIh rightShaped otherRight inRight otherInRight
      | padded otherLeft outside => exact absurd inside (Nat.not_lt.mpr outside)
    | padded leftShaped outside =>
      cases otherShaped with
      | paired otherLeft otherInside otherRight =>
        exact absurd otherInside (Nat.not_lt.mpr outside)
      | padded otherLeft otherOutside =>
        simp only [PartialTree.shown, List.not_mem_nil, or_false] at firstShown secondShown
        exact leftIh leftShaped otherLeft firstShown secondShown

section

variable {Header : Type} {codec : PayloadCodec Header} {blake2b256 : Octets → Hash}
  {Transaction : Type} {transactionHash : Transaction → Option Hash} {anchor : WalletHeaderAnchor}
  {totalTransactions : Nat}

/-- A view that a collector finished for an accepted payload. -/
structure Collected (codec : PayloadCodec Header) (blake2b256 : Octets → Hash)
    (transactionHash : Transaction → Option Hash) (anchor : WalletHeaderAnchor)
    (totalTransactions : Nat) (view : Octets × VerifiedWalletBlock Transaction) : Prop where
  accepted : WalletBlockEvidence.decodeForAnchor codec blake2b256 view.1 anchor =
    .ok view.2.evidence
  collected : ∃ start arrived, view.2.evidence.collect Transaction = .ok start ∧
    (start.after transactionHash arrived).finish = .ok view.2
  total_eq : view.2.evidence.totalTransactions = totalTransactions

theorem Collected.isView {view : Octets × VerifiedWalletBlock Transaction}
    (collected : Collected codec blake2b256 transactionHash anchor totalTransactions view) :
    IsView transactionHash anchor totalTransactions view.2 := by
  have inOrder := matchesInOrder_of_accepted collected.accepted
  rcases exists_accepts collected.accepted with ⟨tree, accepts⟩
  rcases collected.collected with ⟨start, arrived, collect_eq, finishes⟩
  rcases @collect_eq_ok _ transactionHash _ inOrder with ⟨other, other_eq, collecting⟩
  rw [collect_eq] at other_eq
  cases other_eq
  exact ⟨accepts.header_eq, collected.total_eq, inOrder,
    (collectorLaws inOrder collecting).aligned arrived _ finishes⟩

/-- Two views have one hash for an index, or there is a collision. -/
theorem hash_eq_or_collision {first second : Octets × VerifiedWalletBlock Transaction}
    (firstCollected : Collected codec blake2b256 transactionHash anchor totalTransactions first)
    (secondCollected : Collected codec blake2b256 transactionHash anchor totalTransactions second)
    {one other : MatchedTransaction} (inFirst : one ∈ first.2.evidence.found)
    (inSecond : other ∈ second.2.evidence.found) (same : one.index = other.index) :
    one.hash = other.hash ∨ Collision (scheme blake2b256)
      (hashedInputs codec blake2b256 first.1 anchor ++
        hashedInputs codec blake2b256 second.1 anchor) := by
  rcases exists_accepts firstCollected.accepted with ⟨tree, accepts⟩
  rcases exists_accepts secondCollected.accepted with ⟨otherTree, otherAccepts⟩
  have shaped := accepts.shaped
  have otherShaped := otherAccepts.shaped
  rw [firstCollected.total_eq] at shaped
  rw [secondCollected.total_eq] at otherShaped
  rw [accepts.found_eq] at inFirst
  rw [otherAccepts.found_eq] at inSecond
  rcases List.mem_map.mp inFirst with ⟨⟨hash, index⟩, shown, rfl⟩
  rcases List.mem_map.mp inSecond with ⟨⟨otherHash, otherIndex⟩, otherShown, rfl⟩
  change index = otherIndex at same
  subst same
  rw [accepts.hashedInputs_eq, otherAccepts.hashedInputs_eq]
  have digests := accepts.digest_eq.trans otherAccepts.digest_eq.symm
  exact (compatible_or_collision digests).imp_left fun compatible =>
    Shaped.eq_of_shown compatible shaped otherShaped shown otherShown

theorem mem_rows {block : VerifiedWalletBlock Transaction} {row : Row Transaction}
    (member : row ∈ block.rows) :
    row.1 ∈ block.evidence.found ∧ row.2 ∈ block.transactions :=
  List.of_mem_zip member

/-- Views without a collision contradict each other only in their transactions and indexes. -/
theorem consistent_of_collected
    {views : List (Octets × VerifiedWalletBlock Transaction)}
    (collected : ∀ view ∈ views,
      Collected codec blake2b256 transactionHash anchor totalTransactions view)
    (same_transaction : ∀ first ∈ views, ∀ second ∈ views,
      ∀ one ∈ first.2.transactions, ∀ other ∈ second.2.transactions,
        transactionHash one = transactionHash other → one = other)
    (same_index : ∀ first ∈ views, ∀ second ∈ views,
      ∀ one ∈ first.2.evidence.found, ∀ other ∈ second.2.evidence.found,
        one.hash = other.hash → one.index = other.index)
    (free : ¬ Collision (scheme blake2b256)
      (views.flatMap fun view => hashedInputs codec blake2b256 view.1 anchor)) :
    Consistent ((views.map Prod.snd).flatMap VerifiedWalletBlock.rows) := by
  intro one inOne other inOther shared
  simp only [List.mem_flatMap, List.mem_map] at inOne inOther
  rcases inOne with ⟨-, ⟨first, inFirst, rfl⟩, oneShown⟩
  rcases inOther with ⟨-, ⟨second, inSecond, rfl⟩, otherShown⟩
  have firstCollected := collected first inFirst
  have secondCollected := collected second inSecond
  have same_hash : one.1.hash = other.1.hash := by
    rcases shared with same | same
    · exact same
    rcases hash_eq_or_collision firstCollected secondCollected (mem_rows oneShown).1
      (mem_rows otherShown).1 same with equal | collides
    · exact equal
    · refine absurd (collides.mono ?_) free
      intro input hashed
      rcases List.mem_append.mp hashed with ofFirst | ofSecond
      · exact List.mem_flatMap.mpr ⟨first, inFirst, ofFirst⟩
      · exact List.mem_flatMap.mpr ⟨second, inSecond, ofSecond⟩
  have index_eq := same_index first inFirst second inSecond _ (mem_rows oneShown).1 _
    (mem_rows otherShown).1 same_hash
  have transaction_eq : one.2 = other.2 := by
    apply same_transaction first inFirst second inSecond _ (mem_rows oneShown).2 _
      (mem_rows otherShown).2
    rw [firstCollected.isView.inOrder.hash_eq oneShown,
      secondCollected.isView.inOrder.hash_eq otherShown, same_hash]
  rcases one with ⟨⟨hash, index⟩, transaction⟩
  rcases other with ⟨⟨otherHash, otherIndex⟩, otherTransaction⟩
  change hash = otherHash at same_hash
  change index = otherIndex at index_eq
  change transaction = otherTransaction at transaction_eq
  rw [same_hash, index_eq, transaction_eq]

/-- A collector admits every match of accepted evidence once, whatever arrives; and views of
one header and number that give a hash one transaction and one index are merged into their
union, however they are repeated, ordered and grouped, unless two strings that were hashed
for them collide. -/
theorem collect_and_merge [DecidableEq Transaction] :
    (∀ input anchor evidence,
      WalletBlockEvidence.decodeForAnchor codec blake2b256 input anchor = .ok evidence →
      ∃ start, evidence.collect Transaction = .ok start ∧
        CollectorLaws transactionHash evidence start) ∧
    ∀ anchor totalTransactions (views : List (Octets × VerifiedWalletBlock Transaction)),
      views ≠ [] →
      (∀ view ∈ views,
        Collected codec blake2b256 transactionHash anchor totalTransactions view) →
      (∀ first ∈ views, ∀ second ∈ views,
        ∀ one ∈ first.2.transactions, ∀ other ∈ second.2.transactions,
          transactionHash one = transactionHash other → one = other) →
      (∀ first ∈ views, ∀ second ∈ views,
        ∀ one ∈ first.2.evidence.found, ∀ other ∈ second.2.evidence.found,
          one.hash = other.hash → one.index = other.index) →
      (∃ merged, mergePeerViews transactionHash (views.map Prod.snd) = .ok merged ∧
        (∀ matched, matched ∈ merged.evidence.found ↔
          ∃ view ∈ views, matched ∈ view.2.evidence.found) ∧
        (∀ blocks, (∀ block, block ∈ blocks ↔ block ∈ views.map Prod.snd) →
          mergePeerViews transactionHash blocks = .ok merged) ∧
        ∀ grouping : Grouping (VerifiedWalletBlock Transaction),
          (∀ block, block ∈ grouping.leaves ↔ block ∈ views.map Prod.snd) →
          grouping.merge transactionHash = .ok merged) ∨
      Collision (scheme blake2b256)
        (views.flatMap fun view => hashedInputs codec blake2b256 view.1 anchor) := by
  constructor
  · intro input anchor evidence accepted
    have inOrder := matchesInOrder_of_accepted accepted
    rcases @collect_eq_ok _ transactionHash _ inOrder with ⟨start, start_eq, collecting⟩
    exact ⟨start, start_eq, collectorLaws inOrder collecting⟩
  · intro anchor totalTransactions views nonempty collected same_transaction same_index
    by_cases collision : Collision (scheme blake2b256)
        (views.flatMap fun view => hashedInputs codec blake2b256 view.1 anchor)
    · exact .inr collision
    left
    have views_of : ∀ block ∈ views.map Prod.snd,
        IsView transactionHash anchor totalTransactions block := by
      intro block member
      rcases List.mem_map.mp member with ⟨view, inViews, rfl⟩
      exact (collected view inViews).isView
    have consistent := consistent_of_collected collected same_transaction same_index collision
    have rows_subset {blocks : List (VerifiedWalletBlock Transaction)}
        (same : ∀ block, block ∈ blocks ↔ block ∈ views.map Prod.snd) (row : Row Transaction) :
        row ∈ blocks.flatMap VerifiedWalletBlock.rows ↔
          row ∈ (views.map Prod.snd).flatMap VerifiedWalletBlock.rows := by
      simp only [List.mem_flatMap, same]
    have views_nonempty : views.map Prod.snd ≠ [] := by simpa using nonempty
    rcases mergePeerViews_isUnion views_nonempty views_of consistent with
      ⟨merged, merged_eq, isUnion⟩
    refine ⟨merged, merged_eq, ?_, ?_, ?_⟩
    · intro matched
      rw [← isUnion.inOrder.map_fst_rows, List.mem_map]
      simp only [isUnion.mem_rows_iff, List.mem_flatMap, List.mem_map]
      constructor
      · rintro ⟨row, ⟨-, ⟨view, inViews, rfl⟩, shown⟩, rfl⟩
        exact ⟨view, inViews, (mem_rows shown).1⟩
      · rintro ⟨view, inViews, member⟩
        rw [← (collected view inViews).isView.inOrder.map_fst_rows] at member
        rcases List.mem_map.mp member with ⟨row, shown, rfl⟩
        exact ⟨row, ⟨view.2, ⟨view, inViews, rfl⟩, shown⟩, rfl⟩
    · intro blocks same
      have blocks_nonempty : blocks ≠ [] := by
        rintro rfl
        rcases List.exists_mem_of_ne_nil _ views_nonempty with ⟨block, member⟩
        exact absurd ((same block).mpr member) List.not_mem_nil
      rcases mergePeerViews_isUnion blocks_nonempty
        (fun block member => views_of block ((same block).mp member))
        (consistent.mono fun row member => (rows_subset same row).mp member) with
        ⟨other, other_eq, otherUnion⟩
      rw [other_eq, (otherUnion.congr (rows_subset same)).unique isUnion]
    · intro grouping same
      rcases Grouping.merge_isUnion grouping
        (fun block member => views_of block ((same block).mp member))
        (consistent.mono fun row member => (rows_subset same row).mp member) with
        ⟨other, other_eq, otherUnion⟩
      rw [other_eq, (otherUnion.congr (rows_subset same)).unique isUnion]

end

/-! A block that holds one transaction twice. -/

namespace ExampleBlock

/-- Transactions arrive in any order, some again and some that a view does not match. -/
def arrivals : List Nat :=
  [3, 9, 1, 2, 3]

theorem collected_overlapping :
    ∀ view ∈ overlapping, Collected codec digest transactionHash anchor 3 view := by
  have arrive : ∀ view ∈ overlapping,
      (∀ matched ∈ view.2.evidence.found,
        ∃ transaction ∈ arrivals, transactionHash transaction = some matched.hash) ∧
      (view.2.evidence.found.map fun matched =>
        arrival? transactionHash arrivals matched.hash) = view.2.transactions.map some ∧
      view.2.evidence.totalTransactions = 3 := by
    decide +kernel
  intro view member
  have accepted := decodeForAnchor_overlapping view member
  have inOrder := matchesInOrder_of_accepted accepted
  rcases arrive view member with ⟨all, transactions_eq, total_eq⟩
  rcases @collect_eq_ok _ transactionHash _ inOrder with ⟨start, start_eq, collecting⟩
  have collecting := collecting.start inOrder arrivals
  rcases collecting.finish_eq.mpr all with ⟨block, finishes⟩
  rcases collecting.finished inOrder finishes with ⟨evidence_eq, same⟩
  have block_eq : block = view.2 := by
    have transactions_eq := List.map_injective_iff.mpr (Option.some_injective _)
      (same.trans transactions_eq)
    rcases block with ⟨blockEvidence, transactions⟩
    obtain rfl : blockEvidence = view.2.evidence := evidence_eq
    obtain rfl : transactions = view.2.transactions := transactions_eq
    rfl
  exact ⟨accepted, ⟨start, arrivals, start_eq, by rw [finishes, block_eq]⟩, total_eq⟩

theorem collect_and_merge_overlapping :
    (∀ view ∈ overlapping, ∃ start, view.2.evidence.collect Nat = .ok start ∧
      CollectorLaws transactionHash view.2.evidence start) ∧
    ∃ merged, mergePeerViews transactionHash (overlapping.map Prod.snd) = .ok merged ∧
      (∀ matched, matched ∈ merged.evidence.found ↔
        ∃ view ∈ overlapping, matched ∈ view.2.evidence.found) ∧
      (∀ blocks, (∀ block, block ∈ blocks ↔ block ∈ overlapping.map Prod.snd) →
        mergePeerViews transactionHash blocks = .ok merged) ∧
      ∀ grouping : Grouping (VerifiedWalletBlock Nat),
        (∀ block, block ∈ grouping.leaves ↔ block ∈ overlapping.map Prod.snd) →
        grouping.merge transactionHash = .ok merged := by
  have laws := @collect_and_merge _ codec digest _ transactionHash _
  constructor
  · intro view member
    exact laws.1 view.1 anchor view.2.evidence (decodeForAnchor_overlapping view member)
  · refine (laws.2 anchor 3 overlapping (List.cons_ne_nil _ _) collected_overlapping ?_
      ?_).resolve_right not_collision_overlapping
    · decide +kernel
    · decide +kernel

def twinRoot : Hash :=
  nodes.internal (nodes.leaf (transaction 1)) (nodes.leaf (transaction 1))

def twinAnchor : WalletHeaderAnchor :=
  { anchor with merkleRoot := twinRoot }

/-- A payload for the block of two equal transactions, with its hashes and flags. -/
def twinPayload (hashes : Octets) (flags : UInt8) : Octets :=
  List.replicate 164 0 ++ twinRoot.bytes ++ List.replicate 40 0 ++ [2, 0, 0, 0] ++ [2] ++ hashes ++
    [1, flags]

/-- The transaction is shown at the first or at the second position. -/
def twinViews : List (Octets × VerifiedWalletBlock Nat) :=
  [(twinPayload ((transaction 1).bytes ++ (nodes.leaf (transaction 1)).bytes) 3,
      ⟨⟨twinAnchor, 2, [⟨transaction 1, 0⟩]⟩, [1]⟩),
    (twinPayload ((nodes.leaf (transaction 1)).bytes ++ (transaction 1).bytes) 5,
      ⟨⟨twinAnchor, 2, [⟨transaction 1, 1⟩]⟩, [1]⟩)]

/-- The evidence of a view. -/
def twinEvidence (index : Nat) : WalletBlockEvidence :=
  ⟨twinAnchor, 2, [⟨transaction 1, index⟩]⟩

theorem finish_twin : ∀ index ∈ [0, 1],
    (FilteredBlockCollector.after transactionHash
      ⟨twinEvidence index, (∅ : Store Hash Nat).insert (transaction 1) index, ∅⟩ [1]).finish =
        .ok (⟨twinEvidence index, [1]⟩ : VerifiedWalletBlock Nat) := by
  decide +kernel

theorem collected_twins :
    ∀ view ∈ twinViews, Collected codec digest transactionHash twinAnchor 2 view := by
  rw [twinViews, List.forall_mem_cons, List.forall_mem_singleton]
  constructor
  · exact ⟨by decide +kernel, ⟨_, [1], rfl, finish_twin 0 (by simp)⟩, rfl⟩
  · exact ⟨by decide +kernel, ⟨_, [1], rfl, finish_twin 1 (by simp)⟩, rfl⟩

/-- Two views of one transaction are not merged when they show it at different positions. -/
theorem twins_conflict :
    (∀ view ∈ twinViews, Collected codec digest transactionHash twinAnchor 2 view) ∧
      (∀ first ∈ twinViews, ∀ second ∈ twinViews,
        ∀ one ∈ first.2.transactions, ∀ other ∈ second.2.transactions,
          transactionHash one = transactionHash other → one = other) ∧
      ¬ Collision (scheme digest)
        (twinViews.flatMap fun view => hashedInputs codec digest view.1 twinAnchor) ∧
      mergePeerViews transactionHash (twinViews.map Prod.snd) = .error .peerViewConflict := by
  refine ⟨collected_twins, ?_, ?_, ?_⟩
  · simp [twinViews]
  · decide +kernel
  · decide +kernel

end ExampleBlock

end HnsDaneEngine.LightWallet
