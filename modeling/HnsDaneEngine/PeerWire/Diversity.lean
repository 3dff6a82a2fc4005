import HnsDaneEngine.PeerWire.Peers
import Mathlib.Data.Finset.Card

/-!
# Diversity of the selected peers

However many addresses of one network a table holds, a selection spans as many address
groups as its size and the table allow.
-/

namespace HnsDaneEngine.PeerWire

open NamespaceResolution (SocketAddr)

/-- The address groups of addresses. -/
def addressGroups (addresses : List SocketAddr) : Finset PeerAddressGroup :=
  (addresses.map PeerAddressGroup.fromSocketAddr).toFinset

theorem addressGroups_subset {addresses selected : List SocketAddr}
    (subset : selected ⊆ addresses) :
    addressGroups selected ⊆ addressGroups addresses := by
  intro group mem
  rw [addressGroups, List.mem_toFinset] at mem ⊢
  exact List.map_subset _ subset mem

/-- The addresses of a selection are among the eligible ones, as many as are wanted, and of
as many groups as there can be. -/
structure IsDiverse (eligible : List SocketAddr) (preferredCount : Nat)
    (selected : List SocketAddr) : Prop where
  nodup : selected.Nodup
  subset : selected ⊆ eligible
  length_eq : selected.length = min preferredCount eligible.length
  groups_eq : (addressGroups selected).card = min preferredCount (addressGroups eligible).card

theorem isDiverse_selectDiverse (preferredCount : Nat) {eligible addresses : List SocketAddr}
    (perm : addresses.Perm eligible) (distinct : eligible.Nodup) :
    IsDiverse eligible preferredCount (selectDiverse preferredCount addresses) := by
  have subset : selectDiverse preferredCount addresses ⊆ eligible := fun _ mem =>
    perm.subset (mem_of_mem_selectDiverse mem)
  rcases @selectDiverse_spans preferredCount addresses with
    ⟨firsts, distinct_groups, firsts_subset, spans, nodup, length_le, fills⟩
  have fits := (List.subperm_of_subset nodup subset).length_le
  refine ⟨nodup, subset, ?_, Nat.le_antisymm (Nat.le_min.mpr ⟨?_, ?_⟩) ?_⟩
  · rcases fills with full | fills
    · omega
    · have all_le := (List.subperm_of_subset (perm.nodup_iff.mpr distinct) fills).length_le
      rw [perm.length_eq] at all_le
      omega
  · exact ((List.toFinset_card_le _).trans (List.length_map _).le).trans length_le
  · exact Finset.card_le_card (addressGroups_subset subset)
  · have groups_le := Finset.card_le_card (addressGroups_subset firsts_subset)
    rw [addressGroups, List.toFinset_card_of_nodup distinct_groups, List.length_map] at groups_le
    rcases spans with full | spans
    · exact (min_le_left _ _).trans (full.symm.trans_le groups_le)
    · refine (min_le_right _ _).trans (Finset.card_le_card fun group mem => ?_)
      rw [addressGroups, List.mem_toFinset] at mem ⊢
      rcases List.mem_map.mp mem with ⟨address, eligibleMem, rfl⟩
      exact List.map_subset _ firsts_subset (spans address (perm.symm.subset eligibleMem))

variable (manager : PeerManager)

namespace PeerManager

/-- The number of groups of the peers that are not banned. -/
def addressGroupCount (now : Nat) : Nat :=
  (addressGroups ((manager.notBanned now).map PeerState.address)).card

/-- The peers that may be asked for further addresses. -/
def discoverable (now : Nat) (exclude : List SocketAddr) : List PeerState :=
  manager.iter.filter fun peer => !peer.isBanned now && peer.address ∉ exclude

/-- Fewer successes first, then lower scores, then the longest unused, then greater heights. -/
def discoveryKey (peer : PeerState) : List Int :=
  (peer.successes : Int) :: peer.score :: (peer.lastConnectedAt.elim (-1) Int.ofNat) ::
    -(peer.lastHeight : Int) :: peer.address.sortKey.map Int.ofNat

def selectDiscoveryOutbound (preferredCount now : Nat)
    (exclude : List SocketAddr) : List SocketAddr :=
  let peers := (manager.discoverable now exclude).insertionSort fun left right =>
    discoveryKey left ≤ discoveryKey right
  selectDiverse preferredCount (peers.map PeerState.address)

theorem nodup_address : (manager.iter.map PeerState.address).Nodup := by
  have keys_eq : manager.iter.map PeerState.address = manager.peers.keys := by
    rw [iter, List.map_map]
    exact List.map_congr_left fun entry mem => manager.keyed entry mem
  rw [keys_eq]
  exact manager.peers.nodupKeys

/-- Both selections take as many eligible peers as they may, of as many address groups as
there can be in such a selection. -/
theorem selections_diverse (manager : PeerManager) (preferredCount now : Nat)
    (exclude : List SocketAddr) :
    IsDiverse ((manager.notBanned now).map PeerState.address) preferredCount
        (manager.selectOutbound preferredCount now) ∧
      (addressGroups (manager.selectOutbound preferredCount now)).card =
        min preferredCount (manager.addressGroupCount now) ∧
      IsDiverse ((manager.discoverable now exclude).map PeerState.address) preferredCount
        (manager.selectDiscoveryOutbound preferredCount now exclude) := by
  have diverse (eligible : PeerState → Bool) (sorted : List PeerState)
      (perm : sorted.Perm (manager.iter.filter eligible)) :
      IsDiverse ((manager.iter.filter eligible).map PeerState.address) preferredCount
        (selectDiverse preferredCount (sorted.map PeerState.address)) :=
    isDiverse_selectDiverse preferredCount (perm.map _)
      (manager.nodup_address.sublist (List.filter_sublist.map _))
  have outbound := diverse (fun peer => !peer.isBanned now) _ (List.perm_insertionSort
    (fun left right => outboundKey left ≤ outboundKey right) _)
  exact ⟨outbound, outbound.groups_eq, diverse _ _ (List.perm_insertionSort _ _)⟩

end PeerManager

end HnsDaneEngine.PeerWire
