import HnsDaneEngine.Data.Keyed
import HnsDaneEngine.Data.TakeFresh
import HnsDaneEngine.NamespaceResolution.Plan
import HnsDaneEngine.PeerWire.Packet
import HnsDaneEngine.Primitives.Checked
import Mathlib.Data.List.Sort

/-!
# Known peers

The table of known peers with their scores, bans and observed heights, and the selection
of peers to contact, which takes one peer of every address group before it takes a second.
-/

namespace HnsDaneEngine.PeerWire

open Data
open Browser (IpAddr)
open NamespaceResolution (SocketAddr)
open Primitives (saturatingAdd)

def banScore : Int := 100

def malformedScore : Int := 100

def transientFailureScore : Int := 5

def successReward : Int := 2

def i32Max : Int := 2147483647

def i32Min : Int := -2147483648

/-- `i32::saturating_add`. -/
def i32SaturatingAdd (first second : Int) : Int :=
  max i32Min (min i32Max (first + second))

def u32Max : Nat := 4294967295

/-- `u32::saturating_add` of one. -/
def u32Next (count : Nat) : Nat :=
  min (count + 1) u32Max

/-- What is known of a peer. -/
structure PeerState where
  address : SocketAddr
  score : Int
  lastHeight : Nat
  lastHeightObservedAt : Option Nat
  lastConnectedAt : Option Nat
  bannedUntil : Option Nat
  successes : Nat
  failures : Nat
  deriving DecidableEq

namespace PeerState

def new (address : SocketAddr) : PeerState where
  address := address
  score := 0
  lastHeight := 0
  lastHeightObservedAt := none
  lastConnectedAt := none
  bannedUntil := none
  successes := 0
  failures := 0

def isBanned (peer : PeerState) (now : Nat) : Bool :=
  peer.bannedUntil.any fun bannedUntil => now < bannedUntil

def recordTransportSuccess (now : Nat) (peer : PeerState) : PeerState :=
  { peer with
    score := max (i32SaturatingAdd peer.score (-successReward)) 0
    lastConnectedAt := some now
    successes := u32Next peer.successes }

def recordConnection (now : Nat) (peer : PeerState) : PeerState :=
  { peer with lastConnectedAt := some now }

def recordTransientFailure (peer : PeerState) : PeerState :=
  { peer with
    score := i32SaturatingAdd peer.score transientFailureScore
    failures := u32Next peer.failures }

/-- Only a peer whose score reaches the limit is banned. -/
def penalize (score : Int) (bannedUntil : Option Nat) (peer : PeerState) : PeerState :=
  let penalized := { peer with score := i32SaturatingAdd peer.score score }
  if banScore ≤ penalized.score ∧ bannedUntil.isSome then { penalized with bannedUntil }
  else penalized

@[simp]
theorem recordTransportSuccess_address (now : Nat) (peer : PeerState) :
    (peer.recordTransportSuccess now).address = peer.address :=
  rfl

@[simp]
theorem recordConnection_address (now : Nat) (peer : PeerState) :
    (peer.recordConnection now).address = peer.address :=
  rfl

@[simp]
theorem recordTransientFailure_address (peer : PeerState) :
    peer.recordTransientFailure.address = peer.address :=
  rfl

@[simp]
theorem penalize_address (score : Int) (bannedUntil : Option Nat) (peer : PeerState) :
    (peer.penalize score bannedUntil).address = peer.address := by
  unfold penalize
  dsimp only
  split <;> rfl

end PeerState

/-- Addresses that count as one. -/
inductive PeerAddressGroup
  | ipv4 (first second : UInt8)
  | ipv6 (first second : UInt16)
  deriving DecidableEq

/-- Two octets of a version 4 address, four of a version 6 address. -/
def PeerAddressGroup.fromSocketAddr (address : SocketAddr) : PeerAddressGroup :=
  match address.ip with
  | .v4 ip => .ipv4 ip.a ip.b
  | .v6 ip => .ipv6 ip.s0 ip.s1

/-- The first address of each group, up to a number of addresses. -/
def firstOfGroups (preferredCount : Nat) :
    List SocketAddr → List PeerAddressGroup → List SocketAddr → List SocketAddr
  | [], _, selected => selected
  | address :: rest, groups, selected =>
    let group := PeerAddressGroup.fromSocketAddr address
    if preferredCount ≤ selected.length then selected
    else if group ∈ groups then firstOfGroups preferredCount rest groups selected
    else firstOfGroups preferredCount rest (group :: groups) (selected ++ [address])

/-- The addresses that are not selected yet, up to a number of addresses. -/
def fillSelection (preferredCount : Nat) : List SocketAddr → List SocketAddr → List SocketAddr
  | [], selected => selected
  | address :: rest, selected =>
    if preferredCount ≤ selected.length then selected
    else if address ∈ selected then fillSelection preferredCount rest selected
    else fillSelection preferredCount rest (selected ++ [address])

/-- The two loops that end each selection. -/
def selectDiverse (preferredCount : Nat) (addresses : List SocketAddr) : List SocketAddr :=
  fillSelection preferredCount addresses (firstOfGroups preferredCount addresses [] [])

section

variable {preferredCount : Nat} {addresses selected : List SocketAddr}

theorem firstOfGroups_eq {groups : List PeerAddressGroup}
    (covered : ∀ group, group ∈ groups ↔
      group ∈ selected.map PeerAddressGroup.fromSocketAddr) :
    firstOfGroups preferredCount addresses groups selected =
      takeFresh PeerAddressGroup.fromSocketAddr preferredCount addresses selected := by
  induction addresses generalizing groups selected with
  | nil => rfl
  | cons address rest ih =>
    simp only [firstOfGroups, takeFresh, covered, ih covered]
    rw [ih (by simp [covered, or_comm])]

theorem fillSelection_eq :
    fillSelection preferredCount addresses selected =
      takeFresh id preferredCount addresses selected := by
  induction addresses generalizing selected with
  | nil => rfl
  | cons address rest ih => rw [fillSelection, takeFresh, List.map_id, ih, ih, id]

/-- Both loops take fresh items: the first of fresh groups, the second any. -/
theorem selectDiverse_eq :
    selectDiverse preferredCount addresses = takeFresh id preferredCount addresses
        (takeFresh PeerAddressGroup.fromSocketAddr preferredCount addresses []) := by
  rw [selectDiverse, fillSelection_eq, firstOfGroups_eq (by simp)]

variable {address : SocketAddr}

theorem mem_of_mem_selectDiverse (mem : address ∈ selectDiverse preferredCount addresses) :
    address ∈ addresses := by
  rw [selectDiverse_eq] at mem
  rcases mem_of_mem_takeFresh mem with early | late
  · exact (mem_of_mem_takeFresh early).resolve_left List.not_mem_nil
  · exact late

/-- What the two loops select: addresses of all groups first, and then all addresses. -/
theorem selectDiverse_spans :
    ∃ firsts, (firsts.map PeerAddressGroup.fromSocketAddr).Nodup ∧
      firsts ⊆ selectDiverse preferredCount addresses ∧
      (firsts.length = preferredCount ∨ ∀ address ∈ addresses,
        PeerAddressGroup.fromSocketAddr address ∈
          firsts.map PeerAddressGroup.fromSocketAddr) ∧
      (selectDiverse preferredCount addresses).Nodup ∧
      (selectDiverse preferredCount addresses).length ≤ preferredCount ∧
      ((selectDiverse preferredCount addresses).length = preferredCount ∨
        addresses ⊆ selectDiverse preferredCount addresses) := by
  rw [selectDiverse_eq]
  rcases @takeFresh_spans _ _ _ PeerAddressGroup.fromSocketAddr preferredCount addresses []
    List.nodup_nil (Nat.zero_le _) with ⟨distinct, length_le, -, spans⟩
  rcases @takeFresh_spans _ _ _ id preferredCount addresses _
    (by simpa using distinct.of_map) length_le with ⟨nodup, selected_le, subset, fills⟩
  rw [List.map_id] at nodup fills
  exact ⟨_, distinct, subset, spans, nodup, selected_le, fills⟩

theorem selectDiverse_nodup : (selectDiverse preferredCount addresses).Nodup := by
  rcases selectDiverse_spans with ⟨_, _, _, _, nodup, _⟩
  exact nodup

/-- Where all addresses fit, every address is selected. -/
theorem mem_selectDiverse_iff (fits : addresses.length ≤ preferredCount) :
    address ∈ selectDiverse preferredCount addresses ↔ address ∈ addresses := by
  have subset : selectDiverse preferredCount addresses ⊆ addresses := fun _ =>
    mem_of_mem_selectDiverse
  rcases selectDiverse_spans with ⟨_, _, _, _, nodup, -, full | fills⟩
  · exact ((List.subperm_of_subset nodup subset).perm_of_length_le (fits.trans full.ge)).mem_iff
  · exact ⟨mem_of_mem_selectDiverse, @fills _⟩

end

/-- Every peer is stored under its own address. -/
structure PeerManager where
  peers : Store SocketAddr PeerState
  keyed : ∀ entry ∈ peers.entries, entry.2.address = entry.1

namespace PeerManager

def get (manager : PeerManager) (address : SocketAddr) : Option PeerState :=
  manager.peers.lookup address

def iter (manager : PeerManager) : List PeerState :=
  manager.peers.entries.map (·.2)

def len (manager : PeerManager) : Nat :=
  manager.peers.size

theorem address_of_get {manager : PeerManager} {address : SocketAddr} {peer : PeerState}
    (found : manager.get address = some peer) : peer.address = address :=
  manager.keyed ⟨address, peer⟩ (AList.mem_lookup_iff.mp found)

theorem keyed_insert {manager : PeerManager} {address : SocketAddr} {peer : PeerState}
    (own : peer.address = address) :
    ∀ entry ∈ (manager.peers.insert address peer).entries, entry.2.address = entry.1 := by
  intro entry mem
  rw [Store.entries_insert_eq, List.mem_cons] at mem
  rcases mem with rfl | old
  · exact own
  · exact manager.keyed entry (Store.mem_entries_of_mem_erase old)

/-- The peer, a new one if it was not known. -/
def known (manager : PeerManager) (address : SocketAddr) : PeerState :=
  (manager.get address).getD (.new address)

theorem known_address (manager : PeerManager) (address : SocketAddr) :
    (manager.known address).address = address := by
  unfold known
  cases found : manager.get address with
  | none => rfl
  | some peer => exact address_of_get found

/-- `upsert`, followed by a change of the peer that keeps its address. -/
def upsertWith (manager : PeerManager) (address : SocketAddr) (change : PeerState → PeerState)
    (keeps : ∀ peer, (change peer).address = peer.address) : PeerManager where
  peers := manager.peers.insert address (change (manager.known address))
  keyed := keyed_insert ((keeps _).trans (manager.known_address address))

theorem id_address (peer : PeerState) : (id peer).address = peer.address :=
  rfl

def upsert (manager : PeerManager) (address : SocketAddr) : PeerManager :=
  manager.upsertWith address id id_address

def recordConnection (manager : PeerManager) (address : SocketAddr) (now : Nat) : PeerManager :=
  manager.upsertWith address (.recordConnection now) (PeerState.recordConnection_address now)

def recordTransportSuccess (manager : PeerManager) (address : SocketAddr) (now : Nat) :
    PeerManager :=
  manager.upsertWith address (.recordTransportSuccess now)
    (PeerState.recordTransportSuccess_address now)

def recordTransientFailure (manager : PeerManager) (address : SocketAddr) : PeerManager :=
  manager.upsertWith address .recordTransientFailure PeerState.recordTransientFailure_address

def penalize (manager : PeerManager) (address : SocketAddr) (score : Int)
    (bannedUntil : Option Nat) : PeerManager :=
  manager.upsertWith address (.penalize score bannedUntil)
    (PeerState.penalize_address score bannedUntil)

def recordMalformed (manager : PeerManager) (address : SocketAddr) (now banSeconds : Nat) :
    PeerManager :=
  manager.penalize address malformedScore (some (saturatingAdd now banSeconds))

/-- The peers that are not banned. -/
def notBanned (manager : PeerManager) (now : Nat) : List PeerState :=
  manager.iter.filter fun peer => !peer.isBanned now

/-- Lower scores first, then greater heights, then by address. -/
def outboundKey (peer : PeerState) : List Int :=
  peer.score :: -(peer.lastHeight : Int) :: peer.address.sortKey.map Int.ofNat

def selectOutbound (manager : PeerManager) (preferredCount now : Nat) : List SocketAddr :=
  let peers := (manager.notBanned now).insertionSort fun left right =>
    outboundKey left ≤ outboundKey right
  selectDiverse preferredCount (peers.map PeerState.address)

section

variable {manager : PeerManager} {address other : SocketAddr} {peer : PeerState} {now : Nat}

theorem mem_notBanned_iff :
    peer ∈ manager.notBanned now ↔
      manager.get peer.address = some peer ∧ peer.isBanned now = false := by
  unfold notBanned iter
  rw [List.mem_filter, Bool.not_eq_true', List.mem_map]
  constructor
  · rintro ⟨⟨entry, entryMem, rfl⟩, free⟩
    have own := manager.keyed entry entryMem
    refine ⟨?_, free⟩
    rw [own]
    exact AList.mem_lookup_iff.mpr entryMem
  · rintro ⟨found, free⟩
    exact ⟨⟨⟨peer.address, peer⟩, AList.mem_lookup_iff.mp found, rfl⟩, free⟩

theorem selectOutbound_nodup (preferredCount : Nat) :
    (manager.selectOutbound preferredCount now).Nodup :=
  selectDiverse_nodup

/-- With room for all peers, the known peers that are not banned are selected. -/
theorem mem_selectOutbound_iff :
    address ∈ manager.selectOutbound manager.len now ↔
      ∃ state, manager.get address = some state ∧ state.isBanned now = false := by
  unfold selectOutbound
  have fits : (((manager.notBanned now).insertionSort fun left right =>
      outboundKey left ≤ outboundKey right).map PeerState.address).length ≤ manager.len := by
    rw [List.length_map, List.length_insertionSort]
    exact (List.length_filter_le _ _).trans (List.length_map _).le
  rw [mem_selectDiverse_iff fits, List.mem_map]
  constructor
  · rintro ⟨state, mem, rfl⟩
    exact ⟨state, mem_notBanned_iff.mp ((List.perm_insertionSort _ _).mem_iff.mp mem)⟩
  · rintro ⟨state, found, free⟩
    obtain rfl := address_of_get found
    exact ⟨state, (List.perm_insertionSort _ _).mem_iff.mpr (mem_notBanned_iff.mpr ⟨found, free⟩), rfl⟩

theorem get_upsertWith {change : PeerState → PeerState}
    {keeps : ∀ peer, (change peer).address = peer.address} :
    (manager.upsertWith address change keeps).get other =
      if other = address then some (change (manager.known address)) else manager.get other := by
  unfold upsertWith get
  split
  next same =>
    subst same
    exact AList.lookup_insert _
  next different => exact AList.lookup_insert_ne different

end

end PeerManager

end HnsDaneEngine.PeerWire
