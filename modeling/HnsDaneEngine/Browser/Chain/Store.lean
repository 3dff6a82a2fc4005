import HnsDaneEngine.Control.Effect
import HnsDaneEngine.Data.Keyed
import HnsDaneEngine.Data.Lineage
import HnsDaneEngine.Primitives.Header
import HnsDaneEngine.Primitives.Pow

/-!
# Header stores

A store keeps validated headers by their hash, an index of the canonical chain by height
and the hash of its tip.  Chains work over any store that follows the laws below: a
successful call has exactly its effect, and a failed one has none.  Heights are natural
numbers; the program's heights are below 2^32.
-/

namespace HnsDaneEngine.Browser.Chain

open Control Primitives

/-- A header with its place and work. -/
structure StoredHeader where
  hash : Hash
  header : BlockHeader
  height : Nat
  chainwork : Chainwork
  deriving DecidableEq

/-- Why a header is refused. -/
inductive ChainError
  | invalidGenesisHeader
  | unknownParent
  | duplicateHeader
  | missingBestHeader
  | invalidDifficultyBits (actual expected : UInt32)
  | invalidDifficultyWindow
  | invalidProofOfWork
  | invalidCheckpoint (height : Nat) (actual expected : Hash)
  | pow (error : PowError)
  | storage (message : String)

/-- The operations on a store.  A store may have a cheaper way for several headers. -/
class HeaderStore (S : Type) where
  getHeader : S → Hash → Option StoredHeader
  putHeader : StoredHeader → Effect S ChainError Unit
  putHeaders : List StoredHeader → Effect S ChainError Unit := Effect.forEach putHeader
  bestHash : S → Option Hash
  canonicalHash : S → Nat → Option Hash
  promoteCanonicalTip : StoredHeader → Effect S ChainError Unit
  promoteCanonicalTips : List StoredHeader → Effect S ChainError Unit :=
    Effect.forEach promoteCanonicalTip
  replaceCanonicalChain : List StoredHeader → Effect S ChainError Unit

/-- The three tables of a store. -/
@[ext]
structure Ledger where
  headers : Hash → Option StoredHeader
  canonical : Nat → Option Hash
  best : Option Hash

namespace Ledger

def put (ledger : Ledger) (header : StoredHeader) : Ledger :=
  { ledger with headers := Function.update ledger.headers header.hash (some header) }

def putAll (ledger : Ledger) (headers : List StoredHeader) : Ledger :=
  headers.foldl put ledger

/-- The header becomes the tip of the canonical chain as it is. -/
def promote (ledger : Ledger) (header : StoredHeader) : Ledger :=
  { ledger with
    canonical := Function.update ledger.canonical header.height (some header.hash)
    best := some header.hash }

def promoteAll (ledger : Ledger) (headers : List StoredHeader) : Ledger :=
  headers.foldl promote ledger

/-- The canonical chain gives way to another one. -/
def replace (ledger : Ledger) (headers : List StoredHeader) : Ledger :=
  promoteAll { ledger with canonical := fun _ => none } headers

/-- New headers, no two with one hash. -/
def Fresh (ledger : Ledger) (headers : List StoredHeader) : Prop :=
  (∀ header ∈ headers, ledger.headers header.hash = none) ∧
    headers.Pairwise fun first second => first.hash ≠ second.hash

def Holds (ledger : Ledger) (headers : List StoredHeader) : Prop :=
  ∀ header ∈ headers, ledger.headers header.hash = some header

@[simp]
theorem put_headers_self (ledger : Ledger) (header : StoredHeader) :
    (ledger.put header).headers header.hash = some header :=
  Function.update_self ..

variable {header : StoredHeader}

theorem put_headers_of_ne {hash : Hash} (ne : hash ≠ header.hash) (ledger : Ledger) :
    (ledger.put header).headers hash = ledger.headers hash :=
  Function.update_of_ne ne ..

@[simp]
theorem put_canonical (ledger : Ledger) (header : StoredHeader) :
    (ledger.put header).canonical = ledger.canonical :=
  rfl

@[simp]
theorem put_best (ledger : Ledger) (header : StoredHeader) :
    (ledger.put header).best = ledger.best :=
  rfl

@[simp]
theorem putAll_best (ledger : Ledger) (headers : List StoredHeader) :
    (ledger.putAll headers).best = ledger.best := by
  induction headers generalizing ledger with
  | nil => rfl
  | cons header headers ih => exact ih (ledger.put header)

@[simp]
theorem promoteAll_headers (ledger : Ledger) (headers : List StoredHeader) :
    (ledger.promoteAll headers).headers = ledger.headers := by
  induction headers generalizing ledger with
  | nil => rfl
  | cons header headers ih => exact ih (ledger.promote header)

@[simp]
theorem replace_headers (ledger : Ledger) (headers : List StoredHeader) :
    (ledger.replace headers).headers = ledger.headers :=
  promoteAll_headers _ _

theorem promoteAll_concat (ledger : Ledger) (headers : List StoredHeader) (tip : StoredHeader) :
    ledger.promoteAll (headers ++ [tip]) = (ledger.promoteAll headers).promote tip :=
  List.foldl_concat ..

theorem putAll_concat (ledger : Ledger) (headers : List StoredHeader) (header : StoredHeader) :
    ledger.putAll (headers ++ [header]) = (ledger.putAll headers).put header :=
  List.foldl_concat ..

variable {headers : List StoredHeader}

/-- A header put into the store leaves the others new. -/
theorem Fresh.put {ledger : Ledger} (fresh : ledger.Fresh (header :: headers)) :
    (ledger.put header).Fresh headers := by
  obtain ⟨absent, distinct⟩ := fresh
  rw [List.pairwise_cons] at distinct
  refine ⟨?_, distinct.2⟩
  intro other otherMem
  rw [put_headers_of_ne (distinct.1 other otherMem).symm]
  exact absent other (List.mem_cons_of_mem _ otherMem)

theorem Fresh.cons {ledger : Ledger} (fresh : (ledger.put header).Fresh headers)
    (absent : ledger.headers header.hash = none) : ledger.Fresh (header :: headers) := by
  have differs : ∀ other ∈ headers, header.hash ≠ other.hash := by
    intro other otherMem same
    have absentOther := fresh.1 other otherMem
    rw [← same, put_headers_self] at absentOther
    cases absentOther
  refine ⟨?_, List.pairwise_cons.mpr ⟨differs, fresh.2⟩⟩
  rw [List.forall_mem_cons]
  refine ⟨absent, ?_⟩
  intro other otherMem
  rw [← put_headers_of_ne (differs other otherMem).symm]
  exact fresh.1 other otherMem

end Ledger

section

variable {S : Type} [HeaderStore S]

open HeaderStore

def ledger (store : S) : Ledger :=
  ⟨getHeader store, canonicalHash store, bestHash store⟩

theorem ledger_best (store : S) : (ledger store).best = bestHash store :=
  rfl

end

open HeaderStore in
/-- Headers are found under their own hash.  A call that succeeds changes the tables as its
name says.  A failing call leaves them as they are; a failing sequence of calls does so if
there was no reason for the store to refuse it. -/
class LawfulHeaderStore (S : Type) [HeaderStore S] : Prop where
  hash_eq : ∀ {store : S} {hash : Hash} {header : StoredHeader},
    getHeader store hash = some header → header.hash = hash
  putHeader_ok : ∀ {store after : S} {header : StoredHeader},
    putHeader header store = (.ok (), after) →
      getHeader store header.hash = none ∧ ledger after = (ledger store).put header
  putHeader_error : ∀ {store after : S} {header : StoredHeader} {error : ChainError},
    putHeader header store = (.error error, after) → ledger after = ledger store
  putHeaders_ok : ∀ {store after : S} {headers : List StoredHeader},
    putHeaders headers store = (.ok (), after) →
      (ledger store).Fresh headers ∧ ledger after = (ledger store).putAll headers
  putHeaders_error : ∀ {store after : S} {headers : List StoredHeader} {error : ChainError},
    (ledger store).Fresh headers → putHeaders headers store = (.error error, after) →
      ledger after = ledger store
  promoteCanonicalTip_ok : ∀ {store after : S} {header : StoredHeader},
    promoteCanonicalTip header store = (.ok (), after) →
      ledger after = (ledger store).promote header
  promoteCanonicalTip_error : ∀ {store after : S} {header : StoredHeader} {error : ChainError},
    promoteCanonicalTip header store = (.error error, after) → ledger after = ledger store
  promoteCanonicalTips_ok : ∀ {store after : S} {headers : List StoredHeader},
    promoteCanonicalTips headers store = (.ok (), after) →
      ledger after = (ledger store).promoteAll headers
  promoteCanonicalTips_error : ∀ {store after : S} {headers : List StoredHeader}
      {error : ChainError},
    (ledger store).Holds headers → promoteCanonicalTips headers store = (.error error, after) →
      ledger after = ledger store
  replaceCanonicalChain_ok : ∀ {store after : S} {headers : List StoredHeader},
    replaceCanonicalChain headers store = (.ok (), after) →
      headers ≠ [] ∧ ledger after = (ledger store).replace headers
  replaceCanonicalChain_error : ∀ {store after : S} {headers : List StoredHeader}
      {error : ChainError},
    replaceCanonicalChain headers store = (.error error, after) → ledger after = ledger store

open HeaderStore in
/-- Nothing fails without a reason. -/
class ReliableHeaderStore (S : Type) [HeaderStore S] : Prop where
  putHeader_new : ∀ {store : S} {header : StoredHeader},
    getHeader store header.hash = none → ∃ after, putHeader header store = (.ok (), after)
  putHeaders_new : ∀ {store : S} {headers : List StoredHeader},
    (ledger store).Fresh headers → ∃ after, putHeaders headers store = (.ok (), after)
  promoteCanonicalTip_held : ∀ {store : S} {header : StoredHeader},
    (ledger store).Holds [header] → ∃ after, promoteCanonicalTip header store = (.ok (), after)
  promoteCanonicalTips_held : ∀ {store : S} {headers : List StoredHeader},
    (ledger store).Holds headers → ∃ after, promoteCanonicalTips headers store = (.ok (), after)
  replaceCanonicalChain_held : ∀ {store : S} {headers : List StoredHeader},
    headers ≠ [] → (ledger store).Holds headers →
      ∃ after, replaceCanonicalChain headers store = (.ok (), after)

end HnsDaneEngine.Browser.Chain
