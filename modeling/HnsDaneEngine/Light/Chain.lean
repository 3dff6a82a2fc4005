import HnsDaneEngine.Control.Except
import HnsDaneEngine.Control.Run
import HnsDaneEngine.Primitives.Checked
import HnsDaneEngine.Primitives.Hash
import Mathlib.Data.List.Sort

/-!
# The light header chain

A linear chain of validated headers that retains the history which the median-time
and difficulty rules look back on.  The consensus rules themselves (header
validation, retargeting, the network parameters) and the block hash come from
another crate and are a parameter here.
-/

namespace HnsDaneEngine.Light

open Control Primitives

/-- The networks. -/
inductive Network
  | mainnet
  | testnet
  | regtest
  | simnet
  deriving DecidableEq

/-- Cumulative proof of work, a 256-bit number. -/
structure Chainwork where
  value : Nat
  value_lt : value < 2 ^ 256
  deriving DecidableEq

namespace Chainwork

theorem zero_lt : 0 < 2 ^ 256 :=
  Nat.two_pow_pos 256

def zero : Chainwork :=
  ⟨0, zero_lt⟩

theorem ext {first second : Chainwork} (value_eq : first.value = second.value) :
    first = second := by
  cases first
  cases second
  cases value_eq
  rfl

def checkedAdd (first second : Chainwork) : Option Chainwork :=
  if fits : first.value + second.value < 2 ^ 256 then some ⟨first.value + second.value, fits⟩
  else none

theorem checkedAdd_eq_some {first second sum : Chainwork}
    (added : first.checkedAdd second = some sum) : sum.value = first.value + second.value := by
  unfold checkedAdd at added
  split_ifs at added
  cases added
  rfl

end Chainwork

/-- What the target rests on. -/
structure DifficultyPoint where
  height : UInt32
  time : UInt64
  bits : UInt32
  chainwork : Chainwork

/-- What a header is checked under. -/
structure HeaderValidationContext where
  height : UInt32
  previousBlock : Hash
  medianTime : UInt64
  now : UInt64
  expectedBits : UInt32

/-- The header type, the consensus rules and the network parameters of the consensus
crate, as far as the light chain uses them. -/
structure HeaderConsensus (Header HeaderError : Type) where
  blockHash : Header → Hash
  previousBlock : Header → Hash
  treeRoot : Header → Hash
  merkleRoot : Header → Hash
  time : Header → UInt64
  bits : Header → UInt32
  networkId : Network → UInt8
  genesisHeader : Network → Header
  genesisHash : Network → Hash
  genesisTime : Network → UInt64
  powBits : Network → UInt32
  targetWindow : Network → UInt32
  expectedNextBits : Network → UInt64 → DifficultyPoint → Option DifficultyPoint →
    Option DifficultyPoint → Except HeaderError UInt32
  validateHeader : Network → Header → HeaderValidationContext → Except HeaderError Chainwork

/-- The errors of `LightChainError` that the chain and its snapshots can give. -/
inductive LightChainError (HeaderError : Type)
  | header (error : HeaderError)
  | arithmetic
  | decode
  | invalidLimit
  | headerBatchLimit
  | invalidSnapshot
  | snapshotTooLarge
  | snapshotChecksumMismatch
  | unsupportedSnapshot
  | snapshotNetworkMismatch
  | snapshotRollback
  | heightOverflow
  | missingDifficultyHistory
  | timeOverflow
  | insufficientHeight
  | insufficientChainwork
  | staleTip
  | futureTip

def medianTimeSpan : Nat := 11

def requiredDifficultyHistory : Nat := 147

def maxHeadersPerBatchLimit : Nat := 4096

/-- Summary of one validated header. -/
structure HeaderEntry where
  height : UInt32
  hash : Hash
  previousBlock : Hash
  treeRoot : Hash
  merkleRoot : Hash
  time : UInt64
  bits : UInt32
  chainwork : Chainwork
  deriving DecidableEq

def HeaderEntry.difficultyPoint (entry : HeaderEntry) : DifficultyPoint :=
  ⟨entry.height, entry.time, entry.bits, entry.chainwork⟩

/-- The bound on a batch of headers. -/
structure ChainLimits where
  maxHeadersPerBatch : Nat

/-- A linear chain: the retained history, the earliest entry first, and its tip. -/
structure LightChain where
  network : Network
  limits : ChainLimits
  history : List HeaderEntry
  tip : HeaderEntry

/-- When the tip of a chain counts as current. -/
structure CurrencyPolicy where
  now : UInt64
  maximumTipAgeSeconds : UInt64
  minimumHeight : UInt32
  minimumChainwork : Chainwork

/-- A tip that passed a currency policy. -/
structure CurrentChain where
  network : Network
  height : UInt32
  blockHash : Hash
  treeRoot : Hash
  chainwork : Chainwork
  validatedAt : UInt64
  validUntil : UInt64

section

variable {Header HeaderError : Type} (consensus : HeaderConsensus Header HeaderError)

def ChainLimits.validate (limits : ChainLimits) :
    Except (LightChainError HeaderError) ChainLimits :=
  if limits.maxHeadersPerBatch = 0 ∨ maxHeadersPerBatchLimit < limits.maxHeadersPerBatch then
    .error .invalidLimit
  else .ok limits

def entryFromHeader (height : UInt32) (header : Header) (chainwork : Chainwork) :
    HeaderEntry where
  height := height
  hash := consensus.blockHash header
  previousBlock := consensus.previousBlock header
  treeRoot := consensus.treeRoot header
  merkleRoot := consensus.merkleRoot header
  time := consensus.time header
  bits := consensus.bits header
  chainwork := chainwork

/-- The `?` on a result of the consensus crate. -/
def liftHeader {α : Type} : Except HeaderError α → Except (LightChainError HeaderError) α
  | .error error => .error (.header error)
  | .ok value => .ok value

/-- `u32::checked_add(1)`. -/
def nextHeight (height : UInt32) : Option UInt32 :=
  if height.toNat + 1 < 2 ^ 32 then some (height + 1) else none

/-- `u32::saturating_add(2)`. -/
def saturatingAddTwo (window : UInt32) : UInt32 :=
  if window.toNat + 2 < 2 ^ 32 then window + 2 else 4294967295

namespace LightChain

/-- Open a network at its genesis header. -/
def fromGenesis (network : Network) (now : UInt64) (limits : ChainLimits) :
    Except (LightChainError HeaderError) LightChain := do
  let limits ← limits.validate
  let header := consensus.genesisHeader network
  let proof ← liftHeader (consensus.validateHeader network header
    { height := 0
      previousBlock := .zero
      medianTime := 0
      now
      expectedBits := consensus.powBits network })
  let tip := entryFromHeader consensus 0 header proof
  .ok { network, limits, history := [tip], tip }

/-- Median of the last times of the history. -/
def medianTimePast (chain : LightChain) : UInt64 :=
  let times := (chain.history.reverse.take medianTimeSpan).map (·.time) |>.mergeSort
  times[times.length / 2]?.getD chain.tip.time

def entryAt (chain : LightChain) (height : UInt32) :
    Except (LightChainError HeaderError) HeaderEntry :=
  match chain.history.find? fun entry => entry.height = height with
  | none => .error .missingDifficultyHistory
  | some entry => .ok entry

/-- The middle one, by time, of three entries; the sort is stable. -/
def middleEntry (first second third : HeaderEntry) : HeaderEntry :=
  ([first, second, third].mergeSort fun left right => left.time ≤ right.time).get ⟨1, by simp⟩

def suitableEntry (chain : LightChain) (height : UInt32) :
    Except (LightChainError HeaderError) HeaderEntry :=
  if height.toNat < 2 then .error .missingDifficultyHistory
  else do
    let firstHeight := height - 2
    let first ← chain.entryAt firstHeight
    let second ← chain.entryAt (firstHeight + 1)
    let third ← chain.entryAt height
    .ok (middleEntry first second third)

/-- The two ends of the retarget window, once the chain is long enough to have them. -/
def suitablePoints (chain : LightChain) :
    Except (LightChainError HeaderError) (Option DifficultyPoint × Option DifficultyPoint) :=
  let window := consensus.targetWindow chain.network
  if saturatingAddTwo window ≤ chain.tip.height then
    if chain.tip.height < window then .error .missingDifficultyHistory
    else do
      let first ← chain.suitableEntry (chain.tip.height - window)
      let last ← chain.suitableEntry chain.tip.height
      .ok (some first.difficultyPoint, some last.difficultyPoint)
  else .ok (none, none)

/-- Append one header after all consensus checks.  The chain is written only after the
last of them, so that an error leaves it as it was. -/
def append (chain : LightChain) (header : Header) (now : UInt64) :
    Except (LightChainError HeaderError) (HeaderEntry × LightChain) :=
  match nextHeight chain.tip.height with
  | none => .error .heightOverflow
  | some height => do
    let (firstSuitable, lastSuitable) ← suitablePoints consensus chain
    let expectedBits ← liftHeader (consensus.expectedNextBits chain.network
      (consensus.time header) chain.tip.difficultyPoint firstSuitable lastSuitable)
    let proof ← liftHeader (consensus.validateHeader chain.network header
      { height
        previousBlock := chain.tip.hash
        medianTime := chain.medianTimePast
        now
        expectedBits })
    match chain.tip.chainwork.checkedAdd proof with
    | none => .error .arithmetic
    | some chainwork =>
      let entry := entryFromHeader consensus height header chainwork
      let history := chain.history ++ [entry]
      .ok (entry, { chain with
        history := history.drop (history.length - requiredDifficultyHistory)
        tip := entry })

/-- The loop of `append_batch` on its clone of the chain. -/
def appendAll (chain : LightChain) (now : UInt64) :
    List Header → Except (LightChainError HeaderError) LightChain
  | [] => .ok chain
  | header :: headers => do
    let (_, chain) ← append consensus chain header now
    appendAll chain now headers

/-- Append a bounded batch as a whole or not at all. -/
def appendBatch (chain : LightChain) (headers : List Header) (now : UInt64) :
    Except (LightChainError HeaderError) (HeaderEntry × LightChain) :=
  if headers.isEmpty ∨ chain.limits.maxHeadersPerBatch < headers.length then
    .error .headerBatchLimit
  else do
    let candidate ← appendAll consensus chain now headers
    .ok (candidate.tip, candidate)

/-- The loop of `locator` at a height, with the step and the number of hashes so far.
The step doubles, within 32 bits, from the tenth hash on. -/
def locatorFrom (HeaderError : Type) (chain : LightChain) (height : Nat)
    (step : { step : Nat // 0 < step })
    (count : Nat) : List Hash :=
  match (chain.entryAt (UInt32.ofNat height) : Except (LightChainError HeaderError) _) with
  | .error _ => []
  | .ok entry =>
    if lowest : height = 0 then [entry.hash]
    else
      let next : { step : Nat // 0 < step } :=
        if 10 ≤ count + 1 then ⟨min (step.1 * 2) (2 ^ 32 - 1), by have := step.2; omega⟩
        else step
      entry.hash :: locatorFrom HeaderError chain (height - next.1) next (count + 1)
termination_by height
decreasing_by
  exact Nat.sub_lt (Nat.pos_of_ne_zero lowest) next.2

/-- Recent hashes first, ending at genesis. -/
def locator (chain : LightChain) : List Hash :=
  let hashes := locatorFrom HeaderError chain chain.tip.height.toNat
    ⟨1, Nat.one_pos⟩ 0
  let genesis := consensus.genesisHash chain.network
  if hashes.getLast? ≠ some genesis then hashes ++ [genesis] else hashes

/-- Require the height, work and age of a current tip. -/
def requireCurrent (chain : LightChain) (policy : CurrencyPolicy) :
    Except (LightChainError HeaderError) CurrentChain :=
  if chain.tip.height < policy.minimumHeight then .error .insufficientHeight
  else if chain.tip.chainwork.value < policy.minimumChainwork.value then
    .error .insufficientChainwork
  else
    match checkedAdd chain.tip.time.toNat policy.maximumTipAgeSeconds.toNat with
    | none => .error .timeOverflow
    | some validUntil =>
      if validUntil < policy.now.toNat then .error .staleTip
      else if saturatingAdd policy.now.toNat 7200 < chain.tip.time.toNat then .error .futureTip
      else .ok
        { network := chain.network
          height := chain.tip.height
          blockHash := chain.tip.hash
          treeRoot := chain.tip.treeRoot
          chainwork := chain.tip.chainwork
          validatedAt := policy.now
          validUntil := UInt64.ofNat validUntil }

end LightChain

end

end HnsDaneEngine.Light
