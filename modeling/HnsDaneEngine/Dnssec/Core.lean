import HnsDaneEngine.Wire.Message
import HnsDaneEngine.Wire.TypeBitmap
import HnsDaneEngine.Zone.Core

/-!
# Shared parts of the strict denial validator

Limits, errors, ancestors and canonical order of the `hns-dnssec` crate, with
the meaning of each helper in terms of label suffixes, canonical coverage and
type bitmaps.
-/

namespace HnsDaneEngine.Dnssec

open HnsDaneEngine.Order TypeBitmap Wire

/-- Browser DNSSEC resource bounds. -/
structure DnssecLimits where
  maxRrsetRecords : Nat
  maxSignatures : Nat
  maxKeys : Nat
  maxSignedDataLen : Nat
  maxNsec3Iterations : UInt16
  maxDenialRecords : Nat
  deriving DecidableEq

/-- The `Default` limits. -/
def DnssecLimits.default : DnssecLimits where
  maxRrsetRecords := 1024
  maxSignatures := 64
  maxKeys := 64
  maxSignedDataLen := 4 * 1024 * 1024
  maxNsec3Iterations := 500
  maxDenialRecords := 256

/-- Authenticated denial result. -/
inductive Denial
  | noData
  | nameError

/-- Local DNSSEC validation failure. -/
inductive DnssecError
  | emptyRrset
  | limit
  | rrsetMismatch
  | missingSignature
  | missingKey
  | invalidKey
  | unsupportedAlgorithm (algorithm : UInt8)
  | unsupportedDigest (digestType : UInt8)
  | signatureTime
  | signatureMismatch
  | unsupportedRdata
  | dsMismatch
  | denialMismatch
  deriving DecidableEq

/-- The label of wildcard owners. -/
def star : Label := [0x2a]

/-- The ancestor of a name that starts at one of its labels. -/
def ancestor (name : Name) (start : Nat) : Option Name :=
  if start ≤ name.labels.length then (Name.fromLabels (name.labels.drop start)).toOption
  else none

theorem ancestor_of_le {name : Name} {start : Nat} (inside : start ≤ name.labels.length) :
    ancestor name start =
      some ⟨name.labels.drop start, name.valid.of_suffix (List.drop_suffix start _)⟩ := by
  rw [ancestor, if_pos inside,
    Name.fromLabels_of_valid (name.valid.of_suffix (List.drop_suffix start _))]
  rfl

def wildcardOf (name : Name) : Except DnssecError Name :=
  match Name.fromLabels (star :: name.labels) with
  | .ok wildcard => .ok wildcard
  | .error _ => .error .denialMismatch

/-- The wildcard child of a strict ancestor is within the name bounds: it is no
longer than the name it stands above. -/
theorem validLabels_star_cons {name : Name} {label : Label} {encloser : List Label}
    (nextCloser : label :: encloser <:+ name.labels) : ValidLabels (star :: encloser) := by
  have valid := name.valid.of_suffix nextCloser
  have labelNonempty : 0 < label.length :=
    List.length_pos_iff.mpr (valid.nonempty label List.mem_cons_self)
  have length := valid.wireLen_le
  have encloserValid := valid.of_suffix (List.suffix_cons label encloser)
  refine ⟨?_, ?_, ?_, ?_⟩
  · intro member mem
    rcases List.mem_cons.mp mem with rfl | mem
    · decide
    · exact encloserValid.nonempty member mem
  · intro member mem
    rcases List.mem_cons.mp mem with rfl | mem
    · decide
    · exact encloserValid.bounded member mem
  · intro member mem
    rcases List.mem_cons.mp mem with rfl | mem
    · decide
    · exact encloserValid.canonical member mem
  · have starLength : star.length = 1 := rfl
    rw [wireLen_cons] at length ⊢
    omega

/-- `is_suffix`: the name is at or below the other one. -/
def isSuffix (name suffix : Name) : Bool :=
  name.labels.drop (name.labels.length - suffix.labels.length) == suffix.labels

@[simp]
theorem isSuffix_iff (name suffix : Name) :
    isSuffix name suffix = true ↔ suffix.labels <:+ name.labels := by
  simp only [isSuffix, beq_iff_eq]
  rw [List.suffix_iff_eq_drop]
  exact eq_comm

def canonicalNameCmp (left right : Name) : Ordering :=
  lexCmp bytesCmp left.labels.reverse right.labels.reverse

theorem canonicalNameCmp_eq_lt_iff (left right : Name) :
    canonicalNameCmp left right = .lt ↔ left.labels.reverse < right.labels.reverse :=
  (lexCmp_compares bytesCmp_compares _ _).eq_lt

def canonicalIntervalContains (owner next candidate : Name) : Bool :=
  let ownerToNext := canonicalNameCmp owner next
  let ownerToCandidate := canonicalNameCmp owner candidate
  let candidateToNext := canonicalNameCmp candidate next
  if ownerToNext = .lt then ownerToCandidate = .lt && candidateToNext = .lt
  else ownerToCandidate = .lt || candidateToNext = .lt

@[simp]
theorem canonicalIntervalContains_iff (owner next candidate : Name) :
    canonicalIntervalContains owner next candidate = true ↔
      Zone.Covers owner.labels next.labels candidate.labels := by
  unfold canonicalIntervalContains Zone.Covers CyclicBetween
  simp only [canonicalNameCmp_eq_lt_iff]
  split <;> simp

/-- The block scan of `bitmap_contains`; the first argument bounds the number of
blocks. -/
def bitmapContainsFrom (window : UInt8) (low : Nat) :
    Nat → Octets → Except DnssecError Bool
  | _, [] => .ok false
  | 0, _ :: _ => .error .denialMismatch
  | _ + 1, [_] => .error .denialMismatch
  | blocks + 1, blockWindow :: length :: rest =>
    if length = 0 ∨ 32 < length then .error .denialMismatch
    else if rest.length < length.toNat then .error .denialMismatch
    else if blockWindow = window then .ok (bitIsSet (rest.take length.toNat) low)
    else bitmapContainsFrom window low blocks (rest.drop length.toNat)

def bitmapContains (bitmap : Octets) (recordType : UInt16) : Except DnssecError Bool :=
  bitmapContainsFrom (windowOf recordType) (lowOf recordType) bitmap.length bitmap

private theorem bitmapContainsFrom_encodeBlocks (code : UInt16) (blocks : List Block)
    (bound : Nat) (enough : (encodeBlocks blocks).length ≤ bound) :
    bitmapContainsFrom (windowOf code) (lowOf code) bound (encodeBlocks blocks) =
      .ok (blocksHave blocks code) := by
  induction blocks generalizing bound with
  | nil => cases bound <;> rfl
  | cons block rest ih =>
    rw [encodeBlocks_cons] at enough ⊢
    cases bound with
    | zero => simp at enough
    | succ bound =>
      simp only [bitmapContainsFrom, if_neg block.length_inRange, block.toNat_ofNat_length]
      rw [if_neg (by simp), List.take_left, List.drop_left]
      by_cases same : block.window = windowOf code
      · simp [blocksHave, same]
      · simp only [blocksHave, if_neg same]
        apply ih
        simp only [List.length_cons, List.length_append] at enough
        omega

/-- On well-formed bitmaps the scan decides membership. -/
@[simp]
theorem bitmapContains_encode (blocks : Blocks) (code : UInt16) :
    bitmapContains blocks.encode code = .ok (blocks.has code) :=
  bitmapContainsFrom_encodeBlocks code blocks.list _ le_rfl

/-- The two bitmap tests of a no-data proof: the query type is absent, and so is
CNAME unless it is the query type itself. -/
def bitmapDenies (bitmap : Octets) (qtype : RecordType) : Except DnssecError Bool :=
  match bitmapContains bitmap qtype.code with
  | .error error => .error error
  | .ok true => .ok false
  | .ok false =>
    if qtype = .cname then .ok true
    else
      match bitmapContains bitmap RecordType.cname.code with
      | .error error => .error error
      | .ok present => .ok !present

/-- The types that a bitmap contains. -/
def bitmapTypes (bitmap : Octets) (code : UInt16) : Bool :=
  match bitmapContains bitmap code with
  | .ok present => present
  | .error _ => false

@[simp]
theorem bitmapTypes_encode (blocks : Blocks) : bitmapTypes blocks.encode = blocks.has := by
  funext code
  simp [bitmapTypes]

/-- The bitmap of a delegation point contains NS and not SOA. -/
def IsZoneCut (bitmap : Octets) : Prop :=
  bitmapTypes bitmap RecordType.ns.code = true ∧ bitmapTypes bitmap RecordType.soa.code = false

/-- Absence of the query type and of CNAME in a set of types. -/
def deniesType (types : UInt16 → Bool) (qtype : RecordType) : Bool :=
  !types qtype.code && !types RecordType.cname.code

@[simp]
theorem bitmapDenies_encode (blocks : Blocks) (qtype : RecordType) :
    bitmapDenies blocks.encode qtype = .ok (deniesType blocks.has qtype) := by
  unfold bitmapDenies deniesType
  rw [bitmapContains_encode]
  cases present : blocks.has qtype.code with
  | true => rfl
  | false =>
    by_cases cname : qtype = .cname
    · subst cname
      simp [present]
    · simp [cname]

/-- The no-data loop of both denial checks: the first entry that matches the
query and whose bitmap denies the query type. -/
def findNoData {Entry : Type} (isMatch : Entry → Bool) (typeBitmaps : Entry → Octets)
    (qtype : RecordType) : List Entry → Except DnssecError (Option Entry)
  | [] => .ok none
  | entry :: rest =>
    if isMatch entry then
      match bitmapDenies (typeBitmaps entry) qtype with
      | .error error => .error error
      | .ok true => .ok (some entry)
      | .ok false => findNoData isMatch typeBitmaps qtype rest
    else findNoData isMatch typeBitmaps qtype rest

section

variable {Entry : Type} {isMatch : Entry → Bool} {typeBitmaps : Entry → Octets}
  {qtype : RecordType} {entries : List Entry}

theorem findNoData_of_noMatch (noMatch : ∀ entry ∈ entries, isMatch entry = false) :
    findNoData isMatch typeBitmaps qtype entries = .ok none := by
  induction entries with
  | nil => rfl
  | cons entry rest ih =>
    rw [findNoData, noMatch entry List.mem_cons_self]
    exact ih fun other mem => noMatch other (List.mem_cons_of_mem entry mem)

/-- On well-formed bitmaps the loop is a search that cannot fail. -/
theorem findNoData_eq_find
    (wellFormed : ∀ entry ∈ entries, ∃ blocks : Blocks, typeBitmaps entry = blocks.encode) :
    findNoData isMatch typeBitmaps qtype entries =
      .ok (entries.find? fun entry =>
        isMatch entry && deniesType (bitmapTypes (typeBitmaps entry)) qtype) := by
  induction entries with
  | nil => rfl
  | cons entry rest ih =>
    have tail := ih fun other mem => wellFormed other (List.mem_cons_of_mem entry mem)
    obtain ⟨blocks, bitmap_eq⟩ := wellFormed entry List.mem_cons_self
    rw [findNoData, tail, List.find?_cons, bitmap_eq, bitmapDenies_encode, bitmapTypes_encode]
    cases isMatch entry <;> cases deniesType blocks.has qtype <;> rfl

end

end HnsDaneEngine.Dnssec
