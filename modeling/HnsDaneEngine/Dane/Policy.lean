import HnsDaneEngine.Dane.Agreement
import Mathlib.Data.List.Dedup
import Mathlib.Data.List.Perm.Subperm

/-!
# The TLSA policy of the browser crate

One policy is evaluated in two ways.  With the certificate alone, the first record that
matches decides and trust-anchor records never match.  With a path verifier, the usages are
tried in a fixed order over the distinct records.  Which records are there decides, not
their order; the two ways agree on records without trust anchors once the DNSSEC status of
the records is settled.
-/

namespace HnsDaneEngine.Dane.Browser

open Buffer Control

/-! ## Records and inputs -/

/-- The usage of a record. -/
inductive TlsaUsage
  | pkixTa
  | pkixEe
  | daneTa
  | daneEe
  deriving DecidableEq

/-- What a record selects. -/
inductive TlsaSelector
  | fullCertificate
  | subjectPublicKeyInfo
  deriving DecidableEq

/-- How a record matches. -/
inductive TlsaMatching
  | exact
  | sha256
  | sha512
  deriving DecidableEq

/-- The data of a TLSA record. -/
structure TlsaRecord where
  usage : TlsaUsage
  selector : TlsaSelector
  matching : TlsaMatching
  associationData : Octets
  deriving DecidableEq

/-- The root of a domain. -/
inductive DomainTrustMode
  | hnsStrict
  | icannWebPki

/-- What the public CAs say. -/
inductive WebPkiStatus
  | valid
  | invalid
  | notEvaluated
  deriving DecidableEq

/-- A certificate and its records. -/
structure DaneCertificateValidationInput where
  mode : DomainTrustMode
  dnssecSecure : Bool
  tlsaRecords : List TlsaRecord
  certDer : Octets
  webpkiStatus : WebPkiStatus

/-- What a validation decides. -/
inductive DaneDecision
  | noTlsa
  | matched (usage : TlsaUsage)
  | statelessMatched (usage : TlsaUsage)
  | webPkiFallback
  | failed

/-- The digests of the hash library. -/
structure Digests where
  sha256 : Octets → Octets
  sha512 : Octets → Octets

/-- Largest number of distinct records. -/
def maxCertificateTlsaRecords : Nat := 64

/-- Largest number of records before repetitions are dropped. -/
def maxCertificateTlsaInputRecords : Nat := 256

variable (record : TlsaRecord)

namespace TlsaRecord

def isEeUsage : Bool :=
  record.usage == .pkixEe || record.usage == .daneEe

def isPkixUsage : Bool :=
  record.usage == .pkixTa || record.usage == .pkixEe

def hasUsableAssociationData : Bool :=
  match record.matching with
  | .exact => 1 ≤ record.associationData.length
  | .sha256 => record.associationData.length == 32
  | .sha512 => record.associationData.length == 64

def parseRdata : Octets → Except DaneError TlsaRecord
  | usage :: selector :: matching :: associationData => do
    let usage ←
      match usage.toNat with
      | 0 => .ok .pkixTa
      | 1 => .ok .pkixEe
      | 2 => .ok .daneTa
      | 3 => .ok .daneEe
      | _ => .error .unsupportedUsage
    let selector ←
      match selector.toNat with
      | 0 => .ok .fullCertificate
      | 1 => .ok .subjectPublicKeyInfo
      | _ => .error .unsupportedSelector
    let matching ←
      match matching.toNat with
      | 0 => .ok .exact
      | 1 => .ok .sha256
      | 2 => .ok .sha512
      | _ => .error .unsupportedMatching
    let record : TlsaRecord := ⟨usage, selector, matching, associationData⟩
    if ¬ record.hasUsableAssociationData then .error .unusableAssociationData else .ok record
  | _ => .error .shortRecord

def parseUsableRdata (rdata : Octets) : Option TlsaRecord :=
  (parseRdata rdata).toOption

def matchesDer (digests : Digests) (certDer spkiDer : Octets) (record : TlsaRecord) : Bool :=
  if ¬ record.hasUsableAssociationData then false
  else
    let selected :=
      match record.selector with
      | .fullCertificate => certDer
      | .subjectPublicKeyInfo => spkiDer
    match record.matching with
    | .exact => selected == record.associationData
    | .sha256 => digests.sha256 selected == record.associationData
    | .sha512 => digests.sha512 selected == record.associationData

end TlsaRecord

/-- The public key of the certificate, read only where an end-entity record selects it. -/
def spkiFor (records : List TlsaRecord) (certDer : Octets) : Except DaneError Octets :=
  if records.any fun record => record.isEeUsage && record.selector == .subjectPublicKeyInfo then
    extractSpkiDer certDer
  else .ok []

def evaluateNoTlsaPolicy (mode : DomainTrustMode) (webpkiStatus : WebPkiStatus) :
    Except DaneError DaneDecision :=
  match mode with
  | .hnsStrict => .error .missingRequiredTlsa
  | .icannWebPki =>
    match webpkiStatus with
    | .valid => .ok .webPkiFallback
    | .invalid => .error .webPkiFailed
    | .notEvaluated => .ok .noTlsa

/-! ## The certificate alone -/

/-- A certificate and its key. -/
structure CertificateChainInput where
  endEntityDer : Octets
  endEntitySpkiDer : Octets

def recordMatchesChain (digests : Digests) (record : TlsaRecord) (chain : CertificateChainInput) :
    Except DaneError Bool :=
  match record.usage with
  | .pkixEe | .daneEe =>
    .ok (record.matchesDer digests chain.endEntityDer chain.endEntitySpkiDer)
  | .pkixTa | .daneTa => .ok false

/-- The loop over the records: the usage that it returns, if any, and whether WebPKI rejected
a match. -/
def matchRecords (digests : Digests) (chain : CertificateChainInput)
    (webpkiStatus : WebPkiStatus) :
    Bool → List TlsaRecord → Except DaneError (Option TlsaUsage × Bool)
  | rejected, [] => .ok (none, rejected)
  | rejected, record :: rest => do
    let hit ← recordMatchesChain digests record chain
    if ¬ hit then matchRecords digests chain webpkiStatus rejected rest
    else if record.isPkixUsage ∧ webpkiStatus ≠ .valid then
      matchRecords digests chain webpkiStatus true rest
    else .ok (some record.usage, rejected)

def evaluateTlsaForChain (digests : Digests) (records : List TlsaRecord)
    (chain : CertificateChainInput) (webpkiStatus : WebPkiStatus) :
    Except DaneError DaneDecision := do
  let (found, pkixMatchRejectedByWebpki) ← matchRecords digests chain webpkiStatus false records
  match found with
  | some usage => .ok (.matched usage)
  | none =>
    if records.any fun record => record.usage == .pkixTa || record.usage == .daneTa then
      .error .pathValidationRequired
    else if pkixMatchRejectedByWebpki then .error .webPkiFailed
    else .ok .failed

/-- `evaluate_policy`; the key of its input is not read. -/
def evaluatePolicy (digests : Digests) (input : DaneCertificateValidationInput) :
    Except DaneError DaneDecision :=
  if ¬ input.tlsaRecords.isEmpty then
    if ¬ input.dnssecSecure then .error .insecureTlsa
    else do
      let spkiDer ← spkiFor input.tlsaRecords input.certDer
      evaluateTlsaForChain digests input.tlsaRecords ⟨input.certDer, spkiDer⟩ input.webpkiStatus
  else evaluateNoTlsaPolicy input.mode input.webpkiStatus

/-- `evaluate_policy_with_certificate_chain` without the ignored intermediates.  The key is
read before anything else. -/
def evaluatePolicyWithCertificate (digests : Digests) (input : DaneCertificateValidationInput) :
    Except DaneError DaneDecision := do
  let spkiDer ← spkiFor input.tlsaRecords input.certDer
  if ¬ input.tlsaRecords.isEmpty then
    if ¬ input.dnssecSecure then .error .insecureTlsa
    else
      evaluateTlsaForChain digests input.tlsaRecords ⟨input.certDer, spkiDer⟩ input.webpkiStatus
  else evaluateNoTlsaPolicy input.mode input.webpkiStatus

/-! ## A path verifier -/

/-- Matches along a verified path. -/
structure TlsaPathVerifier where
  matchesPkixTa : List TlsaRecord → Bool
  matchesDaneTa : List TlsaRecord → Bool

/-- The records in their first order without repetitions, unless they are too many. -/
def distinctRecords : List TlsaRecord → List TlsaRecord → Except DaneError (List TlsaRecord)
  | records, [] => .ok records
  | records, record :: rest =>
    if record ∈ records then distinctRecords records rest
    else if maxCertificateTlsaRecords < records.length + 1 then .error .tooManyTlsaRecords
    else distinctRecords (records ++ [record]) rest

/-- A record of the usage matches the certificate. -/
def anyMatch (digests : Digests) (certDer spkiDer : Octets) (usage : TlsaUsage)
    (records : List TlsaRecord) : Bool :=
  records.any fun record => record.usage == usage && record.matchesDer digests certDer spkiDer

/-- The usages in the order of their priority, over distinct records. -/
def evaluateUsages (digests : Digests) (verifier : TlsaPathVerifier)
    (input : DaneCertificateValidationInput) (records : List TlsaRecord) (spkiDer : Octets) :
    Except DaneError DaneDecision :=
  if anyMatch digests input.certDer spkiDer .daneEe records then .ok (.matched .daneEe)
  else
    let pkixEeMatch := anyMatch digests input.certDer spkiDer .pkixEe records
    if pkixEeMatch ∧ input.webpkiStatus = .valid then .ok (.matched .pkixEe)
    else
      let daneTa := records.filter fun record => record.usage == .daneTa
      if ¬ daneTa.isEmpty ∧ verifier.matchesDaneTa daneTa then .ok (.matched .daneTa)
      else
        let pkixTa := records.filter fun record => record.usage == .pkixTa
        if ¬ pkixTa.isEmpty ∧ input.webpkiStatus = .valid ∧ verifier.matchesPkixTa pkixTa then
          .ok (.matched .pkixTa)
        else if input.webpkiStatus ≠ .valid ∧ (pkixEeMatch ∨ ¬ pkixTa.isEmpty) then
          .error .webPkiFailed
        else .ok .failed

def evaluatePolicyWithPathVerifier (digests : Digests) (verifier : TlsaPathVerifier)
    (input : DaneCertificateValidationInput) : Except DaneError DaneDecision :=
  if input.tlsaRecords.isEmpty then evaluateNoTlsaPolicy input.mode input.webpkiStatus
  else if ¬ input.dnssecSecure then .error .insecureTlsa
  else if maxCertificateTlsaInputRecords < input.tlsaRecords.length then
    .error .tooManyTlsaRecords
  else do
    let records ← distinctRecords [] input.tlsaRecords
    let spkiDer ← spkiFor records input.certDer
    evaluateUsages digests verifier input records spkiDer

/-! ## Which records are there -/

/-- The lists have the same records, in any order and with any repetitions. -/
def SameRecords (first second : List TlsaRecord) : Prop :=
  ∀ record, record ∈ first ↔ record ∈ second

namespace SameRecords

variable {first second : List TlsaRecord}

section

variable (same : SameRecords first second)

include same

theorem trans {third : List TlsaRecord} (other : SameRecords second third) :
    SameRecords first third :=
  fun record => (same record).trans (other record)

theorem any_eq (condition : TlsaRecord → Bool) : first.any condition = second.any condition := by
  rw [Bool.eq_iff_iff, List.any_eq_true, List.any_eq_true]
  constructor
  · rintro ⟨record, mem, holds⟩
    exact ⟨record, (same record).mp mem, holds⟩
  · rintro ⟨record, mem, holds⟩
    exact ⟨record, (same record).mpr mem, holds⟩

theorem filter (condition : TlsaRecord → Bool) :
    SameRecords (first.filter condition) (second.filter condition) := by
  intro record
  simp [same record]

theorem isEmpty_eq : first.isEmpty = second.isEmpty := by
  rw [Bool.eq_iff_iff, List.isEmpty_iff, List.isEmpty_iff, List.eq_nil_iff_forall_not_mem,
    List.eq_nil_iff_forall_not_mem]
  simp [same _]

theorem length_dedup : first.dedup.length = second.dedup.length := by
  apply List.Perm.length_eq
  rw [List.perm_ext_iff_of_nodup (List.nodup_dedup _) (List.nodup_dedup _)]
  intro record
  rw [List.mem_dedup, List.mem_dedup]
  exact same record

theorem spkiFor_eq (certDer : Octets) : spkiFor first certDer = spkiFor second certDer := by
  rw [spkiFor, spkiFor, same.any_eq]

end

end SameRecords

/-- Records with few distinct ones are deduplicated. -/
theorem exists_distinctRecords {records rest : List TlsaRecord} (nodup : records.Nodup)
    (few : (records ++ rest).dedup.length ≤ maxCertificateTlsaRecords) :
    ∃ distinct, distinctRecords records rest = .ok distinct ∧
      SameRecords distinct (records ++ rest) := by
  induction rest generalizing records with
  | nil => exact ⟨records, rfl, fun record => by simp⟩
  | cons record rest ih =>
    rw [distinctRecords]
    by_cases seen : record ∈ records
    · have same : SameRecords (records ++ rest) (records ++ record :: rest) := by
        intro other
        by_cases equal : other = record
        · simp [equal, seen]
        · simp [equal]
      rw [if_pos seen]
      rcases ih nodup (same.length_dedup.le.trans few) with ⟨distinct, found, members⟩
      exact ⟨distinct, found, members.trans same⟩
    · have longer : (records ++ [record]).Nodup := by
        rw [List.nodup_append]
        refine ⟨nodup, by simp, ?_⟩
        rintro other mem last lastMem rfl
        rw [List.mem_singleton] at lastMem
        exact seen (lastMem ▸ mem)
      have bounded : records.length + 1 ≤ maxCertificateTlsaRecords := by
        have subset : records ++ [record] ⊆ (records ++ record :: rest).dedup := by
          intro other mem
          rw [List.mem_dedup]
          rcases List.mem_append.mp mem with old | new
          · simp [old]
          · simp [List.mem_singleton.mp new]
        have le := (List.Nodup.subperm longer subset).length_le
        rw [List.length_append, List.length_singleton] at le
        exact le.trans few
      rw [if_neg seen, if_neg (Nat.not_lt.mpr bounded)]
      rcases ih longer (by simpa using few) with ⟨distinct, found, members⟩
      exact ⟨distinct, found, by simpa using members⟩

/-- The verifier looks at which records it is given. -/
structure TlsaPathVerifier.SetBased (verifier : TlsaPathVerifier) : Prop where
  pkixTa : ∀ first second, SameRecords first second →
    verifier.matchesPkixTa first = verifier.matchesPkixTa second
  daneTa : ∀ first second, SameRecords first second →
    verifier.matchesDaneTa first = verifier.matchesDaneTa second

variable (data : Octets)

section

variable {digests : Digests} {verifier : TlsaPathVerifier}
  {input : DaneCertificateValidationInput} {records others : List TlsaRecord}
  {certDer spkiDer : Octets}

theorem SameRecords.anyMatch_eq (same : SameRecords records others) (usage : TlsaUsage) :
    anyMatch digests certDer spkiDer usage records =
      anyMatch digests certDer spkiDer usage others :=
  same.any_eq _

theorem SameRecords.evaluateUsages_eq (same : SameRecords records others)
    (setBased : verifier.SetBased) :
    evaluateUsages digests verifier input records spkiDer =
      evaluateUsages digests verifier input others spkiDer := by
  simp only [evaluateUsages, same.anyMatch_eq, (same.filter _).isEmpty_eq,
    setBased.pkixTa _ _ (same.filter _), setBased.daneTa _ _ (same.filter _)]

/-- The evaluation without its deduplication. -/
theorem evaluatePolicyWithPathVerifier_eq (setBased : verifier.SetBased)
    (short : input.tlsaRecords.length ≤ maxCertificateTlsaInputRecords)
    (few : input.tlsaRecords.dedup.length ≤ maxCertificateTlsaRecords) :
    evaluatePolicyWithPathVerifier digests verifier input =
      if input.tlsaRecords.isEmpty then evaluateNoTlsaPolicy input.mode input.webpkiStatus
      else if ¬ input.dnssecSecure then .error .insecureTlsa
      else spkiFor input.tlsaRecords input.certDer >>=
        evaluateUsages digests verifier input input.tlsaRecords := by
  rcases exists_distinctRecords List.nodup_nil few with ⟨distinct, found, same⟩
  rw [List.nil_append] at same
  rw [evaluatePolicyWithPathVerifier, if_neg (Nat.not_lt.mpr short), found]
  congr 2
  change (spkiFor distinct input.certDer >>= _) = _
  rw [same.spkiFor_eq]
  congr 1
  funext spkiDer
  exact same.evaluateUsages_eq setBased

/-! ## What a match stands for -/

/-- The certificate is what the record associates, with the key of the certificate. -/
def MatchedByCertificate (digests : Digests) (certDer : Octets) (record : TlsaRecord) : Prop :=
  ∃ spkiDer, (record.selector = .subjectPublicKeyInfo → extractSpkiDer certDer = .ok spkiDer) ∧
    record.matchesDer digests certDer spkiDer

/-- What vouches for a record, by its usage. -/
def Vouched (digests : Digests) (verifier : TlsaPathVerifier)
    (input : DaneCertificateValidationInput) (record : TlsaRecord) : Prop :=
  match record.usage with
  | .daneEe => MatchedByCertificate digests input.certDer record
  | .pkixEe =>
    MatchedByCertificate digests input.certDer record ∧ input.webpkiStatus = .valid
  | .daneTa =>
    verifier.matchesDaneTa (input.tlsaRecords.filter fun other => other.usage == .daneTa) = true
  | .pkixTa =>
    verifier.matchesPkixTa (input.tlsaRecords.filter fun other => other.usage == .pkixTa) = true ∧
      input.webpkiStatus = .valid

variable {usage : TlsaUsage}

/-- A record that matches with the key of the evaluation matches the certificate. -/
theorem exists_of_anyMatch (endEntity : usage = .pkixEe ∨ usage = .daneEe)
    (keyRead : spkiFor records certDer = .ok spkiDer)
    (found : anyMatch digests certDer spkiDer usage records = true) :
    ∃ record ∈ records, record.usage = usage ∧ MatchedByCertificate digests certDer record := by
  rcases List.any_eq_true.mp found with ⟨record, mem, holds⟩
  rw [Bool.and_eq_true, beq_iff_eq] at holds
  refine ⟨record, mem, holds.1, spkiDer, ?_, holds.2⟩
  intro selects
  rw [spkiFor, if_pos] at keyRead
  · exact keyRead
  · rw [List.any_eq_true]
    refine ⟨record, mem, ?_⟩
    rcases endEntity with pkix | dane
    · simp [TlsaRecord.isEeUsage, holds.1, pkix, selects]
    · simp [TlsaRecord.isEeUsage, holds.1, dane, selects]

theorem mem_of_filter_nonempty
    (nonempty : ¬ (records.filter fun record => record.usage == usage).isEmpty = true) :
    ∃ record ∈ records, record.usage = usage := by
  rw [List.isEmpty_iff, List.filter_eq_nil_iff] at nonempty
  push Not at nonempty
  rcases nonempty with ⟨record, mem, equal⟩
  exact ⟨record, mem, beq_iff_eq.mp equal⟩

/-- A match of a usage comes from a record that something vouches for. -/
theorem exists_vouched (keyRead : spkiFor input.tlsaRecords input.certDer = .ok spkiDer)
    (accepted : evaluateUsages digests verifier input input.tlsaRecords spkiDer =
      .ok (.matched usage)) :
    ∃ record ∈ input.tlsaRecords, record.usage = usage ∧ Vouched digests verifier input record := by
  unfold evaluateUsages at accepted
  dsimp only at accepted
  split_ifs at accepted with daneEe pkixEe daneTa pkixTa rejected
  · cases accepted
    rcases exists_of_anyMatch (.inr rfl) keyRead daneEe with ⟨record, mem, usage_eq, hit⟩
    exact ⟨record, mem, usage_eq, by rw [Vouched, usage_eq]; exact hit⟩
  · cases accepted
    rcases exists_of_anyMatch (.inl rfl) keyRead pkixEe.1 with ⟨record, mem, usage_eq, hit⟩
    exact ⟨record, mem, usage_eq, by rw [Vouched, usage_eq]; exact ⟨hit, pkixEe.2⟩⟩
  · cases accepted
    rcases mem_of_filter_nonempty daneTa.1 with ⟨record, mem, usage_eq⟩
    exact ⟨record, mem, usage_eq, by rw [Vouched, usage_eq]; exact daneTa.2⟩
  · cases accepted
    rcases mem_of_filter_nonempty pkixTa.1 with ⟨record, mem, usage_eq⟩
    exact ⟨record, mem, usage_eq, by rw [Vouched, usage_eq]; exact ⟨pkixTa.2.2, pkixTa.2.1⟩⟩
  · cases accepted

theorem evaluateUsages_ne {decision : DaneDecision}
    (other : ∀ usage, decision ≠ .matched usage) (not_failed : decision ≠ .failed) :
    evaluateUsages digests verifier input records spkiDer ≠ .ok decision := by
  unfold evaluateUsages
  dsimp only
  split_ifs <;> simp [Ne.symm (other _), Ne.symm not_failed]

/-! ## Records without trust anchors -/

/-- The records have end-entity usages only. -/
def OnlyEndEntity (records : List TlsaRecord) : Prop :=
  ∀ record ∈ records, record.isEeUsage = true

/-- The evaluation accepts. -/
def Accepts (result : Except DaneError DaneDecision) : Prop :=
  ∃ usage, result = .ok (.matched usage)

theorem OnlyEndEntity.filter_eq_nil (only : OnlyEndEntity records)
    (anchor : usage = .pkixTa ∨ usage = .daneTa) :
    (records.filter fun record => record.usage == usage) = [] := by
  rw [List.filter_eq_nil_iff]
  intro record mem equal
  have endEntity := only record mem
  rw [beq_iff_eq] at equal
  rcases anchor with pkix | dane
  · simp [TlsaRecord.isEeUsage, equal, pkix] at endEntity
  · simp [TlsaRecord.isEeUsage, equal, dane] at endEntity

theorem OnlyEndEntity.evaluateUsages_eq (only : OnlyEndEntity records) :
    evaluateUsages digests verifier input records spkiDer =
      if anyMatch digests input.certDer spkiDer .daneEe records then .ok (.matched .daneEe)
      else if anyMatch digests input.certDer spkiDer .pkixEe records then
        if input.webpkiStatus = .valid then .ok (.matched .pkixEe) else .error .webPkiFailed
      else .ok .failed := by
  rw [evaluateUsages]
  simp only [only.filter_eq_nil (.inl rfl), only.filter_eq_nil (.inr rfl), List.isEmpty_nil,
    not_true_eq_false, false_and, or_false, if_false]
  by_cases pkix : anyMatch digests input.certDer spkiDer .pkixEe records = true
  · by_cases valid : input.webpkiStatus = .valid
    · simp [pkix, valid]
    · simp [pkix, valid]
  · simp [pkix]

theorem anyMatch_cons (usage : TlsaUsage) :
    anyMatch digests certDer spkiDer usage (record :: records) =
      ((record.usage == usage && record.matchesDer digests certDer spkiDer) ||
        anyMatch digests certDer spkiDer usage records) :=
  rfl

/-- The loop finds a record exactly when one may be accepted, and else knows whether WebPKI
rejected one. -/
theorem OnlyEndEntity.matchRecords_eq (only : OnlyEndEntity records) (webpkiStatus : WebPkiStatus)
    (rejected : Bool) :
    ∃ found rejectedByWebpki,
      matchRecords digests ⟨certDer, spkiDer⟩ webpkiStatus rejected records =
        .ok (found, rejectedByWebpki) ∧
      (found.isSome = true ↔ anyMatch digests certDer spkiDer .daneEe records = true ∨
        anyMatch digests certDer spkiDer .pkixEe records = true ∧ webpkiStatus = .valid) ∧
      (found = none →
        rejectedByWebpki = (rejected || anyMatch digests certDer spkiDer .pkixEe records)) := by
  induction records generalizing rejected with
  | nil => exact ⟨none, rejected, rfl, by simp [anyMatch], by simp [anyMatch]⟩
  | cons record rest ih =>
    have onlyRest : OnlyEndEntity rest := fun other mem => only other (List.mem_cons_of_mem _ mem)
    have endEntity := only record List.mem_cons_self
    have matches_eq : recordMatchesChain digests record ⟨certDer, spkiDer⟩ =
        .ok (record.matchesDer digests certDer spkiDer) := by
      cases usage : record.usage <;>
        simp_all [recordMatchesChain, TlsaRecord.isEeUsage]
    simp only [matchRecords, matches_eq, anyMatch_cons, bind, Except.bind]
    by_cases hit : record.matchesDer digests certDer spkiDer = true
    · rw [if_neg (by simp [hit])]
      by_cases barred : record.isPkixUsage = true ∧ webpkiStatus ≠ .valid
      · rw [if_pos barred]
        rcases ih onlyRest true with ⟨found, rejectedByWebpki, run, isSome, none_eq⟩
        have usage_eq : record.usage = .pkixEe := by
          cases usage : record.usage <;>
            simp_all [TlsaRecord.isEeUsage, TlsaRecord.isPkixUsage]
        refine ⟨found, rejectedByWebpki, run, ?_, ?_⟩
        · rw [isSome]
          simp [usage_eq, barred.2]
        · intro nothing
          rw [none_eq nothing]
          simp [usage_eq, hit]
      · rw [if_neg barred]
        refine ⟨some record.usage, rejected, rfl, ?_, by simp⟩
        cases usage : record.usage <;>
          simp_all [TlsaRecord.isEeUsage, TlsaRecord.isPkixUsage]
    · rw [if_pos (by simp [hit])]
      rcases ih onlyRest rejected with ⟨found, rejectedByWebpki, run, isSome, none_eq⟩
      refine ⟨found, rejectedByWebpki, run, ?_, ?_⟩
      · rw [isSome]
        simp [hit]
      · intro nothing
        rw [none_eq nothing]
        simp [hit]

/-- The two evaluations of end-entity records accept together and fail alike. -/
theorem OnlyEndEntity.agree (only : OnlyEndEntity records) :
    let byUsage := evaluateUsages digests verifier input records spkiDer
    let byRecord :=
      evaluateTlsaForChain digests records ⟨input.certDer, spkiDer⟩ input.webpkiStatus
    (Accepts byUsage ↔ Accepts byRecord) ∧ (¬ Accepts byUsage → byUsage = byRecord) := by
  intro byUsage byRecord
  have byUsage_eq : byUsage = _ := only.evaluateUsages_eq
  have no_anchor : ¬ (records.any fun record =>
      record.usage == .pkixTa || record.usage == .daneTa) = true := by
    rw [List.any_eq_true]
    rintro ⟨record, mem, anchor⟩
    have endEntity := only record mem
    cases usage : record.usage <;> simp_all [TlsaRecord.isEeUsage]
  have matched := @OnlyEndEntity.matchRecords_eq digests records input.certDer spkiDer only
    input.webpkiStatus false
  rcases matched with ⟨found, rejectedByWebpki, run, isSome, none_eq⟩
  have byRecord_eq : byRecord = evaluateTlsaForChain digests records
    ⟨input.certDer, spkiDer⟩ input.webpkiStatus := rfl
  rw [evaluateTlsaForChain, run] at byRecord_eq
  simp only [bind, Except.bind, if_neg no_anchor] at byRecord_eq
  cases found with
  | some usage =>
    have acceptable := isSome.mp rfl
    have accepted : Accepts byUsage := by
      rw [byUsage_eq]
      by_cases daneEe : anyMatch digests input.certDer spkiDer .daneEe records = true
      · exact ⟨.daneEe, if_pos daneEe⟩
      · rcases acceptable.resolve_left daneEe with ⟨pkixEe, valid⟩
        exact ⟨.pkixEe, by rw [if_neg daneEe, if_pos pkixEe, if_pos valid]⟩
    exact ⟨⟨fun _ => ⟨usage, byRecord_eq⟩, fun _ => accepted⟩, fun refused => absurd accepted refused⟩
  | none =>
    have unacceptable := mt isSome.mpr (by simp)
    rw [not_or, not_and] at unacceptable
    rw [none_eq rfl, Bool.false_or] at byRecord_eq
    have same : byUsage = byRecord := by
      rw [byUsage_eq, byRecord_eq, if_neg unacceptable.1]
      by_cases pkixEe : anyMatch digests input.certDer spkiDer .pkixEe records = true
      · rw [if_pos pkixEe, if_neg (unacceptable.2 pkixEe), if_pos pkixEe]
      · rw [if_neg pkixEe, if_neg pkixEe]
    exact ⟨by rw [same], fun _ => same⟩

/-! ## The laws of the policy -/

/-- The records, not their order, decide; records are never ignored; a match is secure and
vouched for; and the two evaluations agree on end-entity records. -/
structure PolicyLaws (digests : Digests) (verifier : TlsaPathVerifier)
    (input : DaneCertificateValidationInput) : Prop where
  unordered : ∀ others, SameRecords others input.tlsaRecords →
    others.length ≤ maxCertificateTlsaInputRecords →
    evaluatePolicyWithPathVerifier digests verifier { input with tlsaRecords := others } =
      evaluatePolicyWithPathVerifier digests verifier input
  no_downgrade : input.tlsaRecords ≠ [] →
    evaluatePolicyWithPathVerifier digests verifier input ≠ .ok .webPkiFallback ∧
      evaluatePolicyWithPathVerifier digests verifier input ≠ .ok .noTlsa
  vouched : ∀ usage, evaluatePolicyWithPathVerifier digests verifier input = .ok (.matched usage) →
      input.dnssecSecure = true ∧
        ∃ record ∈ input.tlsaRecords, record.usage = usage ∧ Vouched digests verifier input record
  agree : OnlyEndEntity input.tlsaRecords →
    (Accepts (evaluatePolicyWithPathVerifier digests verifier input) ↔
        Accepts (evaluatePolicyWithCertificate digests input)) ∧
      (¬ Accepts (evaluatePolicyWithPathVerifier digests verifier input) →
        evaluatePolicyWithPathVerifier digests verifier input =
          evaluatePolicyWithCertificate digests input)

/-- Insecure records select a key that the certificate does not give. -/
def KeyBeforeSecurity (input : DaneCertificateValidationInput) : Prop :=
  OnlyEndEntity input.tlsaRecords ∧ input.dnssecSecure = false ∧
    (∃ record ∈ input.tlsaRecords, record.selector = .subjectPublicKeyInfo) ∧
    ∃ error, extractSpkiDer input.certDer = .error error

theorem octetAt_ne_insecure (position : Nat) : octetAt data position ≠ .error .insecureTlsa := by
  unfold octetAt
  split <;> simp

theorem readElement_ne_insecure (start limit : Nat) :
    readDerElementWithLimit data start limit ≠ .error .insecureTlsa := by
  unfold readDerElementWithLimit
  split_ifs
  · simp
  refine bind_ne_error (octetAt_ne_insecure _ _) fun tag => bind_ne_error ?_ ?_
  · refine bind_ne_error (octetAt_ne_insecure _ _) fun first => ?_
    dsimp only
    split_ifs
    · simp
    · simp
    · simp
    cases slice data (start + 1 + 1) (start + 1 + 1 + (first &&& 0x7f).toNat) with
    | none => simp
    | some encoded =>
      dsimp only
      split_ifs <;> simp
  · rintro ⟨length, valueStart⟩
    dsimp only
    split_ifs <;> simp

theorem skipElement_ne_insecure (cursor limit : Nat) :
    skipDerElement data cursor limit ≠ .error .insecureTlsa :=
  bind_ne_error (readElement_ne_insecure _ _ _) fun _ => by simp [pure, Except.pure]

theorem skipElements_ne_insecure (limit count cursor : Nat) :
    skipDerElements data limit count cursor ≠ .error .insecureTlsa := by
  induction count generalizing cursor with
  | zero => simp [skipDerElements]
  | succ count ih => exact bind_ne_error (skipElement_ne_insecure _ _ _) ih

theorem skipVersion_ne_insecure (cursor limit : Nat) :
    skipVersion data cursor limit ≠ .error .insecureTlsa := by
  refine bind_ne_error ?_ fun tag => ?_
  · unfold peekDerTag
    split_ifs <;> simp
  · split_ifs
    · exact skipElement_ne_insecure _ _ _
    · simp

/-- The reader of certificates knows nothing of DNSSEC. -/
theorem extractSpkiDer_ne_insecure (certDer : Octets) :
    extractSpkiDer certDer ≠ .error .insecureTlsa := by
  refine bind_ne_error (readElement_ne_insecure _ _ _) ?_
  rintro ⟨certificate, cursor⟩
  dsimp only
  split_ifs
  · simp
  refine bind_ne_error (readElement_ne_insecure _ _ _) ?_
  rintro ⟨tbs, next⟩
  dsimp only
  split_ifs
  · simp
  refine bind_ne_error (skipVersion_ne_insecure _ _ _) fun afterVersion => ?_
  refine bind_ne_error (skipElements_ne_insecure _ _ _ _) fun afterFields => ?_
  split_ifs
  · simp
  · refine bind_ne_error (readElement_ne_insecure _ _ _) ?_
    rintro ⟨spki, after⟩
    dsimp only
    split_ifs <;> simp

theorem OnlyEndEntity.spkiFor_eq_error_iff (only : OnlyEndEntity records) :
    (∃ error, spkiFor records certDer = .error error) ↔
      (∃ record ∈ records, record.selector = .subjectPublicKeyInfo) ∧
        ∃ error, extractSpkiDer certDer = .error error := by
  have selects : (records.any fun record =>
      record.isEeUsage && record.selector == .subjectPublicKeyInfo) = true ↔
        ∃ record ∈ records, record.selector = .subjectPublicKeyInfo := by
    rw [List.any_eq_true]
    constructor
    · rintro ⟨record, mem, holds⟩
      rw [Bool.and_eq_true, beq_iff_eq] at holds
      exact ⟨record, mem, holds.2⟩
    · rintro ⟨record, mem, selected⟩
      exact ⟨record, mem, by rw [only record mem, selected]; rfl⟩
  rw [spkiFor]
  split_ifs with chosen
  · exact ⟨fun failed => ⟨selects.mp chosen, failed⟩, fun both => both.2⟩
  · constructor
    · rintro ⟨error, failed⟩
      cases failed
    · rintro ⟨selected, -⟩
      exact absurd (selects.mpr selected) chosen

/-- With security first, the certificate alone agrees with a path verifier. -/
theorem OnlyEndEntity.evaluatePolicy_agree (only : OnlyEndEntity input.tlsaRecords)
    (setBased : verifier.SetBased)
    (short : input.tlsaRecords.length ≤ maxCertificateTlsaInputRecords)
    (few : input.tlsaRecords.dedup.length ≤ maxCertificateTlsaRecords) :
    (Accepts (evaluatePolicyWithPathVerifier digests verifier input) ↔
        Accepts (evaluatePolicy digests input)) ∧
      (¬ Accepts (evaluatePolicyWithPathVerifier digests verifier input) →
        evaluatePolicyWithPathVerifier digests verifier input = evaluatePolicy digests input) := by
  rw [evaluatePolicyWithPathVerifier_eq setBased short few, evaluatePolicy]
  by_cases empty : input.tlsaRecords.isEmpty = true
  · simp [empty]
  by_cases secure : input.dnssecSecure = true
  · rw [if_neg empty, if_neg (not_not.mpr secure), if_pos empty, if_neg (not_not.mpr secure)]
    cases spkiFor input.tlsaRecords input.certDer with
    | error error => exact ⟨Iff.rfl, fun _ => rfl⟩
    | ok spkiDer => exact only.agree
  · simp [empty, secure]

/-- Reading the key first changes nothing else. -/
theorem OnlyEndEntity.withCertificate_eq (only : OnlyEndEntity input.tlsaRecords)
    (secureFirst : ¬ KeyBeforeSecurity input) :
    evaluatePolicyWithCertificate digests input = evaluatePolicy digests input := by
  rw [evaluatePolicyWithCertificate, evaluatePolicy]
  cases keyRead : spkiFor input.tlsaRecords input.certDer with
  | ok spkiDer => rfl
  | error error =>
    rcases only.spkiFor_eq_error_iff.mp ⟨error, keyRead⟩ with ⟨selected, unread⟩
    have present : ¬ input.tlsaRecords.isEmpty = true := by
      rcases selected with ⟨record, mem, -⟩
      simpa using List.ne_nil_of_mem mem
    have secure : input.dnssecSecure = true := by
      by_contra insecure
      exact secureFirst ⟨only, by simpa using insecure, selected, unread⟩
    rw [if_pos present, if_neg (not_not.mpr secure)]
    rfl

theorem evaluateNoTlsaPolicy_ne {mode : DomainTrustMode} {webpkiStatus : WebPkiStatus} :
    evaluateNoTlsaPolicy mode webpkiStatus ≠ .ok (.matched usage) := by
  cases mode <;> cases webpkiStatus <;> simp [evaluateNoTlsaPolicy]

/-- The laws hold unless a missing key is reported before missing security. -/
theorem policyLaws_iff (digests : Digests) (verifier : TlsaPathVerifier)
    (input : DaneCertificateValidationInput) (setBased : verifier.SetBased)
    (short : input.tlsaRecords.length ≤ maxCertificateTlsaInputRecords)
    (few : input.tlsaRecords.dedup.length ≤ maxCertificateTlsaRecords) :
    PolicyLaws digests verifier input ↔ ¬ KeyBeforeSecurity input := by
  have byUsage := @evaluatePolicyWithPathVerifier_eq digests verifier input setBased short few
  constructor
  · rintro laws ⟨only, insecure, selected, unread⟩
    rcases only.spkiFor_eq_error_iff.mpr ⟨selected, unread⟩ with ⟨error, failed⟩
    have present : input.tlsaRecords ≠ [] := by
      rintro empty
      rw [empty] at selected
      simp at selected
    rw [if_neg (by simpa using present), if_pos (by simp [insecure])] at byUsage
    have same := (laws.agree only).2 (by rw [byUsage]; rintro ⟨usage, accepted⟩; cases accepted)
    rw [byUsage, evaluatePolicyWithCertificate, failed] at same
    have error_eq : error = .insecureTlsa := (Except.error.inj same).symm
    rw [error_eq, spkiFor] at failed
    split_ifs at failed
    exact extractSpkiDer_ne_insecure _ failed
  · intro secureFirst
    refine ⟨?_, ?_, ?_, ?_⟩
    · intro others same otherShort
      rw [byUsage, evaluatePolicyWithPathVerifier_eq setBased otherShort
        (same.length_dedup.le.trans few)]
      simp only [same.isEmpty_eq, same.spkiFor_eq]
      congr 3
      funext spkiDer
      exact same.evaluateUsages_eq setBased
    · intro present
      rw [byUsage, if_neg (by simpa using present)]
      split_ifs with secure
      · constructor
        · intro fallback
          rcases of_bind_ok fallback with ⟨spkiDer, -, evaluated⟩
          exact evaluateUsages_ne (by simp) (by simp) evaluated
        · intro nothing
          rcases of_bind_ok nothing with ⟨spkiDer, -, evaluated⟩
          exact evaluateUsages_ne (by simp) (by simp) evaluated
      · simp
    · intro usage accepted
      rw [byUsage] at accepted
      split_ifs at accepted with empty secure
      · exact absurd accepted evaluateNoTlsaPolicy_ne
      · rcases of_bind_ok accepted with ⟨spkiDer, keyRead, evaluated⟩
        exact ⟨secure, exists_vouched keyRead evaluated⟩
    · intro only
      rw [only.withCertificate_eq secureFirst]
      exact only.evaluatePolicy_agree setBased short few

end

/-! ## Insecure records and a broken certificate -/

/-- Digests that are never asked for. -/
def noDigests : Digests :=
  ⟨fun _ => [], fun _ => []⟩

/-- A verifier that accepts no path. -/
def noPath : TlsaPathVerifier :=
  ⟨fun _ => false, fun _ => false⟩

theorem noPath_setBased : noPath.SetBased :=
  ⟨fun _ _ _ => rfl, fun _ _ _ => rfl⟩

/-- An insecure record for the key of an empty certificate. -/
def insecureInput : DaneCertificateValidationInput where
  mode := .hnsStrict
  dnssecSecure := false
  tlsaRecords := [⟨.daneEe, .subjectPublicKeyInfo, .exact, [1]⟩]
  certDer := []
  webpkiStatus := .notEvaluated

/-- The certificate is reported by one evaluation, the missing security by the other. -/
theorem insecure_key_reported :
    ¬ ∀ (digests : Digests) (verifier : TlsaPathVerifier) (input : DaneCertificateValidationInput),
      verifier.SetBased → input.tlsaRecords.length ≤ maxCertificateTlsaInputRecords →
        input.tlsaRecords.dedup.length ≤ maxCertificateTlsaRecords →
          PolicyLaws digests verifier input := by
  intro all
  have laws := all noDigests noPath insecureInput noPath_setBased (by decide) (by decide)
  have same := (laws.agree (by simp [OnlyEndEntity, insecureInput, TlsaRecord.isEeUsage])).2
    (by rintro ⟨usage, accepted⟩; cases accepted)
  have byPath : evaluatePolicyWithPathVerifier noDigests noPath insecureInput =
      .error .insecureTlsa := by
    rfl
  have byCertificate : evaluatePolicyWithCertificate noDigests insecureInput =
      .error .malformedCertificate := by
    rfl
  rw [byPath, byCertificate] at same
  cases same

def anchorRecord : TlsaRecord :=
  ⟨.daneTa, .fullCertificate, .exact, [2]⟩

/-- A verifier of the paths to one anchor. -/
def anchorPath : TlsaPathVerifier :=
  ⟨fun _ => false, fun records => decide (anchorRecord ∈ records)⟩

theorem anchorPath_setBased : anchorPath.SetBased where
  pkixTa _ _ _ := rfl
  daneTa _ _ same := decide_eq_decide.mpr (same anchorRecord)

/-- All usages, one record twice; WebPKI is not evaluated. -/
def mixedInput : DaneCertificateValidationInput where
  mode := .hnsStrict
  dnssecSecure := true
  tlsaRecords := [⟨.pkixEe, .fullCertificate, .exact, [1]⟩, anchorRecord,
    ⟨.pkixTa, .fullCertificate, .exact, [2]⟩, ⟨.daneEe, .fullCertificate, .exact, [3]⟩, anchorRecord]
  certDer := [1]
  webpkiStatus := .notEvaluated

theorem policyLaws_mixed :
    evaluatePolicyWithPathVerifier noDigests anchorPath mixedInput = .ok (.matched .daneTa) ∧
      PolicyLaws noDigests anchorPath mixedInput := by
  constructor
  · rfl
  · apply (policyLaws_iff noDigests anchorPath mixedInput anchorPath_setBased (by decide)
      (by decide)).mpr
    rintro ⟨-, insecure, -⟩
    cases insecure

end HnsDaneEngine.Dane.Browser
