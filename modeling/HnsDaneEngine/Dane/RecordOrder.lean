import HnsDaneEngine.Dane.Chain
import HnsDaneEngine.Data.Alternatives

/-!
# The order of TLSA records

The records of an RRset are alternatives, and DNS delivers them in any order.  The loop
over the DANE-TA records returns at once where it accepts, but also where it cannot
parse an anchor or a certificate of the chain.
-/

namespace HnsDaneEngine.Dane

open Control Data
open Wire (Tlsa)

variable {certificate : Octets}

section

variable {X509 : Type} (crypto : Crypto X509) (limits : DaneLimits) (chain : List Octets)
  (tlsaBaseDomain : Octets) (time : Int)

/-- What the loop over the DANE-TA records does at one record. -/
def anchorVerdict (leaf : Octets) (parsedChain : List X509) (leafCertificate : X509)
    (record : ParsedRecord) : Verdict :=
  if record.usage ≠ .daneTa then .pass
  else
    match anchorDer crypto limits chain leaf record with
    | .error _ => .abort
    | .ok none => .pass
    | .ok (some der) =>
      match crypto.fromDer der with
      | none => .abort
      | some anchor =>
        if crypto.validatePrivateChain leafCertificate parsedChain anchor der tlsaBaseDomain
            time limits then .accept
        else .pass

/-- The leaf matches a DANE-EE record. -/
def LeafMatches (leaf spki : Octets) (records : List ParsedRecord) : Prop :=
  ∃ record ∈ records, record.usage = .daneEe ∧ materialMatches crypto leaf spki record = true

/-- What the verification has before it looks at the DANE-TA records: parsed records,
the leaf and its key. -/
structure Prepared (records : List Tlsa) (parsedRecords : List ParsedRecord)
    (leaf spki : Octets) : Prop where
  inputs : validateChainInputs limits chain tlsaBaseDomain records = .ok ()
  parsed : records.mapM (parseRecord limits) = .ok parsedRecords
  first : firstOf chain = .ok leaf
  key : extractSubjectPublicKeyInfo leaf = .ok spki
  bounded : spki.length ≤ limits.maxSpkiLen

/-- The presented certificates are parsed, the leaf first. -/
structure Presented (parsedChain : List X509) (leafCertificate : X509) : Prop where
  parsed : chain.mapM (parseCertificate crypto) = .ok parsedChain
  first : firstOf parsedChain = .ok leafCertificate

/-- The strict extractor reads the key of a certificate within its bound. -/
def KeyRead (certificate spki : Octets) : Prop :=
  extractSubjectPublicKeyInfo certificate = .ok spki ∧ spki.length ≤ limits.maxSpkiLen

/-- Before a certificate that the record matches, the chain has one whose key is not read. -/
def MeetsUnread (chain : List Octets) (record : ParsedRecord) : Prop :=
  ∃ passed certificate rest, chain = passed ++ certificate :: rest ∧
    (∀ earlier ∈ passed, ∃ spki, KeyRead limits earlier spki ∧
      materialMatches crypto earlier spki record = false) ∧
    ∀ spki, ¬ KeyRead limits certificate spki

/-- No DANE-EE record matches, and of the DANE-TA records one validates the chain and
one ends the verification with an error. -/
def Contested (records : List Tlsa) : Prop :=
  ∃ parsedRecords leaf spki parsedChain leafCertificate,
    Prepared limits chain tlsaBaseDomain records parsedRecords leaf spki ∧
      ¬ LeafMatches crypto leaf spki parsedRecords ∧
      Presented crypto chain parsedChain leafCertificate ∧
      (∃ record ∈ parsedRecords, anchorVerdict crypto limits chain tlsaBaseDomain time leaf
        parsedChain leafCertificate record = .accept) ∧
      ∃ record ∈ parsedRecords, anchorVerdict crypto limits chain tlsaBaseDomain time leaf
        parsedChain leafCertificate record = .abort

/-- `verify_dane_chain` returns `Ok`. -/
def Verifies (records : List Tlsa) : Prop :=
  ∃ found, verifyDaneChain crypto limits chain tlsaBaseDomain records time = .ok found

variable {crypto limits chain tlsaBaseDomain time}

variable {leaf spki : Octets} {records others : List Tlsa} {record : ParsedRecord}
  {parsedChain : List X509} {leafCertificate : X509}

theorem meetsUnread_cons_iff : MeetsUnread crypto limits (certificate :: chain) record ↔
      (∀ spki, ¬ KeyRead limits certificate spki) ∨
        (∃ spki, KeyRead limits certificate spki ∧
          materialMatches crypto certificate spki record = false) ∧
        MeetsUnread crypto limits chain record := by
  constructor
  · rintro ⟨passed, unread, rest, chain_eq, passes, notRead⟩
    cases passed with
    | nil =>
      obtain ⟨rfl, rfl⟩ := List.cons.inj chain_eq
      exact .inl notRead
    | cons first passed =>
      obtain ⟨rfl, rfl⟩ := List.cons.inj chain_eq
      rw [List.forall_mem_cons] at passes
      exact .inr ⟨passes.1, passed, unread, rest, rfl, passes.2, notRead⟩
  · rintro (notRead | ⟨reads, passed, unread, rest, rfl, passes, notRead⟩)
    · exact ⟨[], certificate, chain, rfl, fun _ earlierMem => absurd earlierMem List.not_mem_nil,
        notRead⟩
    · exact ⟨certificate :: passed, unread, rest, rfl, List.forall_mem_cons.mpr ⟨reads, passes⟩,
        notRead⟩

/-- The search ends with an error at a certificate that is not read. -/
theorem findMatched_error_iff :
    (∃ error, findMatched crypto limits record chain = .error error) ↔
      MeetsUnread crypto limits chain record := by
  induction chain with
  | nil => simp [findMatched, MeetsUnread]
  | cons certificate chain ih =>
    rw [meetsUnread_cons_iff, ← ih, findMatched]
    cases extracted : extractSubjectPublicKeyInfo certificate with
    | error error => simp [KeyRead, extracted, Bind.bind, Except.bind]
    | ok spki =>
      by_cases long : limits.maxSpkiLen < spki.length
      · simp [KeyRead, extracted, long, Bind.bind, Except.bind]
      · have bounded := Nat.not_lt.mp long
        cases matched : materialMatches crypto certificate spki record <;>
          simp [KeyRead, extracted, long, bounded, matched, Bind.bind, Except.bind]

theorem findMatched_mem
    (found : findMatched crypto limits record chain = .ok (some certificate)) :
    certificate ∈ chain := by
  induction chain with
  | nil => cases found
  | cons first chain ih =>
    rcases of_bind_ok found with ⟨spki, -, found⟩
    rcases of_guard_ok found with ⟨-, found⟩
    split at found
    next =>
      cases found
      exact List.mem_cons_self
    next => exact List.mem_cons_of_mem _ (ih found)

/-- Every certificate of a presented chain is parsed. -/
theorem Presented.fromDer_ne_none (presented : Presented crypto chain parsedChain leafCertificate)
    (certificateMem : certificate ∈ chain) :
    crypto.fromDer certificate ≠ none := by
  rcases exists_mapM_eq_ok_iff.mp ⟨_, presented.parsed⟩ certificate certificateMem with
    ⟨parsed, parsed_eq⟩
  intro refused
  rw [parseCertificate, refused] at parsed_eq
  cases parsed_eq

/-- A full certificate is its own anchor, whether it is presented or not. -/
theorem anchorDer_of_full (leafMem : leaf ∈ chain)
    (full : record.selector = .fullCertificate ∧ record.matchingType = .exact) :
    anchorDer crypto limits chain leaf record = .ok (some record.associationData) := by
  rw [anchorDer, if_pos full]
  split
  next => rfl
  next presented =>
    split
    next certificate found =>
      obtain rfl := constantTimeEq_iff.mp (List.find?_some found)
      rfl
    next absent =>
      rw [List.find?_eq_none] at absent
      refine absurd ⟨absent leaf leafMem, List.all_eq_true.mpr ?_⟩ presented
      intro certificate certificateMem
      simp [absent certificate certificateMem]

/-- A DANE-TA record ends the verification with an error when it carries a full certificate
that is none, or meets, before a certificate it matches, one whose key is not read. -/
theorem anchorVerdict_eq_abort_iff (first : firstOf chain = .ok leaf)
    (presented : Presented crypto chain parsedChain leafCertificate) :
    anchorVerdict crypto limits chain tlsaBaseDomain time leaf parsedChain leafCertificate record =
        .abort ↔
      record.usage = .daneTa ∧
        if record.selector = .fullCertificate ∧ record.matchingType = .exact then
          crypto.fromDer record.associationData = none
        else MeetsUnread crypto limits chain record := by
  have leafMem : leaf ∈ chain := by
    cases chain with
    | nil => cases first
    | cons certificate chain =>
      cases first
      exact List.mem_cons_self
  unfold anchorVerdict
  by_cases other : record.usage ≠ .daneTa
  · simp [other]
  rw [if_neg other, and_iff_right (not_not.mp other)]
  by_cases full : record.selector = .fullCertificate ∧ record.matchingType = .exact
  · rw [if_pos full, anchorDer_of_full leafMem full]
    cases parsed : crypto.fromDer record.associationData with
    | none => simp [parsed]
    | some anchor =>
      simp only [parsed]
      split <;> simp
  · rw [if_neg full, anchorDer, if_neg full, ← findMatched_error_iff]
    cases found : findMatched crypto limits record chain with
    | error error => simp
    | ok selection =>
      cases selection with
      | none => simp
      | some certificate =>
        rcases Option.ne_none_iff_exists'.mp
          (presented.fromDer_ne_none (findMatched_mem found)) with ⟨anchor, parsed⟩
        simp only [parsed]
        split <;> simp
theorem matchLeaf_isSome_iff (records : List ParsedRecord) (recordIndex : Nat) :
    (matchLeaf crypto leaf spki recordIndex records).isSome = true ↔
      LeafMatches crypto leaf spki records := by
  induction records generalizing recordIndex with
  | nil => simp [matchLeaf, LeafMatches]
  | cons record records ih =>
    rw [matchLeaf, LeafMatches, List.exists_mem_cons_iff]
    by_cases found : record.usage = .daneEe ∧ materialMatches crypto leaf spki record = true
    · rw [if_pos found]
      exact iff_of_true rfl (.inl found)
    · rw [if_neg found, ih]
      simp [found, LeafMatches]

/-- The loop over the DANE-TA records is a loop over alternatives. -/
theorem matchAnchors_ok_iff
    (records : List ParsedRecord) (recordIndex : Nat) (sawTaMatch : Bool) :
    (∃ found, matchAnchors crypto limits chain leaf parsedChain leafCertificate tlsaBaseDomain time
        recordIndex sawTaMatch records = .ok found) ↔
      accepted (anchorVerdict crypto limits chain tlsaBaseDomain time leaf parsedChain
        leafCertificate) records = true := by
  induction records generalizing recordIndex sawTaMatch with
  | nil => cases sawTaMatch <;> simp [matchAnchors, accepted]
  | cons record records ih =>
    rw [matchAnchors, accepted, anchorVerdict]
    by_cases other : record.usage ≠ .daneTa
    · rw [if_pos other, if_pos other]
      exact ih _ _
    rw [if_neg other, if_neg other]
    cases selected : anchorDer crypto limits chain leaf record with
    | error error => simp
    | ok selection =>
      cases selection with
      | none => exact ih _ _
      | some der =>
        dsimp only
        cases crypto.fromDer der with
        | none => simp
        | some anchor =>
          dsimp only
          by_cases validates : crypto.validatePrivateChain leafCertificate parsedChain
              anchor der tlsaBaseDomain time limits = true
          · simp [validates]
          · rw [if_neg validates, if_neg validates]
            exact ih _ _

/-- When the verification succeeds. -/
theorem verifies_iff :
    Verifies crypto limits chain tlsaBaseDomain time records ↔ ∃ parsedRecords leaf spki,
        Prepared limits chain tlsaBaseDomain records parsedRecords leaf spki ∧
        (LeafMatches crypto leaf spki parsedRecords ∨
          ∃ parsedChain leafCertificate, Presented crypto chain parsedChain leafCertificate ∧
            accepted (anchorVerdict crypto limits chain tlsaBaseDomain time leaf parsedChain
              leafCertificate) parsedRecords = true) := by
  constructor
  · rintro ⟨found, verified⟩
    rcases of_bind_ok verified with ⟨⟨⟩, inputs, verified⟩
    rcases of_bind_ok verified with ⟨parsedRecords, parsed, verified⟩
    rcases of_bind_ok verified with ⟨leaf, first, verified⟩
    rcases of_bind_ok verified with ⟨spki, key, verified⟩
    rw [guard_eq_ok_iff, Nat.not_lt] at verified
    rcases verified with ⟨bounded, verified⟩
    refine ⟨parsedRecords, leaf, spki, ⟨inputs, parsed, first, key, bounded⟩, ?_⟩
    cases matched : matchLeaf crypto leaf spki 0 parsedRecords with
    | some hit =>
      left
      rw [← matchLeaf_isSome_iff parsedRecords 0, matched]
      rfl
    | none =>
      right
      rw [matched] at verified
      rcases of_bind_ok verified with ⟨parsedChain, chainParsed, verified⟩
      rcases of_bind_ok verified with ⟨leafCertificate, chainFirst, verified⟩
      exact ⟨parsedChain, leafCertificate, ⟨chainParsed, chainFirst⟩,
        (matchAnchors_ok_iff parsedRecords 0 false).mp ⟨found, verified⟩⟩
  · rintro ⟨parsedRecords, leaf, spki, ⟨inputs, parsed, first, key, bounded⟩, succeeds⟩
    cases matched : matchLeaf crypto leaf spki 0 parsedRecords with
    | some hit =>
      refine ⟨hit, bind_ok inputs (bind_ok parsed (bind_ok first (bind_ok key ?_)))⟩
      refine guard_eq_ok_iff.mpr ⟨Nat.not_lt.mpr bounded, ?_⟩
      rw [matched]
    | none =>
      have unmatched : ¬ LeafMatches crypto leaf spki parsedRecords := by
        rw [← matchLeaf_isSome_iff parsedRecords 0, matched]
        exact Bool.false_ne_true
      rcases succeeds.resolve_left unmatched with
        ⟨parsedChain, leafCertificate, ⟨chainParsed, chainFirst⟩, accepts⟩
      rcases (matchAnchors_ok_iff parsedRecords 0 false).mpr accepts with ⟨found, found_eq⟩
      refine ⟨found, bind_ok inputs (bind_ok parsed (bind_ok first (bind_ok key ?_)))⟩
      refine guard_eq_ok_iff.mpr ⟨Nat.not_lt.mpr bounded, ?_⟩
      rw [matched]
      exact bind_ok chainParsed (bind_ok chainFirst found_eq)

/-- Permuted items have permuted results. -/
theorem mapM_perm {α β ε : Type} {f : α → Except ε β} {items others : List α} {results : List β}
    (perm : others.Perm items) (traversed : items.mapM f = .ok results) :
    ∃ otherResults : List β, others.mapM f = .ok otherResults ∧ otherResults.Perm results := by
  rcases List.perm_comp_forall₂ perm (mapM_eq_ok_iff.mp traversed) with
    ⟨otherResults, related, resultsPerm⟩
  exact ⟨otherResults, mapM_eq_ok_iff.mpr related, resultsPerm⟩

/-- Every order of the results comes from an order of the items. -/
theorem exists_perm_of_results {α β ε : Type} {f : α → Except ε β} {items : List α}
    {results others : List β} (perm : others.Perm results)
    (traversed : items.mapM f = .ok results) :
    ∃ otherItems : List α, otherItems.Perm items ∧ otherItems.mapM f = .ok others := by
  have related := (mapM_eq_ok_iff.mp traversed).flip
  rcases List.perm_comp_forall₂ perm related with ⟨otherItems, otherRelated, itemsPerm⟩
  exact ⟨otherItems, itemsPerm, mapM_eq_ok_iff.mpr otherRelated.flip⟩

theorem validateChainInputs_perm (perm : others.Perm records) :
    validateChainInputs limits chain tlsaBaseDomain others =
      validateChainInputs limits chain tlsaBaseDomain records := by
  rw [validateChainInputs, validateChainInputs, perm.length_eq, perm.isEmpty_eq]

theorem Prepared.perm {parsedRecords : List ParsedRecord}
    (prepared : Prepared limits chain tlsaBaseDomain records parsedRecords leaf spki)
    (perm : others.Perm records) :
    ∃ otherParsed, Prepared limits chain tlsaBaseDomain others otherParsed leaf spki ∧
      otherParsed.Perm parsedRecords := by
  rcases mapM_perm perm prepared.parsed with ⟨otherParsed, parsed, parsedPerm⟩
  exact ⟨otherParsed, ⟨(validateChainInputs_perm perm).trans prepared.inputs, parsed,
    prepared.first, prepared.key, prepared.bounded⟩, parsedPerm⟩

theorem leafMatches_perm {records others : List ParsedRecord} (perm : others.Perm records) :
    LeafMatches crypto leaf spki others ↔ LeafMatches crypto leaf spki records := by
  simp only [LeafMatches, perm.mem_iff]

theorem contested_perm (perm : others.Perm records)
    (contested : Contested crypto limits chain tlsaBaseDomain time others) :
    Contested crypto limits chain tlsaBaseDomain time records := by
  rcases contested with ⟨parsedRecords, leaf, spki, parsedChain, leafCertificate, prepared,
    unmatched, presented, accepts, aborts⟩
  rcases prepared.perm perm.symm with ⟨otherParsed, otherPrepared, parsedPerm⟩
  refine ⟨otherParsed, leaf, spki, parsedChain, leafCertificate, otherPrepared, ?_, presented, ?_,
    ?_⟩
  · rwa [leafMatches_perm parsedPerm]
  · simpa only [parsedPerm.mem_iff] using accepts
  · simpa only [parsedPerm.mem_iff] using aborts

/-- Another order of records that are not contested verifies as well. -/
theorem Verifies.perm (perm : others.Perm records)
    (uncontested : ¬ Contested crypto limits chain tlsaBaseDomain time records)
    (verifies : Verifies crypto limits chain tlsaBaseDomain time records) :
    Verifies crypto limits chain tlsaBaseDomain time others := by
  rcases verifies_iff.mp verifies with ⟨parsedRecords, leaf, spki, prepared, succeeds⟩
  rcases prepared.perm perm with ⟨otherParsed, otherPrepared, parsedPerm⟩
  refine verifies_iff.mpr ⟨otherParsed, leaf, spki, otherPrepared, ?_⟩
  by_cases matched : LeafMatches crypto leaf spki parsedRecords
  · exact .inl ((leafMatches_perm parsedPerm).mpr matched)
  right
  rcases succeeds.resolve_left matched with ⟨parsedChain, leafCertificate, presented, accepts⟩
  refine ⟨parsedChain, leafCertificate, presented, ?_⟩
  rw [accepted_of_perm parsedPerm]
  · exact accepts
  · rintro ⟨likes, aborts⟩
    exact uncontested ⟨parsedRecords, leaf, spki, parsedChain, leafCertificate, prepared, matched,
      presented, likes, aborts⟩

/-- The order of the records decides nothing exactly when they are not contested. -/
theorem verifies_perm_iff (crypto : Crypto X509) (limits : DaneLimits) (chain : List Octets)
    (tlsaBaseDomain : Octets) (time : Int) (records : List Tlsa) :
    (∀ others : List Tlsa, others.Perm records →
        (Verifies crypto limits chain tlsaBaseDomain time others ↔
          Verifies crypto limits chain tlsaBaseDomain time records)) ↔
      ¬ Contested crypto limits chain tlsaBaseDomain time records := by
  constructor
  · rintro agree ⟨parsedRecords, leaf, spki, parsedChain, leafCertificate, prepared, unmatched,
      presented, ⟨liked, likedMem, likes⟩, ⟨refused, refusedMem, aborts⟩⟩
    -- Put the record that validates first, or the one that aborts.
    have reordered (record : ParsedRecord) (recordMem : record ∈ parsedRecords) :
        Verifies crypto limits chain tlsaBaseDomain time records ↔
          accepted (anchorVerdict crypto limits chain tlsaBaseDomain time leaf parsedChain
            leafCertificate) (record :: parsedRecords.erase record) = true := by
      have front := (List.perm_cons_erase recordMem).symm
      rcases exists_perm_of_results front prepared.parsed with ⟨others, othersPerm, parsed⟩
      rw [← agree others othersPerm, verifies_iff]
      have otherPrepared : Prepared limits chain tlsaBaseDomain others
          (record :: parsedRecords.erase record) leaf spki :=
        ⟨(validateChainInputs_perm othersPerm).trans prepared.inputs, parsed, prepared.first,
          prepared.key, prepared.bounded⟩
      constructor
      · rintro ⟨otherParsed, otherLeaf, otherSpki, otherPrepared', succeeds⟩
        obtain rfl := Except.ok.inj (otherPrepared'.parsed.symm.trans otherPrepared.parsed)
        obtain rfl := Except.ok.inj (otherPrepared'.first.symm.trans prepared.first)
        obtain rfl := Except.ok.inj (otherPrepared'.key.symm.trans prepared.key)
        have otherUnmatched : ¬ LeafMatches crypto otherLeaf otherSpki
            (record :: parsedRecords.erase record) := by
          rwa [leafMatches_perm front]
        rcases succeeds.resolve_left otherUnmatched with
          ⟨otherChain, otherCertificate, otherPresented, accepts⟩
        obtain rfl := Except.ok.inj (otherPresented.parsed.symm.trans presented.parsed)
        obtain rfl := Except.ok.inj (otherPresented.first.symm.trans presented.first)
        exact accepts
      · intro accepts
        exact ⟨_, leaf, spki, otherPrepared, .inr ⟨parsedChain, leafCertificate, presented, accepts⟩⟩
    have verifies := (reordered liked likedMem).mpr (by rw [accepted, likes])
    have refuses := (reordered refused refusedMem).mp verifies
    rw [accepted, aborts] at refuses
    exact Bool.false_ne_true refuses
  · intro uncontested others perm
    constructor
    · intro verifies
      exact verifies.perm perm.symm fun contested => uncontested (contested_perm perm contested)
    · exact Verifies.perm perm uncontested

end

/-- A library that parses one certificate alone and accepts every path. -/
def soleCertificate : Crypto Unit where
  sha256 _ := []
  sha512 _ := []
  fromDer der := if der = shortCertificate then some () else none
  validatePrivateChain _ _ _ _ _ _ _ := true

/-- The full certificate as a trust anchor. -/
def anchorRecord : Tlsa :=
  ⟨2, 0, 0, shortCertificate⟩

/-- A trust anchor that is no certificate. -/
def brokenRecord : Tlsa :=
  ⟨2, 0, 0, [1]⟩

/-- The order of two records decides. -/
theorem record_order_decides :
    ¬ ∀ (records others : List Tlsa), others.Perm records →
      (Verifies soleCertificate .default [shortCertificate] [97] 0 others ↔
        Verifies soleCertificate .default [shortCertificate] [97] 0 records) := by
  intro agree
  have verifies : Verifies soleCertificate .default [shortCertificate] [97] 0
      [anchorRecord, brokenRecord] :=
    ⟨⟨0, .daneTa, .fullCertificate, .exact⟩, rfl⟩
  have fails : verifyDaneChain soleCertificate .default [shortCertificate] [97]
      [brokenRecord, anchorRecord] 0 = .error .malformedCertificate := by
    rfl
  rcases (agree _ _ (.swap anchorRecord brokenRecord [])).mpr verifies with ⟨found, verified⟩
  rw [fails] at verified
  cases verified

end HnsDaneEngine.Dane
