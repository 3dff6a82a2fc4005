import HnsDaneEngine.Dnssec.Keys

/-!
# Chains of authenticated keysets

A chain authenticates one keyset from trusted DS records and then any number of
child keysets, each from the one before it.  Two questions are settled for all
chains: when the zones descend, and how long the evidence at the end lasts.
-/

namespace HnsDaneEngine.Dnssec

open Wire

/-- The arguments of `authenticate_dnskeys`. -/
structure RootStep where
  zone : Name
  trustedDs : List ResourceRecord
  dnskeys : SignedRrset
  validationTime : UInt32
  limits : DnssecLimits

/-- The arguments of `authenticate_child_dnskeys` besides the parent keyset. -/
structure ChildStep where
  childZone : Name
  childDs : SignedRrset
  childDnskeys : SignedRrset
  validationTime : UInt32
  limits : DnssecLimits

section

variable (openssl : OpenSsl)

def RootStep.authenticate (root : RootStep) : Except DnssecError AuthenticatedDnskeys :=
  authenticateDnskeys openssl root.zone root.trustedDs root.dnskeys.records
    root.dnskeys.signatures root.validationTime root.limits

def ChildStep.authenticate (step : ChildStep) (parent : AuthenticatedDnskeys) :
    Except DnssecError AuthenticatedDnskeys :=
  authenticateChildDnskeys openssl parent step.childZone step.childDs step.childDnskeys
    step.validationTime step.limits

/-- The keysets that child steps authenticate, from the parent down. -/
def extendChain : AuthenticatedDnskeys → List ChildStep →
    Except DnssecError (List AuthenticatedDnskeys)
  | _, [] => .ok []
  | parent, step :: rest =>
    match step.authenticate openssl parent with
    | .error error => .error error
    | .ok child =>
      match extendChain child rest with
      | .error error => .error error
      | .ok children => .ok (child :: children)

/-- All keysets of a chain whose steps succeed. -/
def authenticateChain (root : RootStep) (steps : List ChildStep) :
    Except DnssecError (List AuthenticatedDnskeys) :=
  match root.authenticate openssl with
  | .error error => .error error
  | .ok keys =>
    match extendChain openssl keys steps with
    | .error error => .error error
    | .ok children => .ok (keys :: children)

variable {openssl}
variable {root : RootStep} {step : ChildStep} {steps : List ChildStep}
  {parent child : AuthenticatedDnskeys} {children keysets : List AuthenticatedDnskeys}

theorem extendChain_cons_eq_ok
    (extended : extendChain openssl parent (step :: steps) = .ok children) :
    ∃ child rest, step.authenticate openssl parent = .ok child ∧
      extendChain openssl child steps = .ok rest ∧ children = child :: rest := by
  rw [extendChain] at extended
  split at extended
  · cases extended
  next child child_eq =>
    split at extended
    · cases extended
    next rest rest_eq =>
      exact ⟨child, rest, child_eq, rest_eq, (Except.ok.inj extended).symm⟩

theorem authenticateChain_eq_ok (ran : authenticateChain openssl root steps = .ok keysets) :
    ∃ keys children, root.authenticate openssl = .ok keys ∧
      extendChain openssl keys steps = .ok children ∧ keysets = keys :: children := by
  unfold authenticateChain at ran
  split at ran
  · cases ran
  next keys keys_eq =>
    split at ran
    · cases ran
    next children children_eq =>
      exact ⟨keys, children, keys_eq, children_eq, (Except.ok.inj ran).symm⟩

def StrictlyBelow (name zone : Name) : Prop :=
  zone.labels <:+ name.labels ∧ name ≠ zone

instance (name zone : Name) : Decidable (StrictlyBelow name zone) :=
  inferInstanceAs (Decidable (_ ∧ _))

/-- Every signature over the child's DS RRset that passes the checks under the
parent's keys names a signer strictly above the owner of the RRset. -/
def SignersAbove (openssl : OpenSsl) (parent : AuthenticatedDnskeys) (step : ChildStep) :
    Prop :=
  ∀ first, step.childDs.records.head? = some first →
    ∀ record ∈ step.childDs.signatures, ∀ signature,
      rrsigFor record first.name first.recordType = some signature →
      signatureVerifies (verifySignature openssl) first step.childDs.records parent.records
        step.validationTime step.limits record = true →
      StrictlyBelow first.name signature.signer

/-- One step descends exactly when the signers are above: every signature that the
parent's keys verify is the parent zone's, and the child is the owner of the DS
RRset. -/
theorem child_below_iff (owned : parent.Owned)
    (authenticated : step.authenticate openssl parent = .ok child) :
    StrictlyBelow child.zone parent.zone ↔ SignersAbove openssl parent step := by
  have zone_eq := (owned_of_authenticateChildDnskeys authenticated).2
  obtain ⟨verified, keyset, verified_eq, owner_eq, -, -, -⟩ :=
    authenticateChildDnskeys_eq_ok authenticated
  obtain ⟨-, plain, plain_eq, rfl⟩ := verifyRrsetWithKeys_eq_ok verified_eq
  obtain ⟨first, head_eq, -, record, signature, found, covers, rfl⟩ :=
    verifyRrsetBy_eq_ok plain_eq
  have first_eq : first.name = child.zone := owner_eq.trans zone_eq.symm
  constructor
  · intro below other other_eq otherRecord _ otherSignature otherCovers otherVerifies
    obtain rfl := Option.some.inj (head_eq.symm.trans other_eq)
    rw [signer_eq_zone owned otherVerifies otherCovers, first_eq]
    exact below
  · intro above
    have signer_above := above first head_eq record (List.mem_of_find?_eq_some found) signature
      covers (List.find?_some found)
    rwa [signer_eq_zone owned (List.find?_some found) covers, first_eq] at signer_above

theorem extendChain_descends_iff (owned : parent.Owned)
    (extended : extendChain openssl parent steps = .ok children) :
    (parent :: children).IsChain (fun upper lower => StrictlyBelow lower.zone upper.zone) ↔
      ∀ pair ∈ (parent :: children).zip steps, SignersAbove openssl pair.1 pair.2 := by
  induction steps generalizing parent children with
  | nil =>
    obtain rfl := Except.ok.inj extended
    simp
  | cons step steps ih =>
    obtain ⟨child, rest, child_eq, rest_eq, rfl⟩ := extendChain_cons_eq_ok extended
    rw [List.isChain_cons_cons, List.zip_cons_cons, List.forall_mem_cons,
      child_below_iff owned child_eq,
      ih (owned_of_authenticateChildDnskeys child_eq).1 rest_eq]

/-- Along a chain every zone is strictly below the zone that authenticated it
exactly when, at every step, all verifying signatures over the child's DS RRset
come from strictly above its owner.  Nothing in the code checks the latter. -/
theorem chain_descends_iff (ran : authenticateChain openssl root steps = .ok keysets) :
    keysets.IsChain (fun upper lower => StrictlyBelow lower.zone upper.zone) ↔
      ∀ pair ∈ keysets.zip steps, SignersAbove openssl pair.1 pair.2 := by
  obtain ⟨keys, children, keys_eq, children_eq, rfl⟩ := authenticateChain_eq_ok ran
  exact extendChain_descends_iff (owned_of_authenticateDnskeys keys_eq).1 children_eq

/-- At the given time the DS records of a keyset have not run out, nor have its
DNSKEY records and the signature of the delegated key over them. -/
def KeysetOutlasted (openssl : OpenSsl) (zone : Name) (dsRecords : List ResourceRecord)
    (dnskeys : SignedRrset) (validationTime : UInt32) (limits : DnssecLimits) (now : Nat) :
    Prop :=
  (∀ record ∈ dsRecords, now < validationTime.toNat + record.ttl.toNat) ∧
    ∃ keyRecord ∈ dnskeys.records, ∃ key expiration, dnskeyFor keyRecord zone = some key ∧
      Outlasted openssl [keyRecord] dnskeys.records
        (keySignatures zone key dnskeys.signatures) validationTime limits expiration now

variable {records : List ResourceRecord} {validationTime : UInt32} {now : Nat}
  {limits : DnssecLimits} {keys : AuthenticatedDnskeys} {verified : VerifiedRrset}

theorem lt_of_lt_recordsExpireAt (current : now < recordsExpireAt records validationTime) :
    ∀ record ∈ records, now < validationTime.toNat + record.ttl.toNat := by
  intro record recordMem
  have ttl_le := minimumTtl_le (List.mem_map_of_mem (f := ResourceRecord.ttl) recordMem)
  exact current.trans_le (Nat.add_le_add_left ttl_le _)

theorem keysetOutlasted_of_authenticateDnskeys {zone : Name} {trustedDs : List ResourceRecord}
    {dnskeys : SignedRrset}
    (accepted : authenticateDnskeys openssl zone trustedDs dnskeys.records dnskeys.signatures
      validationTime limits = .ok keys) (started : validationTime.toNat ≤ now)
    (current : now < keys.expiresAtUnix) :
    KeysetOutlasted openssl zone trustedDs dnskeys validationTime limits now := by
  obtain ⟨keyRecord, keyRecordMem, key, verified, found, verified_eq, rfl⟩ :=
    authenticateDnskeys_eq_ok accepted
  obtain ⟨verified_current, ds_current⟩ := lt_min_iff.mp current
  exact ⟨lt_of_lt_recordsExpireAt ds_current, keyRecord, keyRecordMem, key, _, found,
    outlasted_of_verifyRrset verified_eq started verified_current⟩

theorem AuthenticatedDnskeys.isFreshAt_iff :
    keys.isFreshAt now = true ↔ keys.observedAtUnix ≤ now ∧ now < keys.expiresAtUnix := by
  simp [AuthenticatedDnskeys.isFreshAt]

theorem VerifiedRrset.isFreshAt_iff :
    verified.isFreshAt now = true ↔
      verified.observedAtUnix ≤ now ∧ now < verified.expiresAtUnix := by
  simp [VerifiedRrset.isFreshAt]

/-- Evidence that is fresh was given by keys that are fresh, and its inputs last. -/
theorem fresh_of_verifyRrsetWithKeys {signatures : List ResourceRecord}
    (accepted : verifyRrsetWithKeys openssl keys records signatures validationTime limits =
      .ok verified) (started : validationTime.toNat ≤ now)
    (current : now < verified.expiresAtUnix) :
    keys.isFreshAt now = true ∧
      Outlasted openssl keys.records records signatures validationTime limits
        verified.expiration now := by
  obtain ⟨keys_fresh, plain, plain_eq, rfl⟩ := verifyRrsetWithKeys_eq_ok accepted
  obtain ⟨plain_current, keys_current⟩ := lt_min_iff.mp current
  have keys_observed := (AuthenticatedDnskeys.isFreshAt_iff.mp keys_fresh).1
  have outlasted := outlasted_of_verifyRrset plain_eq started plain_current
  exact ⟨AuthenticatedDnskeys.isFreshAt_iff.mpr ⟨keys_observed.trans started, keys_current⟩,
    outlasted⟩

/-- All records and signatures that one child step used last at the given time. -/
def StepOutlasted (openssl : OpenSsl) (parent : AuthenticatedDnskeys) (step : ChildStep)
    (now : Nat) : Prop :=
  (∃ expiration, Outlasted openssl parent.records step.childDs.records step.childDs.signatures
      step.validationTime step.limits expiration now) ∧
    KeysetOutlasted openssl step.childZone step.childDs.records step.childDnskeys
      step.validationTime step.limits now

theorem fresh_of_child (authenticated : step.authenticate openssl parent = .ok child)
    (fresh : child.isFreshAt now = true) :
    parent.isFreshAt now = true ∧ StepOutlasted openssl parent step now := by
  obtain ⟨verified, keyset, verified_eq, -, -, keyset_eq, rfl⟩ :=
    authenticateChildDnskeys_eq_ok authenticated
  obtain ⟨observed_le, current⟩ := AuthenticatedDnskeys.isFreshAt_iff.mp fresh
  have keyset_observed : keyset.observedAtUnix = step.validationTime.toNat := by
    obtain ⟨keyRecord, -, key, plain, -, -, rfl⟩ := authenticateDnskeys_eq_ok keyset_eq
    rfl
  have started : step.validationTime.toNat ≤ now := by
    rw [← keyset_observed]
    exact (le_max_left _ _).trans ((le_max_left _ _).trans observed_le)
  obtain ⟨keyset_current, verified_current⟩ := lt_min_iff.mp current
  obtain ⟨keyset_current, -⟩ := lt_min_iff.mp keyset_current
  obtain ⟨parent_fresh, ds_outlasted⟩ :=
    fresh_of_verifyRrsetWithKeys verified_eq started verified_current
  exact ⟨parent_fresh, ⟨_, ds_outlasted⟩,
    keysetOutlasted_of_authenticateDnskeys keyset_eq started keyset_current⟩

/-- A keyset at the end of a chain that is fresh keeps all keysets above it fresh. -/
theorem fresh_of_extendChain (extended : extendChain openssl parent steps = .ok children)
    {last : AuthenticatedDnskeys} (last_eq : (parent :: children).getLast? = some last)
    (fresh : last.isFreshAt now = true) :
    (∀ keyset ∈ parent :: children, keyset.isFreshAt now = true) ∧
      ∀ pair ∈ (parent :: children).zip steps, StepOutlasted openssl pair.1 pair.2 now := by
  induction steps generalizing parent children with
  | nil =>
    obtain rfl := Except.ok.inj extended
    obtain rfl : parent = last := by simpa using last_eq
    simpa using fresh
  | cons step steps ih =>
    obtain ⟨child, rest, child_eq, rest_eq, rfl⟩ := extendChain_cons_eq_ok extended
    rw [List.getLast?_cons_cons] at last_eq
    obtain ⟨keysets_fresh, outlasted⟩ := ih rest_eq last_eq
    obtain ⟨parent_fresh, step_outlasted⟩ :=
      fresh_of_child child_eq (keysets_fresh child List.mem_cons_self)
    rw [List.zip_cons_cons]
    exact ⟨List.forall_mem_cons.mpr ⟨parent_fresh, keysets_fresh⟩,
      List.forall_mem_cons.mpr ⟨step_outlasted, outlasted⟩⟩

/-- Evidence at the end of a chain that is fresh at some time is younger then than
every TTL it rests on and than every keyset's deadline, and no accepted signature
has expired in serial arithmetic. -/
theorem evidence_within_inputs (ran : authenticateChain openssl root steps = .ok keysets)
    {keys : AuthenticatedDnskeys} (last_eq : keysets.getLast? = some keys)
    {records signatures : List ResourceRecord} {validationTime : UInt32} {limits : DnssecLimits}
    {verified : VerifiedRrset}
    (accepted : verifyRrsetWithKeys openssl keys records signatures validationTime limits =
      .ok verified) {now : Nat} (fresh : verified.isFreshAt now = true) :
    Outlasted openssl keys.records records signatures validationTime limits verified.expiration
        now ∧
      (∀ keyset ∈ keysets, now < keyset.expiresAtUnix) ∧
      KeysetOutlasted openssl root.zone root.trustedDs root.dnskeys root.validationTime
        root.limits now ∧
      ∀ pair ∈ keysets.zip steps, StepOutlasted openssl pair.1 pair.2 now := by
  obtain ⟨observed_le, current⟩ := VerifiedRrset.isFreshAt_iff.mp fresh
  have started : validationTime.toNat ≤ now := by
    obtain ⟨-, plain, plain_eq, rfl⟩ := verifyRrsetWithKeys_eq_ok accepted
    obtain ⟨first, -, -, record, signature, -, -, rfl⟩ := verifyRrsetBy_eq_ok plain_eq
    exact observed_le
  obtain ⟨keys_fresh, outlasted⟩ := fresh_of_verifyRrsetWithKeys accepted started current
  obtain ⟨first, children, first_eq, children_eq, rfl⟩ := authenticateChain_eq_ok ran
  obtain ⟨keysets_fresh, steps_outlasted⟩ :=
    fresh_of_extendChain children_eq last_eq keys_fresh
  have first_fresh := AuthenticatedDnskeys.isFreshAt_iff.mp (keysets_fresh first List.mem_cons_self)
  have first_observed : first.observedAtUnix = root.validationTime.toNat := by
    obtain ⟨keyRecord, -, key, plain, -, -, rfl⟩ := authenticateDnskeys_eq_ok first_eq
    rfl
  refine ⟨outlasted, ?_, ?_, steps_outlasted⟩
  · intro keyset keysetMem
    exact (AuthenticatedDnskeys.isFreshAt_iff.mp (keysets_fresh keyset keysetMem)).2
  · exact keysetOutlasted_of_authenticateDnskeys first_eq
      (first_observed.ge.trans first_fresh.1) first_fresh.2

end

namespace ExampleChain

def exampleLabels : List Label :=
  [[101, 120, 97, 109, 112, 108, 101]]

/-- `example.` -/
def apex : Name :=
  ⟨exampleLabels, by decide⟩

/-- `sub.example.` -/
def sub : Name :=
  ⟨[115, 117, 98] :: exampleLabels, by decide⟩

/-- `other.` -/
def other : Name :=
  ⟨[[111, 116, 104, 101, 114]], by decide⟩

def key : Dnskey where
  flags := 257
  protocol := 3
  algorithm := 15
  publicKey :=
    [3, 161, 7, 191, 243, 206, 16, 190, 29, 112, 221, 24, 231, 75, 192, 153, 103, 228, 214, 48,
      155, 165, 13, 95, 29, 220, 134, 100, 18, 85, 49, 184]

/-- A zone with the SHA-256 digest of its key. -/
structure Zone where
  name : Name
  digest : Octets

namespace Zone

def ds (zone : Zone) : ResourceRecord :=
  ⟨zone.name, .ds, 1, 300, .ds ⟨34259, 15, 2, zone.digest⟩⟩

def dnskey (zone : Zone) : ResourceRecord :=
  ⟨zone.name, .dnskey, 1, 300, .dnskey key⟩

end Zone

def apexZone : Zone where
  name := apex
  digest :=
    [50, 220, 30, 28, 253, 80, 33, 50, 142, 170, 106, 222, 31, 236, 64, 80, 116, 34, 169, 162,
      196, 202, 144, 67, 181, 13, 210, 250, 106, 131, 34, 14]

def subZone : Zone where
  name := sub
  digest :=
    [108, 87, 43, 19, 253, 137, 117, 27, 159, 69, 170, 73, 188, 82, 181, 150, 111, 244, 92, 51,
      121, 31, 248, 199, 249, 176, 77, 99, 151, 178, 6, 87]

def otherZone : Zone where
  name := other
  digest :=
    [251, 238, 164, 100, 43, 216, 133, 88, 166, 102, 75, 159, 8, 199, 77, 65, 88, 225, 196, 176,
      63, 194, 105, 153, 117, 235, 144, 16, 113, 95, 73, 200]

/-- A record that is signed alone by the key of a zone. -/
structure Signed where
  record : ResourceRecord
  signer : Name
  signature : Octets

namespace Signed

/-- The signature data, valid from 1700000000 to 2000000000. -/
def rrsig (signed : Signed) : Rrsig where
  typeCovered := signed.record.recordType
  algorithm := 15
  labels := UInt8.ofNat signed.record.name.labels.length
  originalTtl := 300
  expiration := 2000000000
  inception := 1700000000
  keyTag := 34259
  signer := signed.signer
  signature := signed.signature

def rrset (signed : Signed) : SignedRrset where
  records := [signed.record]
  signatures := [⟨signed.record.name, .rrsig, 1, 300, .rrsig signed.rrsig⟩]

/-- The octets under the signature. -/
def octets (signed : Signed) : Octets :=
  rrsigFields signed.rrsig ++ wireOf signed.signer.labels ++ wireOf signed.record.name.labels ++
    writeU16 signed.record.recordType.code ++ writeU16 1 ++ writeU32 300 ++
    Frame.u16 (rdataOf signed.record).length ++ rdataOf signed.record

end Signed

def apexDnskey : Signed where
  record := apexZone.dnskey
  signer := apex
  signature :=
    [73, 253, 73, 179, 149, 5, 36, 170, 41, 6, 72, 20, 118, 153, 86, 81, 163, 128, 168, 199, 135,
      208, 60, 174, 169, 43, 202, 135, 10, 239, 92, 117, 171, 21, 225, 19, 91, 181, 250, 208, 250,
      245, 132, 54, 167, 71, 47, 104, 137, 241, 133, 199, 214, 8, 3, 176, 208, 254, 250, 86, 214,
      62, 234, 8]

/-- The DS record of the child, signed by its parent. -/
def subDs : Signed where
  record := subZone.ds
  signer := apex
  signature :=
    [185, 158, 64, 217, 134, 133, 240, 239, 131, 74, 29, 168, 118, 163, 192, 171, 237, 64, 160,
      119, 1, 225, 210, 193, 130, 11, 80, 217, 224, 237, 203, 140, 249, 28, 145, 235, 194, 5, 104,
      42, 74, 44, 186, 72, 150, 136, 58, 4, 124, 205, 227, 196, 163, 165, 199, 50, 145, 0, 150,
      151, 78, 79, 20, 7]

def subDnskey : Signed where
  record := subZone.dnskey
  signer := sub
  signature :=
    [130, 36, 233, 95, 77, 109, 205, 195, 78, 52, 121, 7, 85, 229, 154, 209, 225, 99, 208, 164,
      228, 197, 75, 28, 23, 128, 158, 220, 40, 23, 115, 204, 185, 22, 70, 91, 122, 15, 195, 216,
      206, 150, 43, 23, 197, 146, 19, 166, 181, 30, 152, 144, 236, 4, 144, 111, 73, 122, 196, 201,
      221, 250, 37, 13]

/-- The DS record of a zone elsewhere, signed by the same parent. -/
def otherDs : Signed where
  record := otherZone.ds
  signer := apex
  signature :=
    [42, 154, 59, 67, 120, 224, 55, 223, 155, 175, 255, 136, 63, 73, 133, 39, 27, 226, 225, 185,
      93, 140, 188, 2, 102, 4, 155, 50, 241, 72, 173, 31, 72, 196, 239, 164, 138, 250, 102, 238,
      172, 127, 167, 52, 186, 14, 65, 21, 220, 194, 138, 88, 207, 63, 248, 204, 245, 178, 163,
      106, 44, 69, 165, 10]

def otherDnskey : Signed where
  record := otherZone.dnskey
  signer := other
  signature :=
    [37, 163, 66, 237, 163, 159, 168, 63, 10, 143, 98, 6, 4, 54, 68, 153, 160, 187, 106, 133, 253,
      238, 215, 222, 142, 117, 92, 149, 197, 23, 158, 179, 87, 21, 66, 1, 83, 6, 55, 207, 164, 1,
      110, 212, 133, 151, 16, 113, 229, 225, 156, 244, 147, 191, 144, 43, 224, 250, 113, 25, 51,
      214, 168, 7]

/-- A library with the digests and the signatures of these zones; the other
algorithms do not occur. -/
def openssl : OpenSsl where
  hash digest data :=
    if digest = .sha256 then
      (([apexZone, subZone, otherZone].find? fun zone =>
        data == wireOf zone.name.labels ++ encodeDnskey key).map Zone.digest).or
          (some (List.replicate 32 0))
    else none
  verifyRsa _ _ _ _ _ := false
  verifyEcdsa _ _ _ _ _ := false
  verifyEd25519 publicKey data signature :=
    publicKey == key.publicKey &&
      [apexDnskey, subDs, subDnskey, otherDs, otherDnskey].any fun signed =>
        signed.octets == data && signed.signature == signature
  verifyEd448 _ _ _ := false

def root : RootStep where
  zone := apex
  trustedDs := [apexZone.ds]
  dnskeys := apexDnskey.rrset
  validationTime := 1800000000
  limits := DnssecLimits.default

/-- Authentication of a zone from its signed DS and DNSKEY records. -/
def stepTo (zone : Zone) (ds dnskey : Signed) : ChildStep where
  childZone := zone.name
  childDs := ds.rrset
  childDnskeys := dnskey.rrset
  validationTime := 1800000100
  limits := DnssecLimits.default

/-- The keyset of a zone observed at the given time. -/
def keyset (zone : Zone) (observedAt : Nat) : AuthenticatedDnskeys where
  zone := zone.name
  records := [zone.dnskey]
  delegationKeyTag := 34259
  delegationAlgorithm := 15
  observedAtUnix := observedAt
  expiresAtUnix := 1800000300

theorem chain_to_sub :
    authenticateChain openssl root [stepTo subZone subDs subDnskey] =
      .ok [keyset apexZone 1800000000, keyset subZone 1800000100] := by
  rfl

theorem chain_to_other :
    authenticateChain openssl root [stepTo otherZone otherDs otherDnskey] =
      .ok [keyset apexZone 1800000000, keyset otherZone 1800000100] := by
  rfl

/-- The keys of `example.` authenticate the keys of `other.`. -/
theorem chain_leaves_zone :
    ∃ root steps keysets, authenticateChain openssl root steps = .ok keysets ∧
      ¬ keysets.IsChain (fun upper lower => StrictlyBelow lower.zone upper.zone) :=
  ⟨root, _, _, chain_to_other, by
    rw [List.isChain_cons_cons]
    exact fun chain => absurd chain.1 (by decide)⟩

theorem chain_descends_to_sub :
    authenticateChain openssl root [stepTo subZone subDs subDnskey] =
        .ok [keyset apexZone 1800000000, keyset subZone 1800000100] ∧
      ([keyset apexZone 1800000000, keyset subZone 1800000100].IsChain
          (fun upper lower => StrictlyBelow lower.zone upper.zone) ↔
        ∀ pair ∈ [keyset apexZone 1800000000, keyset subZone 1800000100].zip
          [stepTo subZone subDs subDnskey], SignersAbove openssl pair.1 pair.2) :=
  ⟨chain_to_sub, chain_descends_iff chain_to_sub⟩

/-- Evidence from the keys of `sub.example.` at 1800000200, whose deadline is that of
the DS record at the start of the chain. -/
def evidence : VerifiedRrset where
  owner := sub
  recordType := .dnskey
  keyTag := 34259
  algorithm := 15
  inception := 1700000000
  expiration := 2000000000
  observedAtUnix := 1800000200
  expiresAtUnix := 1800000300

theorem verify_with_sub :
    verifyRrsetWithKeys openssl (keyset subZone 1800000100) subDnskey.rrset.records
      subDnskey.rrset.signatures 1800000200 DnssecLimits.default = .ok evidence := by
  rfl

theorem evidence_within_sub :
    evidence.isFreshAt 1800000299 = true ∧
      Outlasted openssl [subZone.dnskey] subDnskey.rrset.records subDnskey.rrset.signatures
        1800000200 DnssecLimits.default 2000000000 1800000299 ∧
      ∀ keys ∈ [keyset apexZone 1800000000, keyset subZone 1800000100],
        1800000299 < keys.expiresAtUnix :=
  have fresh : evidence.isFreshAt 1800000299 = true := by decide
  have within := evidence_within_inputs chain_to_sub rfl verify_with_sub fresh
  ⟨fresh, within.1, within.2.1⟩

end ExampleChain

end HnsDaneEngine.Dnssec
