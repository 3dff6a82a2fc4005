import HnsDaneEngine.Browser.Dns.Name
import HnsDaneEngine.Wire.CompressedName

/-!
# What a message spells

Labels and pointers from an offset of a message on spell at most one name.  `parse_wire` reads
it when it leads through few enough pointers and is short enough to be a name.
-/

namespace HnsDaneEngine.Browser

open Buffer Wire

variable {octets : Octets} {cursor jumps : Nat} {labels : List Label}

/-- The labels that are spelled from a position on, and the pointers on the way. -/
inductive Spells (octets : Octets) : Nat → List Label → Nat → Prop
  | root {cursor : Nat} (read : readWireItem octets cursor = .ok .root) : Spells octets cursor [] 0
  | label {cursor jumps : Nat} {bytes : Label} {labels : List Label}
      (read : readWireItem octets cursor = .ok (.label bytes))
      (later : Spells octets (cursor + 1 + bytes.length) labels jumps) :
      Spells octets cursor (canonicalLabel bytes :: labels) jumps
  | pointer {cursor target jumps : Nat} {labels : List Label}
      (read : readWireItem octets cursor = .ok (.pointer target))
      (later : Spells octets target labels jumps) : Spells octets cursor labels (jumps + 1)

theorem Spells.unique {others : List Label} {otherJumps : Nat}
    (spells : Spells octets cursor labels jumps)
    (otherSpells : Spells octets cursor others otherJumps) :
    labels = others ∧ jumps = otherJumps := by
  induction spells generalizing others otherJumps with
  | root read =>
    cases otherSpells with
    | root => exact ⟨rfl, rfl⟩
    | label otherRead => cases read.symm.trans otherRead
    | pointer otherRead => cases read.symm.trans otherRead
  | label read later ih =>
    cases otherSpells with
    | root otherRead => cases read.symm.trans otherRead
    | label otherRead otherLater =>
      cases read.symm.trans otherRead
      rcases ih otherLater with ⟨rfl, rfl⟩
      exact ⟨rfl, rfl⟩
    | pointer otherRead => cases read.symm.trans otherRead
  | pointer read later ih =>
    cases otherSpells with
    | root otherRead => cases read.symm.trans otherRead
    | label otherRead => cases read.symm.trans otherRead
    | pointer otherRead otherLater =>
      cases read.symm.trans otherRead
      rcases ih otherLater with ⟨rfl, rfl⟩
      exact ⟨rfl, rfl⟩

theorem spells_of_parseWireFrom {rounds stop : Nat} {before parsed : List Label}
    {consumed : Option Nat} (followed : jumps ≤ maxPointerJumps)
    (accepted : parseWireFrom octets rounds cursor before consumed jumps = .ok (parsed, stop)) :
    ∃ labels further, Spells octets cursor labels further ∧ parsed = before ++ labels ∧
      jumps + further ≤ maxPointerJumps := by
  induction rounds generalizing cursor before consumed jumps with
  | zero => cases accepted
  | succ rounds ih =>
    rcases parseWireFrom_eq_ok accepted with
      ⟨read, rfl, -⟩ | ⟨bytes, read, -, later⟩ | ⟨target, read, few, later⟩
    · exact ⟨[], 0, .root read, (List.append_nil _).symm, followed⟩
    · rcases ih followed later with ⟨labels, further, spells, rfl, bounded⟩
      exact ⟨canonicalLabel bytes :: labels, further, .label read spells,
        List.append_assoc _ _ _, bounded⟩
    · rcases ih few later with ⟨labels, further, spells, parsed_eq, bounded⟩
      refine ⟨labels, further + 1, .pointer read spells, parsed_eq, ?_⟩
      omega

/-- A round for every label and every pointer, and one for the root. -/
theorem parseWireFrom_of_spells {before : List Label} {consumed : Option Nat} {further rounds : Nat}
    (spells : Spells octets cursor labels further) (enough : labels.length + further < rounds)
    (followed : jumps + further ≤ maxPointerJumps)
    (short : labelOctets (before ++ labels) ≤ maxDnsNameLen + 1) :
    ∃ stop, parseWireFrom octets rounds cursor before consumed jumps =
      .ok (before ++ labels, stop) := by
  induction spells generalizing before consumed jumps rounds with
  | root read =>
    cases rounds with
    | zero => cases enough
    | succ rounds =>
      rw [parseWireFrom, read, List.append_nil]
      exact ⟨_, rfl⟩
  | @label cursor further bytes labels read later ih =>
    cases rounds with
    | zero => cases enough
    | succ rounds =>
      have shorter : labelOctets ((before ++ [canonicalLabel bytes]) ++ labels) ≤
          maxDnsNameLen + 1 := by
        rwa [List.append_assoc]
      have front : labelOctets (before ++ [canonicalLabel bytes]) ≤ maxDnsNameLen + 1 := by
        rw [labelOctets_append] at shorter
        exact Nat.le_trans (Nat.le_add_right _ _) shorter
      have laterEnough : labels.length + further < rounds := by
        rw [List.length_cons] at enough
        omega
      rcases ih laterEnough followed shorter with ⟨stop, accepted⟩
      rw [List.append_assoc] at accepted
      refine ⟨stop, ?_⟩
      rw [parseWireFrom, read]
      exact (if_neg (Nat.not_lt.mpr front)).trans accepted
  | @pointer cursor target further labels read later ih =>
    cases rounds with
    | zero => cases enough
    | succ rounds =>
      have laterEnough : labels.length + further < rounds := by omega
      have laterFollowed : jumps + 1 + further ≤ maxPointerJumps := by omega
      rcases ih laterEnough laterFollowed short with ⟨stop, accepted⟩
      refine ⟨stop, ?_⟩
      rw [parseWireFrom, read]
      exact (if_neg (by omega)).trans accepted

/-- A label takes at least two octets. -/
theorem length_le_labelOctets (nonempty : ∀ label ∈ labels, label ≠ []) :
    2 * labels.length ≤ labelOctets labels := by
  induction labels with
  | nil => exact Nat.zero_le _
  | cons label labels ih =>
    rw [List.forall_mem_cons] at nonempty
    have positive := List.length_pos_iff.mpr nonempty.1
    have rest := ih nonempty.2
    rw [← List.singleton_append, labelOctets_append, labelOctets_singleton, List.length_append,
      List.length_singleton]
    omega

/-- `parse_wire` reads a name where it is spelled with few enough pointers. -/
theorem parseWire_eq_ok_iff {name : DnsName} :
    (∃ stop, DnsName.parseWire octets cursor = .ok (name, stop)) ↔
      ∃ further, Spells octets cursor name.labels further ∧ further ≤ maxPointerJumps := by
  constructor
  · rintro ⟨stop, parsed⟩
    rcases spells_of_parseWireFrom (Nat.zero_le _) (DnsName.parseWire_eq_ok.mp parsed) with
      ⟨labels, further, spells, labels_eq, bounded⟩
    rw [List.nil_append] at labels_eq
    rw [Nat.zero_add] at bounded
    exact ⟨further, labels_eq ▸ spells, bounded⟩
  · rintro ⟨further, spells, bounded⟩
    have short : labelOctets ([] ++ name.labels) ≤ maxDnsNameLen + 1 := by
      have wireLen_le := name.valid.wireLen_le
      rw [wireLen_eq_labelOctets] at wireLen_le
      exact Nat.le_of_succ_le_succ wireLen_le
    have counted := length_le_labelOctets name.valid.nonempty
    have enough : name.labels.length + further < maxWireRounds := by
      rw [maxDnsNameLen] at short
      rw [maxPointerJumps] at bounded
      rw [maxWireRounds, maxDnsNameLen, maxPointerJumps]
      rw [List.nil_append] at short
      omega
    rcases parseWireFrom_of_spells spells enough (by rwa [Nat.zero_add]) short with
      ⟨stop, accepted⟩
    exact ⟨stop, DnsName.parseWire_eq_ok.mpr accepted⟩

section

variable {before parsed : List Label} {consumed : Option Nat} {followed rounds stop last : Nat}

/-- Where `decode_name` spells labels, `parse_wire` reads no others, and stops there too. -/
theorem parseWireFrom_of_decoded (spells : Wire.Spells octets cursor labels jumps stop)
    (accepted : parseWireFrom octets rounds cursor before consumed followed = .ok (parsed, last)) :
    parsed = before ++ labels ∧ last = consumed.getD stop := by
  induction rounds generalizing cursor labels jumps before consumed followed stop with
  | zero => cases accepted
  | succ rounds ih =>
    rcases parseWireFrom_eq_ok accepted with
      ⟨read, rfl, rfl⟩ | ⟨bytes, read, -, goesOn⟩ | ⟨target, read, -, goesOn⟩
    · have same := (readWireItem_eq_ok_iff.mp read).getElem?
      cases spells with
      | root => exact ⟨(List.append_nil _).symm, rfl⟩
      | label found _ nonzero => exact absurd (Option.some.inj (found.symm.trans same)) nonzero
      | pointer found marked =>
        cases found.symm.trans same
        cases marked
    · rcases readWireItem_eq_ok_iff.mp read with ⟨occurs, nonempty, bounded, -⟩
      have same := occurs.getElem?
      have plain := lengthOctet_high bytes.length (Nat.lt_succ_of_le bounded)
      cases spells with
      | root zero =>
        cases ofNat_label_ne_zero nonempty bounded (Option.some.inj (same.symm.trans zero))
      | label found _ _ otherOccurs length_eq later =>
        cases found.symm.trans same
        rw [toNat_ofNat_label bounded] at length_eq later
        have take_drop := otherOccurs.take_drop
        rw [length_eq, (occurs_cons_iff.mp occurs).2.take_drop] at take_drop
        rcases ih later goesOn with ⟨rfl, rfl⟩
        exact ⟨take_drop ▸ List.append_assoc _ _ _, rfl⟩
      | pointer found marked =>
        cases found.symm.trans same
        cases plain.symm.trans marked
    · rcases readWireItem_eq_ok_iff.mp read with ⟨high, low, occurs, marked, rfl, -⟩
      have same := occurs.getElem?
      cases spells with
      | root zero =>
        cases zero.symm.trans same
        cases marked
      | label found plain =>
        cases found.symm.trans same
        cases plain.symm.trans marked
      | pointer found _ low_eq _ later =>
        cases found.symm.trans same
        cases low_eq.symm.trans (occurs_cons_iff.mp occurs).2.getElem?
        rcases ih later goesOn with ⟨rfl, rfl⟩
        exact ⟨rfl, by cases consumed <;> rfl⟩

end

/-- Where both decoders accept, they read the same name and stop at the same octet. -/
theorem decodeName_agrees_parseWire (message : Octets) (offset contiguousEnd : Nat)
    (limits : ParseLimits) (name : Name) (dnsName : DnsName) (next stop : Nat)
    (decoded : decodeName message offset contiguousEnd limits = .ok (name, next))
    (parsed : DnsName.parseWire message offset = .ok (dnsName, stop)) :
    dnsName.labels = name.labels ∧ stop = next := by
  rcases spells_decodeName decoded with ⟨jumps, spells, -⟩
  exact parseWireFrom_of_decoded spells (DnsName.parseWire_eq_ok.mp parsed)

/-- A label that a pointer to an earlier name continues. -/
theorem decodeName_agrees_parseWire_pointer :
    let message : Octets := [3, 99, 79, 109, 0, 1, 65, 0xc0, 0]
    ∃ name dnsName stop, decodeName message 5 9 .browser = .ok (name, 9) ∧
      DnsName.parseWire message 5 = .ok (dnsName, stop) ∧
        dnsName.labels = name.labels ∧ stop = 9 := by
  intro message
  exact ⟨⟨[[97], [99, 111, 109]], by decide⟩, ⟨[[97], [99, 111, 109]], by decide⟩, 9, rfl, rfl,
    decodeName_agrees_parseWire message 5 9 .browser _ _ _ _ rfl rfl⟩

end HnsDaneEngine.Browser
