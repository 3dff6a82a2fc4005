import HnsDaneEngine.PeerWire.RoundTrip

/-!
# Frames and chunks

Where the chunks of a stream fall is not visible in what a decoder delivers, as long as the
stream fits one buffer and no frame of it fails.  Otherwise it is: packets before a failing
frame are lost when they arrive together with it, and octets of a next frame count towards
the bound on a message.
-/

namespace HnsDaneEngine.PeerWire

open Incremental

/-- All cuts of a stream deliver the same packets and fail alike. -/
def ChunkingIndependent (magic : UInt32) (stream : Octets) : Prop :=
  ∀ first second, Cuts first stream → Cuts second stream →
    ((FrameDecoder.new magic).feedAll first).1 = ((FrameDecoder.new magic).feedAll second).1 ∧
      ((∃ error, ((FrameDecoder.new magic).feedAll first).2 = .error error) ↔
        ∃ error, ((FrameDecoder.new magic).feedAll second).2 = .error error)

/-- Every cut of a stream delivers exactly these packets and leaves the buffer empty. -/
def DeliveredByEveryCut (magic : UInt32) (stream : Octets) (packets : List Packet) : Prop :=
  ∀ chunks, Cuts chunks stream →
    (FrameDecoder.new magic).feedAll chunks = (packets, .ok (FrameDecoder.new magic))

/-- No frame of the stream fails, read one after another. -/
def NeverFails (magic : UInt32) (stream : Octets) : Prop :=
  ∀ packets error, ¬ Scans (decodeFrame magic) stream packets (.error error)

/-- The decoder of a connection is the incremental decoder of frames. -/
theorem FrameDecoder.feedAll_eq (magic : UInt32) (buffer : Octets) (chunks : List Octets) :
    FrameDecoder.feedAll ⟨buffer, magic⟩ chunks =
      let run := Incremental.feedAll (decodeFrame magic) (maxMessage + frameHeaderSize)
        .messageTooLarge buffer chunks
      (run.1, run.2.map fun rest => ⟨rest, magic⟩) := by
  induction chunks generalizing buffer with
  | nil => rfl
  | cons chunk chunks ih =>
    rw [feedAll, feed, Incremental.feedAll, Incremental.feed]
    by_cases exceeds : maxMessage + frameHeaderSize < buffer.length + chunk.length
    · rw [if_pos exceeds, if_pos exceeds]
      rfl
    · rw [if_neg exceeds, if_neg exceeds]
      dsimp only
      cases drain (decodeFrame magic) (buffer ++ chunk).length (buffer ++ chunk) with
      | error error => rfl
      | ok found => simp only [ih]

theorem FrameDecoder.run_of_new (magic : UInt32) (chunks : List Octets) :
    (FrameDecoder.new magic).feedAll chunks =
      let run := Incremental.feedAll (decodeFrame magic) (maxMessage + frameHeaderSize)
        .messageTooLarge [] chunks
      (run.1, run.2.map fun rest => ⟨rest, magic⟩) :=
  feedAll_eq magic [] chunks

theorem exists_map_eq_error_iff {ε α β : Type} {result : Except ε α} {change : α → β} :
    (∃ error, result.map change = .error error) ↔ ∃ error, result = .error error := by
  cases result with
  | error error => simp [Except.map]
  | ok value => simp [Except.map]

theorem chunkingIndependent_iff (magic : UInt32) (stream : Octets) :
    ChunkingIndependent magic stream ↔ (∃ error, decodeFrame magic stream = .error error) ∨
        (stream.length ≤ maxMessage + frameHeaderSize ∧ NeverFails magic stream) := by
  have agree := @cuts_agree_iff _ _ _ (maxMessage + frameHeaderSize) P2pError.messageTooLarge
    (decodeFrame_local magic) length_lt_of_decodeFrame_none stream
  rw [ChunkingIndependent, NeverFails, ← agree]
  simp only [FrameDecoder.run_of_new, exists_map_eq_error_iff]

variable {packets : List Packet} {frames : List Octets}

/-- The frames of packets are scanned to the packets. -/
theorem scans_encodeFrames {magic : UInt32}
    (representable : ∀ packet ∈ packets, packet.Representable)
    (encoded : List.Forall₂ (fun packet frame => encodeFrame magic packet = .ok frame) packets
      frames) :
    Scans (decodeFrame magic) frames.flatten packets (.ok []) := by
  induction encoded with
  | nil => exact .rest rfl
  | @cons packet frame packets frames first _ ih =>
    rw [List.forall_mem_cons] at representable
    rw [List.flatten_cons]
    refine .item (decodeFrame_encodeFrame representable.1 first _) ?_
    rw [List.drop_left]
    exact ih representable.2

theorem deliveredByEveryCut_iff {magic : UInt32}
    (representable : ∀ packet ∈ packets, packet.Representable)
    (encoded : List.Forall₂ (fun packet frame => encodeFrame magic packet = .ok frame) packets
      frames) :
    DeliveredByEveryCut magic frames.flatten packets ↔
      frames.flatten.length ≤ maxMessage + frameHeaderSize := by
  have scans := scans_encodeFrames representable encoded
  constructor
  · intro delivered
    by_contra exceeds
    have nonempty : frames.flatten ≠ [] := by
      intro empty
      rw [empty] at exceeds
      exact exceeds (Nat.zero_le _)
    have whole : Cuts [frames.flatten] frames.flatten :=
      ⟨List.flatten_singleton, fun chunk mem => List.mem_singleton.mp mem ▸ nonempty⟩
    have run := delivered _ whole
    rw [FrameDecoder.run_of_new, feedAll_whole (decodeFrame_local magic) scans,
      if_pos (Nat.lt_of_not_le exceeds)] at run
    cases run
  · intro fits chunks cuts
    have scans' : Scans (decodeFrame magic) ([] ++ chunks.flatten) packets (.ok []) := by
      rw [List.nil_append, cuts.flatten_eq]
      exact scans
    have fits' : ([] ++ chunks.flatten).length ≤ maxMessage + frameHeaderSize := by
      rw [List.nil_append, cuts.flatten_eq]
      exact fits
    rw [FrameDecoder.run_of_new,
      feedAll_of_le (decodeFrame_local magic) scans' (decodeFrame_local magic).nil fits']
    rfl

/-- Chunks do not matter exactly for the streams that fit a buffer and do not fail, or fail in
their first frame; the frames of packets arrive as these packets exactly when they all fit. -/
theorem framing_independent_of_chunks_iff (magic : UInt32) :
    (∀ stream, ChunkingIndependent magic stream ↔
        (∃ error, decodeFrame magic stream = .error error) ∨
          (stream.length ≤ maxMessage + frameHeaderSize ∧ NeverFails magic stream)) ∧
      ∀ packets frames, (∀ packet ∈ packets, packet.Representable) →
        List.Forall₂ (fun packet frame => encodeFrame magic packet = .ok frame) packets frames →
          (DeliveredByEveryCut magic frames.flatten packets ↔
            frames.flatten.length ≤ maxMessage + frameHeaderSize) :=
  ⟨chunkingIndependent_iff magic, fun _ _ representable encoded =>
    deliveredByEveryCut_iff representable encoded⟩

namespace ExampleStream

/-- The magic number of the main network. -/
def magic : UInt32 :=
  1533997779

/-- The frame of a `verack`. -/
def verackFrame : Octets :=
  [211, 242, 110, 91, 1, 0, 0, 0, 0]

/-- A header with another magic number. -/
def foreignFrame : Octets :=
  [0, 0, 0, 0, 1, 0, 0, 0, 0]

/-- Two packets in three chunks. -/
theorem two_veracks_delivered :
    (FrameDecoder.new magic).feedAll [[211, 242], [110, 91, 1, 0, 0, 0, 0, 211],
        [242, 110, 91, 1, 0, 0, 0, 0]] =
      ([.verack, .verack], .ok (FrameDecoder.new magic)) := by
  have encoded : List.Forall₂ (fun packet frame => encodeFrame magic packet = .ok frame)
      [.verack, .verack] [verackFrame, verackFrame] :=
    .cons rfl (.cons rfl .nil)
  have representable : ∀ packet ∈ [Packet.verack, .verack], packet.Representable := by
    simp [Packet.Representable]
  exact ((framing_independent_of_chunks_iff magic).2 _ _ representable encoded).mpr (by decide)
    _ ⟨by decide, by decide⟩

/-- A packet is delivered when the failing frame after it arrives later, and is lost when both
arrive together. -/
theorem packet_lost_with_failing_frame : ¬ ∀ magic stream, ChunkingIndependent magic stream := by
  intro independent
  have together : ((FrameDecoder.new magic).feedAll [verackFrame ++ foreignFrame]).1 = [] := by
    rfl
  have apart : ((FrameDecoder.new magic).feedAll [verackFrame, foreignFrame]).1 = [.verack] := by
    rfl
  have same := (independent magic (verackFrame ++ foreignFrame) [verackFrame ++ foreignFrame]
    [verackFrame, foreignFrame] ⟨by decide, by decide⟩ ⟨by decide, by decide⟩).1
  rw [together, apart] at same
  cases same

end ExampleStream

section

variable {magic : UInt32} {longest : Nat}
  (representable : ∀ packet ∈ packets, packet.Representable)
  (encoded : List.Forall₂ (fun packet frame => encodeFrame magic packet = .ok frame) packets frames)
  (bounded : ∀ frame ∈ frames, frame.length ≤ longest)

include representable encoded bounded

/-- What a front of frames leaves incomplete is no longer than one of them. -/
theorem length_rest_le_of_frames {part middle : Octets} {front : List Packet}
    (isPrefix : part <+: frames.flatten)
    (scans : Scans (decodeFrame magic) part front (.ok middle)) : middle.length ≤ longest := by
  induction encoded generalizing part front with
  | nil => exact scans.length_rest_le.trans (isPrefix.length_le.trans (Nat.zero_le _))
  | @cons packet frame packets frames first _ ih =>
    rw [List.forall_mem_cons] at representable bounded
    rw [List.flatten_cons] at isPrefix
    rcases List.prefix_or_prefix_of_prefix isPrefix (List.prefix_append frame _) with
      within | ⟨later, rfl⟩
    · exact scans.length_rest_le.trans (within.length_le.trans bounded.1)
    rcases exists_scans (decodeFrame_local magic) later with ⟨others, outcome, laterScans⟩
    have whole : Scans (decodeFrame magic) (frame ++ later) (packet :: others) outcome := by
      refine .item (decodeFrame_encodeFrame representable.1 first _) ?_
      rwa [List.drop_left]
    rcases scans.deterministic whole with ⟨-, rfl⟩
    exact ih representable.2 bounded.2 ((List.prefix_append_right_inj _).mp isPrefix) laterScans

/-- However much a connection carries, its packets arrive in their order, when every chunk fits
the buffer besides one frame. -/
theorem feedAll_encodeFrames {chunks : List Octets}
    (room : ∀ chunk ∈ chunks, longest + chunk.length ≤ maxMessage + frameHeaderSize)
    (flatten_eq : chunks.flatten = frames.flatten) :
    (FrameDecoder.new magic).feedAll chunks = (packets, .ok (FrameDecoder.new magic)) := by
  have scans := scans_encodeFrames representable encoded
  rw [← flatten_eq] at scans
  rw [FrameDecoder.run_of_new, feedAll_of_room (decodeFrame_local magic)
    (.rest (decodeFrame_local magic).nil) ?_ scans]
  · rfl
  · intro part chunk front middle isPrefix mem partScans
    have middle_le := length_rest_le_of_frames representable encoded bounded
      (flatten_eq ▸ (List.prefix_append part chunk).trans isPrefix) partScans
    exact (Nat.add_le_add_right middle_le _).trans (room chunk mem)

end

open ExampleStream in
/-- Frames of nine octets, of which the first chunk begins the second. -/
theorem feedAll_encodeFrames_veracks :
    (FrameDecoder.new magic).feedAll [verackFrame ++ [211], verackFrame.tail] =
      ([.verack, .verack], .ok (FrameDecoder.new magic)) :=
  @feedAll_encodeFrames _ [verackFrame, verackFrame] magic 9 (by simp [Packet.Representable])
    (.cons rfl (.cons rfl .nil)) (by simp [verackFrame]) _ (by decide) (by decide)

end HnsDaneEngine.PeerWire
