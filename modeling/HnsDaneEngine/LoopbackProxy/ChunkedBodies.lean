import HnsDaneEngine.LoopbackProxy.Chunked
import Mathlib.Data.List.TakeWhile
import Mathlib.Data.Nat.Digits.Lemmas

/-!
# What chunked bodies are read from

A body is returned only from a chunked message at the start of the stream, of which nothing
but the message is taken, and every message of plain chunks is read, however it arrives.
-/

namespace HnsDaneEngine.LoopbackProxy.Http1

open Arrivals Control
open NamespaceResolution (isAsciiDigit)
open Primitives (checkedAdd checkedAdd_eq_some_iff u64Max)

/-! ## Octets -/

theorem keepsTo_readByte :
    KeepsTo readByte fun piece taken => taken = piece ∧ piece.length ≤ 1 := by
  intro input piece later run
  have called := Effect.mapError_eq_ok_iff.mp run
  rcases octetsOf_of_read called with ⟨short, octets_eq⟩
  exact ⟨piece, ⟨rfl, short⟩, octets_eq⟩

theorem takes_readByte (byte : UInt8) : Takes readByte [byte] [byte] := by
  intro input rest delivers
  rcases delivers.read (List.cons_ne_nil byte rest) Nat.one_ne_zero with
    ⟨piece, later, left, called, brings, short, octets_eq, later_delivers⟩
  rcases List.length_eq_one_iff.mp
    (Nat.le_antisymm short (List.length_pos_iff.mpr brings)) with ⟨first, rfl⟩
  cases octets_eq
  exact ⟨later, Effect.mapError_eq_ok_iff.mpr called, later_delivers⟩

theorem readExactBody_of_piece {size : Nat} (nonzero : size ≠ 0) {input later : Input}
    {byte : UInt8} {piece : Octets} (called : read size input = (.ok (byte :: piece), later)) :
    readExactBody size input =
      match readExactBody (size - (byte :: piece).length) later with
      | (.ok rest, final) => (.ok (byte :: piece ++ rest), final)
      | (.error error, final) => (.error error, final) := by
  rw [readExactBody, if_neg nonzero]
  split
  next other => cases called.symm.trans other
  next other =>
    cases called.symm.trans other
    rfl
  next other => cases called.symm.trans other
  next other => cases called.symm.trans other

/-- A buffer is filled with what comes next. -/
theorem keepsTo_readExactBody (size : Nat) :
    KeepsTo (readExactBody size) fun data taken => data = taken ∧ data.length = size := by
  suffices filled : ∀ input data later, readExactBody size input = (.ok data, later) →
      data.length = size ∧ octetsOf input = data ++ octetsOf later by
    intro input data later run
    rcases filled input data later run with ⟨length_eq, octets_eq⟩
    exact ⟨data, ⟨rfl, length_eq⟩, octets_eq⟩
  intro input
  fun_induction readExactBody size input with
  | case1 input =>
    intro data later run
    cases run
    simp
  | case2 => nofun
  | case3 size input nonzero byte piece later called rest final rest_eq ih =>
    intro data last run
    cases run
    rcases octetsOf_of_read called with ⟨short, octets_eq⟩
    rcases ih rest final rest_eq with ⟨length_eq, rest_octets⟩
    constructor
    · rw [List.length_append, length_eq]
      omega
    · rw [octets_eq, rest_octets, List.append_assoc]
  | case4 => nofun
  | case5 size input nonzero later called ih =>
    intro data last run
    rw [read_error called]
    exact ih data last run
  | case6 => nofun

theorem takes_readExactBody (data : Octets) : Takes (readExactBody data.length) data data := by
  intro input rest delivers
  induction size_eq : data.length using Nat.strong_induction_on generalizing input data with
  | _ size ih =>
    by_cases empty : size = 0
    · have no_data : data = [] := List.length_eq_zero_iff.mp (size_eq.trans empty)
      subst no_data
      refine ⟨input, ?_, delivers⟩
      rw [readExactBody, if_pos empty]
    have more : data ++ rest ≠ [] := by
      intro nothing
      exact empty (by rw [← size_eq, (List.append_eq_nil_iff.mp nothing).1]; rfl)
    rcases delivers.read more empty with
      ⟨piece, later, left, called, brings, short, octets_eq, later_delivers⟩
    rcases List.prefix_of_prefix_length_le ⟨left, octets_eq.symm⟩ ⟨rest, rfl⟩
      (by rwa [size_eq]) with ⟨others, rfl⟩
    rw [List.append_assoc] at octets_eq
    rw [← List.append_cancel_left octets_eq] at later_delivers
    cases piece with
    | nil => exact absurd rfl brings
    | cons byte piece =>
      rw [List.length_append] at size_eq
      have fewer : size - (byte :: piece).length < size := by
        rw [List.length_cons]
        omega
      rcases ih _ fewer others later later_delivers (by omega) with
        ⟨final, others_eq, final_delivers⟩
      refine ⟨final, ?_, final_delivers⟩
      rw [readExactBody_of_piece empty called, others_eq]

/-! ## Lines -/

variable {line front text extension rest left : Octets} {byte : UInt8} {limitError : Http1Error}

theorem crlf_isSuffixOf_iff :
    crlf.isSuffixOf (line ++ [byte]) = true ↔ byte = 10 ∧ ∃ front, line = front ++ [13] := by
  rw [List.isSuffixOf_iff_suffix]
  constructor
  · rintro ⟨front, front_eq⟩
    have split_eq : (front ++ [13]) ++ [10] = line ++ [byte] := by
      rw [← front_eq, crlf, List.append_assoc]
      rfl
    rcases List.append_inj' split_eq rfl with ⟨line_eq, byte_eq⟩
    exact ⟨(List.cons.inj byte_eq).1.symm, front, line_eq.symm⟩
  · rintro ⟨rfl, front, rfl⟩
    exact ⟨front, by simp [crlf]⟩

/-- A line ends at the first line feed, which a carriage return has to precede. -/
theorem keepsTo_readCrlfLineFrom (limitError : Http1Error) (room : Nat) (clean : 10 ∉ line) :
    KeepsTo (readCrlfLineFrom limitError line room) fun whole taken =>
      line ++ taken = whole ++ crlf ∧ 10 ∉ whole ∧ taken.length ≤ room := by
  induction room generalizing line with
  | zero => exact KeepsTo.throw
  | succ room ih =>
    rw [readCrlfLineFrom]
    apply keepsTo_readByte.bind
    rintro piece taken ⟨rfl, short⟩
    cases taken with
    | nil => exact KeepsTo.throw
    | cons byte others =>
      have alone : others = [] := by simpa using short
      subst alone
      dsimp only
      split
      next ends =>
        rcases crlf_isSuffixOf_iff.mp ends with ⟨rfl, front, rfl⟩
        apply KeepsTo.pure
        have front_eq : (front ++ [13] ++ [10]).take ((front ++ [13] ++ [10]).length - 2) = front := by
          simp
        rw [front_eq]
        exact ⟨by simp [crlf], fun member => clean (List.mem_append_left _ member), by simp⟩
      next continues =>
        split
        next => exact KeepsTo.throw
        next different =>
          have still : 10 ∉ line ++ [byte] := by
            simpa [clean] using Ne.symm different
          apply (ih still).mono
          rintro whole more ⟨line_eq, whole_clean, fits⟩
          rw [List.append_assoc] at line_eq
          exact ⟨line_eq, whole_clean, by simpa using fits⟩

theorem keepsTo_readCrlfLine (limit : Nat) (limitError : Http1Error) :
    KeepsTo (readCrlfLine limit limitError) fun line taken =>
      taken = line ++ crlf ∧ 10 ∉ line ∧ line.length + 2 ≤ limit := by
  apply (keepsTo_readCrlfLineFrom limitError limit (List.not_mem_nil)).mono
  rintro line taken ⟨rfl, clean, fits⟩
  exact ⟨rfl, clean, by simpa [crlf] using fits⟩

/-- One more octet of a line that goes on. -/
theorem Takes.line_cons {whole more : Octets} {room : Nat} (different : byte ≠ 10)
    (rest : Takes (readCrlfLineFrom limitError (front ++ [byte]) room) whole more) :
    Takes (readCrlfLineFrom limitError front (room + 1)) whole (byte :: more) := by
  rw [readCrlfLineFrom]
  apply (takes_readByte byte).bind
  dsimp only
  rw [if_neg fun ends => different (crlf_isSuffixOf_iff.mp ends).1, if_neg different]
  exact rest

theorem takes_readCrlfLineFrom {back : Octets} {room : Nat} (clean : 10 ∉ back)
    (fits : back.length + 2 ≤ room) :
    Takes (readCrlfLineFrom limitError front room) (front ++ back) (back ++ crlf) := by
  induction back generalizing front room with
  | nil =>
    rcases Nat.exists_eq_add_of_le' fits with ⟨spare, rfl⟩
    apply Takes.line_cons (by decide)
    rw [readCrlfLineFrom]
    apply (takes_readByte 10).bind_nil
    dsimp only
    rw [if_pos (crlf_isSuffixOf_iff.mpr ⟨rfl, front, rfl⟩)]
    have front_eq : (front ++ [13] ++ [10]).take ((front ++ [13] ++ [10]).length - 2) =
        front ++ [] := by
      simp
    rw [front_eq]
    exact Takes.pure
  | cons byte back ih =>
    rw [List.mem_cons, not_or] at clean
    rw [List.length_cons] at fits
    rcases Nat.exists_eq_add_of_le' (Nat.le_trans (Nat.le_add_left 1 _) fits) with ⟨spare, rfl⟩
    apply Takes.line_cons (Ne.symm clean.1)
    have rest : Takes (readCrlfLineFrom limitError (front ++ [byte]) spare)
        (front ++ [byte] ++ back) (back ++ crlf) := ih clean.2 (by omega)
    rwa [List.append_assoc] at rest

theorem takes_readCrlfLine {limit : Nat} (clean : 10 ∉ line) (fits : line.length + 2 ≤ limit) :
    Takes (readCrlfLine limit limitError) line (line ++ crlf) :=
  takes_readCrlfLineFrom clean fits

/-! ## Chunked messages -/

/-- Digits that give a size. -/
structure IsSizeText (text : Octets) (size : Nat) : Prop where
  nonempty : text ≠ []
  digits : ∀ byte ∈ text, isAsciiHexdigit byte
  value_eq : hexValue text = size

/-- The text of a quoted string: plain octets, and any printable ones after a backslash. -/
inductive IsQuotedBody : Octets → Prop
  | nil : IsQuotedBody []
  | plain {byte : UInt8} {rest : Octets} (quotable : isQuotableOctet byte)
      (isRest : IsQuotedBody rest) : IsQuotedBody (byte :: rest)
  | escaped {byte : UInt8} {rest : Octets} (isText : isTextOctet byte)
      (isRest : IsQuotedBody rest) : IsQuotedBody (92 :: byte :: rest)

/-- A semicolon and a name, with or without a value. -/
inductive IsExtension : Octets → Prop
  | name {name : Octets} (isName : isHttpToken name) : IsExtension (59 :: name)
  | token {name value : Octets} (isName : isHttpToken name) (isValue : isHttpToken value) :
      IsExtension (59 :: (name ++ 61 :: value))
  | quoted {name text : Octets} (isName : isHttpToken name) (isBody : IsQuotedBody text) :
      IsExtension (59 :: (name ++ 61 :: 34 :: (text ++ [34])))

/-- A size and its extensions. -/
def IsSizeLine (line : Octets) (size : Nat) : Prop :=
  ∃ (text : Octets) (extensions : List Octets), line = text ++ extensions.flatten ∧
    IsSizeText text size ∧ ∀ extension ∈ extensions, IsExtension extension

def IsTrailer (line : Octets) : Prop :=
  ∃ name value, line = name ++ 58 :: value ∧ isHttpToken name = true ∧
    isForbiddenTrailer name = false ∧ isValidFieldValue value = true

/-- Trailers within bounds on their number and on the octets, and the empty line after them. -/
structure IsTrailerSection (lines bytes : Nat) (octets : Octets) : Prop where
  exists_trailers : ∃ trailers : List Octets, trailers.length ≤ lines ∧
    octets = trailers.flatMap (· ++ crlf) ++ crlf ∧ ∀ trailer ∈ trailers, IsTrailer trailer
  length_le : octets.length ≤ bytes

/-- A chunked message and the body that it carries. -/
inductive IsChunked : Octets → Octets → Prop
  | last {line trailers : Octets} (isLine : IsSizeLine line 0)
      (isTrailers : IsTrailerSection maxRequestHeaders maxChunkTrailerBytes trailers) :
      IsChunked [] (line ++ crlf ++ trailers)
  | chunk {line data body octets : Octets} (isLine : IsSizeLine line data.length)
      (nonempty : data ≠ []) (isRest : IsChunked body octets) :
      IsChunked (data ++ body) (line ++ crlf ++ data ++ crlf ++ octets)

/-! ## Size lines -/

theorem splitOnce_eq_some {separator : UInt8} {back : Octets}
    (found : splitOnce separator text = some (front, back)) :
    text = front ++ separator :: back ∧ separator ∉ front := by
  unfold splitOnce at found
  split at found
  next => cases found
  next byte after dropped =>
    cases found
    have head_eq : byte = separator := by
      have some_left : text.dropWhile (· != separator) ≠ [] := by simp [dropped]
      have head := List.head_dropWhile_not (· != separator) some_left
      simpa [dropped] using head
    constructor
    · rw [head_eq] at dropped
      rw [← dropped, List.takeWhile_append_dropWhile]
    · intro member
      have passes := List.all_eq_true.mp List.all_takeWhile separator member
      simp at passes

theorem isQuotedText_sound (text : Octets) :
    (isQuotedText false text = true → IsQuotedBody text) ∧
      (isQuotedText true text = true →
        ∃ byte rest, text = byte :: rest ∧ isTextOctet byte = true ∧ IsQuotedBody rest) := by
  induction text with
  | nil => exact ⟨fun _ => .nil, nofun⟩
  | cons byte rest ih =>
    constructor
    · intro quoted
      rw [isQuotedText] at quoted
      split at quoted
      next backslash =>
        rcases ih.2 quoted with ⟨next, others, rfl, isText, isRest⟩
        rw [backslash]
        exact .escaped isText isRest
      next =>
        rw [Bool.and_eq_true] at quoted
        exact .plain quoted.1 (ih.1 quoted.2)
    · intro quoted
      rw [isQuotedText, Bool.and_eq_true] at quoted
      exact ⟨byte, rest, rfl, quoted.1, ih.1 quoted.2⟩

theorem isValidQuotedString_sound {value : Octets} (valid : isValidQuotedString value = true) :
    ∃ text, value = 34 :: (text ++ [34]) ∧ IsQuotedBody text := by
  cases value with
  | nil => cases valid
  | cons byte rest =>
    simp only [isValidQuotedString, Bool.and_eq_true, beq_iff_eq] at valid
    rcases valid with ⟨⟨rfl, last⟩, quoted⟩
    refine ⟨rest.dropLast, ?_, (isQuotedText_sound _).1 quoted⟩
    rw [List.dropLast_append_getLast? 34 last]

theorem isExtension_of_valid (valid : isValidChunkExtension extension = true) :
    IsExtension (59 :: extension) := by
  unfold isValidChunkExtension at valid
  split at valid
  next => exact .name valid
  next name value found =>
    rw [(splitOnce_eq_some found).1]
    rw [Bool.and_eq_true, Bool.or_eq_true] at valid
    rcases valid with ⟨isName, isToken | isQuoted⟩
    · exact .token isName isToken
    · rcases isValidQuotedString_sound isQuoted with ⟨text, rfl, isBody⟩
      exact .quoted isName isBody

theorem extensions_of_valid {octets : Octets} (valid : validateChunkExtensions octets = .ok ⟨⟩) :
    ∃ extensions : List Octets, octets = extensions.flatten ∧
      ∀ extension ∈ extensions, IsExtension extension := by
  fun_induction validateChunkExtensions octets with
  | case1 => exact ⟨[], rfl, by simp⟩
  | case2 => cases valid
  | case3 => cases valid
  | case4 byte octets semicolon extension ih =>
    rcases ih valid with ⟨extensions, octets_eq, each⟩
    refine ⟨(59 :: octets.takeWhile (· != 59)) :: extensions, ?_, ?_⟩
    · rw [List.flatten_cons, ← octets_eq, List.cons_append, List.takeWhile_append_dropWhile,
        Decidable.not_not.mp semicolon]
    · rw [List.forall_mem_cons]
      exact ⟨isExtension_of_valid (by simpa using extension), each⟩

theorem isSizeLine_of_chunkSize {size : Nat} (parsed : chunkSize line = .ok size) :
    IsSizeLine line size := by
  unfold chunkSize at parsed
  dsimp only at parsed
  split at parsed
  next => cases parsed
  next accepted =>
    rcases of_bind_ok parsed with ⟨⟨⟩, validated, parsed⟩
    rcases extensions_of_valid validated with ⟨extensions, extensions_eq, each⟩
    simp only [Bool.or_eq_true, List.isEmpty_iff, Bool.not_eq_true', List.all_eq_false,
      not_or, not_exists, not_and] at accepted
    refine ⟨line.takeWhile (· != 59), extensions, ?_, ⟨accepted.1, ?_, ?_⟩, each⟩
    · rw [← extensions_eq, List.takeWhile_append_dropWhile]
    · intro byte member
      simpa using accepted.2 byte member
    unfold fromStrRadix16 at parsed
    split at parsed
    next => cases parsed
    next value found =>
      split at found
      next =>
        cases found
        cases parsed
        rfl
      next => cases found

/-! ## Trailers -/

theorem all_of_dropWhile {α : Type} {test accept : α → Bool}
    (implies : ∀ item, test item = true → accept item = true) {text : List α}
    (rest : (text.dropWhile test).all accept = true) : text.all accept = true := by
  rw [← List.takeWhile_append_dropWhile (p := test) (l := text), List.all_append, rest,
    Bool.and_true, List.all_eq_true]
  intro item member
  exact implies item (List.all_eq_true.mp List.all_takeWhile item member)

theorem all_of_trimMatches {α : Type} {test accept : α → Bool}
    (implies : ∀ item, test item = true → accept item = true) {text : List α}
    (trimmed : (trimMatches test text).all accept = true) : text.all accept = true := by
  unfold trimMatches at trimmed
  rw [List.all_reverse] at trimmed
  have front := all_of_dropWhile implies trimmed
  rw [List.all_reverse] at front
  exact all_of_dropWhile implies front

theorem isTextOctet_of_isBlank (blank : isBlank byte = true) : isTextOctet byte = true := by
  simp only [isBlank, Bool.or_eq_true, beq_iff_eq] at blank
  rcases blank with rfl | rfl <;> rfl

theorem isTrailer_of_parse {header : Header} (parsed : parseSingleHeaderLine line = .ok header)
    (allowed : isForbiddenTrailer header.name = false) : IsTrailer line := by
  unfold parseSingleHeaderLine at parsed
  split at parsed
  next => cases parsed
  next =>
    split at parsed
    next => cases parsed
    next name rest found =>
      dsimp only at parsed
      split at parsed
      next => cases parsed
      next valid =>
        cases parsed
        simp only [Bool.or_eq_true, Bool.not_eq_true', not_or, Bool.not_eq_false] at valid
        exact ⟨name, rest, (splitOnce_eq_some found).1, valid.1, allowed,
          all_of_trimMatches (fun _ => isTextOctet_of_isBlank) valid.2⟩

namespace IsTrailerSection

theorem nil {lines bytes : Nat} (room : 2 ≤ bytes) : IsTrailerSection lines bytes crlf :=
  ⟨⟨[], Nat.zero_le lines, rfl, by simp⟩, room⟩

theorem cons {lines bytes : Nat} {octets : Octets} (isTrailer : IsTrailer line)
    (rest : IsTrailerSection lines bytes octets) :
    IsTrailerSection (lines + 1) (line.length + 2 + bytes) (line ++ crlf ++ octets) := by
  rcases rest with ⟨⟨trailers, few, rfl, each⟩, length_le⟩
  refine ⟨⟨line :: trailers, Nat.succ_le_succ few, by simp, ?_⟩, ?_⟩
  · rw [List.forall_mem_cons]
    exact ⟨isTrailer, each⟩
  · simp only [List.length_append, crlf, List.length_cons, List.length_nil] at length_le ⊢
    omega

theorem mono {lines bytes moreLines moreBytes : Nat} {octets : Octets}
    (isSection : IsTrailerSection lines bytes octets) (lines_le : lines ≤ moreLines)
    (bytes_le : bytes ≤ moreBytes) : IsTrailerSection moreLines moreBytes octets := by
  rcases isSection with ⟨⟨trailers, few, octets_eq, each⟩, length_le⟩
  exact ⟨⟨trailers, Nat.le_trans few lines_le, octets_eq, each⟩, Nat.le_trans length_le bytes_le⟩

end IsTrailerSection

theorem keepsTo_readChunkTrailersFrom (consumed count : Nat) :
    KeepsTo (readChunkTrailersFrom consumed count) fun _ taken =>
      IsTrailerSection (maxRequestHeaders - count) (maxChunkTrailerBytes - consumed) taken := by
  induction consumed, count using readChunkTrailersFrom.induct with
  | case1 consumed count full =>
    rw [readChunkTrailersFrom, if_pos full]
    exact KeepsTo.throw
  | case2 consumed count room ih =>
    rw [readChunkTrailersFrom, if_neg room]
    apply (keepsTo_readCrlfLine _ _).bind
    rintro line taken ⟨rfl, -, fits⟩
    have within : line.length + 2 ≤ maxChunkTrailerBytes - consumed :=
      Nat.le_trans fits (Nat.min_le_left _ _)
    split
    next empty =>
      rw [List.isEmpty_iff] at empty
      subst empty
      exact KeepsTo.pure (.nil within)
    next =>
      split
      next => exact KeepsTo.throw
      next few =>
        apply KeepsTo.ofExcept_bind
        intro header parsed
        split
        next => exact KeepsTo.throw
        next allowed =>
          apply (ih line few).mono
          intro _ more isSection
          have isTrailer := isTrailer_of_parse parsed (Bool.eq_false_of_not_eq_true allowed)
          apply (isSection.cons isTrailer).mono
          · omega
          · omega

/-- The empty section. -/
theorem takes_readChunkTrailers : Takes readChunkTrailers ⟨⟩ crlf := by
  rw [readChunkTrailers, readChunkTrailersFrom, if_neg (by decide)]
  have emptyLine : Takes (readCrlfLine (min (maxChunkTrailerBytes - 0) maxChunkLineBytes)
      .invalidChunkedBody) [] crlf := takes_readCrlfLine List.not_mem_nil (by decide)
  apply emptyLine.bind_nil
  rw [if_pos List.isEmpty_nil]
  exact Takes.pure

/-! ## Bodies -/

theorem keepsTo_readChunksFrom {maxBodyBytes : UInt64} (total : Nat) (output : Octets)
    (fits : total ≤ maxBodyBytes.toNat) :
    KeepsTo (readChunksFrom maxBodyBytes total output) fun body taken =>
      ∃ data, body = output ++ data ∧ total + data.length ≤ maxBodyBytes.toNat ∧
        IsChunked data taken := by
  induction total, output using readChunksFrom.induct maxBodyBytes with
  | case1 total output ih =>
    rw [readChunksFrom]
    apply (keepsTo_readCrlfLine _ _).bind
    rintro line taken ⟨rfl, -, -⟩
    apply KeepsTo.ofExcept_bind
    intro size parsed
    have isLine := isSizeLine_of_chunkSize parsed
    split
    next zero =>
      subst zero
      apply (keepsTo_readChunkTrailersFrom 0 0).bind
      intro _ trailers isTrailers
      apply KeepsTo.pure
      refine ⟨[], by simp, fits, ?_⟩
      simpa using IsChunked.last isLine isTrailers
    next nonzero =>
      split
      next => exact KeepsTo.throw
      next sum added =>
        split
        next => exact KeepsTo.throw
        next within =>
          apply (keepsTo_readExactBody size).bind
          rintro data taken ⟨rfl, rfl⟩
          apply (keepsTo_readExactBody 2).bind
          rintro ending taken ⟨rfl, -⟩
          split
          next => exact KeepsTo.throw
          next ends =>
            have ends := Decidable.not_not.mp ends
            subst ends
            apply (ih _ nonzero sum added within data (Nat.le_of_not_lt within)).mono
            rintro body more ⟨rest, rfl, rest_fits, isRest⟩
            rcases checkedAdd_eq_some_iff.mp added with ⟨rfl, -⟩
            refine ⟨data ++ rest, by simp, by simpa [Nat.add_assoc] using rest_fits, ?_⟩
            have brings : data ≠ [] := List.length_eq_zero_iff.not.mp nonzero
            simpa using IsChunked.chunk isLine brings isRest

/-! ## Encoding -/

/-- Without leading zeros. -/
structure IsMinimalSizeText (text : Octets) (size : Nat) : Prop extends
    IsSizeText text size where
  no_zeros : text.head? = some 48 → text = [48]

/-- Lower-case hexadecimal digits. -/
def hexText (size : Nat) : Octets :=
  if size = 0 then [48]
  else ((Nat.digits 16 size).map fun digit => hexDigit (UInt8.ofNat digit)).reverse

def encodeChunk (sizeText : Nat → Octets) (chunk : Octets) : Octets :=
  sizeText chunk.length ++ crlf ++ chunk ++ crlf

/-- A message without extensions and trailers. -/
def encodeChunks (sizeText : Nat → Octets) (chunks : List Octets) : Octets :=
  chunks.flatMap (encodeChunk sizeText) ++ (sizeText 0 ++ crlf ++ crlf)

theorem hexDigit_spec {digit : Nat} (small : digit < 16) :
    isAsciiHexdigit (hexDigit (UInt8.ofNat digit)) = true ∧
      hexDigitValue (hexDigit (UInt8.ofNat digit)) = digit ∧
      (hexDigit (UInt8.ofNat digit) = 48 → digit = 0) := by
  interval_cases digit <;> decide

theorem hexValue_append_singleton (text : Octets) (byte : UInt8) :
    hexValue (text ++ [byte]) = 16 * hexValue text + hexDigitValue byte := by
  simp [hexValue]

theorem hexValue_reverse_map {digits : List Nat} (small : ∀ digit ∈ digits, digit < 16) :
    hexValue (digits.map fun digit => hexDigit (UInt8.ofNat digit)).reverse =
      Nat.ofDigits 16 digits := by
  induction digits with
  | nil => rfl
  | cons digit digits ih =>
    rw [List.forall_mem_cons] at small
    rw [List.map_cons, List.reverse_cons, hexValue_append_singleton, ih small.2,
      (hexDigit_spec small.1).2.1, Nat.ofDigits_cons]
    omega

theorem isMinimalSizeText_hexText (size : Nat) : IsMinimalSizeText (hexText size) size := by
  unfold hexText
  split
  next zero =>
    subst zero
    have digits : ∀ byte ∈ [(0x30 : UInt8)], isAsciiHexdigit byte := by
      intro byte member
      rw [List.mem_singleton.mp member]
      rfl
    exact ⟨⟨by simp, digits, rfl⟩, fun _ => rfl⟩
  next nonzero =>
    have small : ∀ digit ∈ Nat.digits 16 size, digit < 16 :=
      fun digit member => Nat.digits_lt_base (by decide) member
    refine ⟨⟨?_, ?_, ?_⟩, ?_⟩
    · rw [ne_eq, List.reverse_eq_nil_iff, List.map_eq_nil_iff]
      exact Nat.digits_ne_nil_iff_ne_zero.mpr nonzero
    · simp only [List.mem_reverse, List.forall_mem_map]
      exact fun digit member => (hexDigit_spec (small digit member)).1
    · rw [hexValue_reverse_map small, Nat.ofDigits_digits]
    · intro leading
      have digits_ne : Nat.digits 16 size ≠ [] := Nat.digits_ne_nil_iff_ne_zero.mpr nonzero
      rw [List.head?_reverse, List.getLast?_map, List.getLast?_eq_some_getLast digits_ne,
        Option.map_some, Option.some.injEq] at leading
      have zero := (hexDigit_spec (small _ (List.getLast_mem digits_ne))).2.2 leading
      exact absurd zero (Nat.getLast_digit_ne_zero 16 nonzero)

namespace IsSizeText

variable {size : Nat}

theorem not_mem (isText : IsSizeText text size)
    (other : isAsciiHexdigit byte = false) : byte ∉ text := by
  intro member
  have digit := isText.digits byte member
  rw [other] at digit
  cases digit

theorem chunkSize_eq (isText : IsSizeText text size) (fits : size ≤ u64Max) :
    chunkSize text = .ok size := by
  have all : ∀ byte ∈ text, (byte != 59) = true := by
    intro byte member
    exact bne_iff_ne.mpr fun same => isText.not_mem (by decide) (same ▸ member)
  have digits : text.all isAsciiHexdigit = true := List.all_eq_true.mpr isText.digits
  have nonempty : text.isEmpty = false := List.isEmpty_eq_false_iff.mpr isText.nonempty
  have radix : fromStrRadix16 text = some size := by
    rw [fromStrRadix16, isText.value_eq, if_pos fits]
  unfold chunkSize
  rw [List.takeWhile_eq_self_iff.mpr all, List.dropWhile_eq_nil_iff.mpr all]
  simp [digits, nonempty, validateChunkExtensions, radix]

end IsSizeText

theorem foldl_hex (value : Nat) (text : Octets) :
    text.foldl (fun value byte => 16 * value + hexDigitValue byte) value =
      value * 16 ^ text.length + hexValue text := by
  induction text using List.reverseRecOn with
  | nil => simp [hexValue]
  | append_singleton text byte ih =>
    rw [List.foldl_append, List.foldl_cons, List.foldl_nil, ih, hexValue_append_singleton,
      List.length_append, List.length_singleton, Nat.pow_succ]
    ring

theorem hexDigitValue_pos (digit : isAsciiHexdigit byte = true) (nonzero : byte ≠ 48) :
    0 < hexDigitValue byte := by
  simp only [isAsciiHexdigit, isAsciiDigit, Bool.or_eq_true, Bool.and_eq_true, decide_eq_true_eq,
    UInt8.le_iff_toNat_le] at digit
  have not_zero : byte.toNat ≠ 48 := fun same => nonzero (UInt8.toNat_inj.mp same)
  unfold hexDigitValue
  simp only [UInt8.le_iff_toNat_le]
  split_ifs <;> simp at * <;> omega

/-- A size has at most sixteen digits. -/
theorem IsMinimalSizeText.length_le {size : Nat} (minimal : IsMinimalSizeText text size)
    (fits : size ≤ u64Max) : text.length ≤ 16 := by
  cases text with
  | nil => exact Nat.zero_le 16
  | cons byte rest =>
    by_cases zero : byte = 48
    · subst zero
      rw [minimal.no_zeros rfl]
      decide
    have positive := hexDigitValue_pos (minimal.digits byte List.mem_cons_self) zero
    have value_eq : hexDigitValue byte * 16 ^ rest.length + hexValue rest = size := by
      have folded := foldl_hex (hexDigitValue byte) rest
      rw [← minimal.value_eq, ← folded, hexValue, List.foldl_cons, Nat.mul_zero, Nat.zero_add]
    have power_le : 16 ^ rest.length ≤ size := by
      rw [← value_eq]
      exact Nat.le_add_right_of_le (Nat.le_mul_of_pos_left _ positive)
    have power_lt : 16 ^ rest.length < 16 ^ 16 :=
      Nat.lt_of_le_of_lt (Nat.le_trans power_le fits) (by decide)
    exact (Nat.pow_lt_pow_iff_right (by decide)).mp power_lt

/-! ## Messages are unambiguous -/

theorem takeWhile_line (clean : 10 ∉ line) (rest : Octets) :
    (line ++ crlf ++ rest).takeWhile (· != 10) = line ++ [13] := by
  have passes : ∀ byte ∈ line ++ [13], (byte != 10) = true := by
    intro byte member
    rw [bne_iff_ne]
    rintro rfl
    rcases List.mem_append.mp member with inLine | inEnd
    · exact clean inLine
    · simp at inEnd
  have line_eq : line ++ crlf ++ rest = (line ++ [13]) ++ 10 :: rest := by simp [crlf]
  rw [line_eq, List.takeWhile_append_of_pos passes]
  simp

theorem line_inj {first second : Octets} (firstClean : 10 ∉ first) (secondClean : 10 ∉ second)
    (same : first ++ crlf ++ rest = second ++ crlf ++ left) :
    first = second ∧ rest = left := by
  have lines_eq := congrArg (List.takeWhile (· != 10)) same
  rw [takeWhile_line firstClean, takeWhile_line secondClean] at lines_eq
  have line_eq := List.append_cancel_right lines_eq
  subst line_eq
  exact ⟨rfl, List.append_cancel_left same⟩

theorem not_mem_of_isHttpToken {token : Octets} (isToken : isHttpToken token = true) :
    10 ∉ token := by
  intro member
  rw [isHttpToken, Bool.and_eq_true, List.all_eq_true] at isToken
  exact absurd (isToken.2 10 member) (by decide)

theorem IsQuotedBody.not_mem (isBody : IsQuotedBody text) : 10 ∉ text := by
  induction isBody with
  | nil => exact List.not_mem_nil
  | plain quotable _ ih =>
    rw [List.mem_cons, not_or]
    refine ⟨?_, ih⟩
    rintro rfl
    exact absurd quotable (by decide)
  | escaped isText _ ih =>
    rw [List.mem_cons, List.mem_cons, not_or, not_or]
    refine ⟨by decide, ?_, ih⟩
    rintro rfl
    exact absurd isText (by decide)

theorem IsExtension.not_mem (isExtension : IsExtension extension) : 10 ∉ extension := by
  cases isExtension with
  | name isName => simpa using not_mem_of_isHttpToken isName
  | token isName isValue =>
    simpa using ⟨not_mem_of_isHttpToken isName, not_mem_of_isHttpToken isValue⟩
  | quoted isName isBody => simpa using ⟨not_mem_of_isHttpToken isName, isBody.not_mem⟩

namespace IsSizeLine

variable {size other : Nat}

theorem not_mem (isLine : IsSizeLine line size) : 10 ∉ line := by
  rcases isLine with ⟨text, extensions, rfl, isText, each⟩
  rw [List.mem_append, List.mem_flatten, not_or]
  refine ⟨isText.not_mem (by decide), ?_⟩
  rintro ⟨extension, member, inside⟩
  exact (each extension member).not_mem inside

/-- A line states one size. -/
theorem unique (first : IsSizeLine line size) (second : IsSizeLine line other) : size = other := by
  have text_eq : ∀ {size : Nat}, IsSizeLine line size →
      hexValue (line.takeWhile (· != 59)) = size := by
    rintro size ⟨text, extensions, rfl, isText, each⟩
    have passes : ∀ byte ∈ text, (byte != 59) = true := by
      intro byte member
      exact bne_iff_ne.mpr fun same => isText.not_mem (by decide) (same ▸ member)
    have stops : extensions.flatten.takeWhile (· != 59) = [] := by
      cases extensions with
      | nil => rfl
      | cons extension extensions =>
        have isExtension := each extension List.mem_cons_self
        cases isExtension <;> simp
    rw [List.takeWhile_append_of_pos passes, stops, List.append_nil, isText.value_eq]
  rw [← text_eq first, text_eq second]

end IsSizeLine

theorem IsTrailer.not_mem (isTrailer : IsTrailer line) : 10 ∉ line := by
  rcases isTrailer with ⟨name, value, rfl, isName, -, isValue⟩
  rw [List.mem_append, List.mem_cons, not_or, not_or]
  refine ⟨not_mem_of_isHttpToken isName, by decide, ?_⟩
  intro member
  exact absurd (List.all_eq_true.mp isValue 10 member) (by decide)

theorem trailers_unique {first second : List Octets}
    (firstIs : ∀ trailer ∈ first, IsTrailer trailer)
    (secondIs : ∀ trailer ∈ second, IsTrailer trailer)
    (same : first.flatMap (· ++ crlf) ++ crlf ++ rest =
      second.flatMap (· ++ crlf) ++ crlf ++ left) : first = second ∧ rest = left := by
  have nonempty : ¬ IsTrailer [] := by
    rintro ⟨name, value, nothing, -⟩
    simp at nothing
  induction first generalizing second with
  | nil =>
    cases second with
    | nil => exact ⟨rfl, List.append_cancel_left same⟩
    | cons trailer second =>
      rw [List.forall_mem_cons] at secondIs
      have lines : [] ++ crlf ++ rest =
          trailer ++ crlf ++ (second.flatMap (· ++ crlf) ++ crlf ++ left) := by
        simpa using same
      rw [← (line_inj List.not_mem_nil secondIs.1.not_mem lines).1] at secondIs
      exact absurd secondIs.1 nonempty
  | cons trailer first ih =>
    rw [List.forall_mem_cons] at firstIs
    cases second with
    | nil =>
      have lines : trailer ++ crlf ++ (first.flatMap (· ++ crlf) ++ crlf ++ rest) =
          [] ++ crlf ++ left := by
        simpa using same
      rw [(line_inj firstIs.1.not_mem List.not_mem_nil lines).1] at firstIs
      exact absurd firstIs.1 nonempty
    | cons other second =>
      rw [List.forall_mem_cons] at secondIs
      have lines : trailer ++ crlf ++ (first.flatMap (· ++ crlf) ++ crlf ++ rest) =
          other ++ crlf ++ (second.flatMap (· ++ crlf) ++ crlf ++ left) := by
        simpa using same
      rcases line_inj firstIs.1.not_mem secondIs.1.not_mem lines with ⟨rfl, others⟩
      rcases ih firstIs.2 secondIs.2 others with ⟨rfl, rest_eq⟩
      exact ⟨rfl, rest_eq⟩

/-- A stream starts with at most one message: no two readers of the grammar disagree where
the body ends. -/
theorem IsChunked.unique {body other message otherMessage : Octets}
    (first : IsChunked body message) (second : IsChunked other otherMessage)
    (same : message ++ rest = otherMessage ++ left) :
    body = other ∧ message = otherMessage ∧ rest = left := by
  induction first generalizing other otherMessage with
  | @last line trailers isLine isTrailers =>
    cases second with
    | @last otherLine otherTrailers isOtherLine isOtherTrailers =>
      have lines : line ++ crlf ++ (trailers ++ rest) =
          otherLine ++ crlf ++ (otherTrailers ++ left) := by
        simpa using same
      rcases line_inj isLine.not_mem isOtherLine.not_mem lines with ⟨rfl, after⟩
      rcases isTrailers.exists_trailers with ⟨fields, -, rfl, each⟩
      rcases isOtherTrailers.exists_trailers with ⟨otherFields, -, rfl, otherEach⟩
      rcases trailers_unique each otherEach after with ⟨rfl, rest_eq⟩
      exact ⟨rfl, rfl, rest_eq⟩
    | @chunk otherLine data others octets isOtherLine nonempty isRest =>
      have lines : line ++ crlf ++ (trailers ++ rest) =
          otherLine ++ crlf ++ (data ++ crlf ++ octets ++ left) := by
        simpa using same
      rcases line_inj isLine.not_mem isOtherLine.not_mem lines with ⟨rfl, -⟩
      exact absurd (List.length_eq_zero_iff.mp (isLine.unique isOtherLine).symm) nonempty
  | @chunk line data body octets isLine nonempty isRest ih =>
    cases second with
    | @last otherLine trailers isOtherLine isTrailers =>
      have lines : line ++ crlf ++ (data ++ crlf ++ octets ++ rest) =
          otherLine ++ crlf ++ (trailers ++ left) := by
        simpa using same
      rcases line_inj isLine.not_mem isOtherLine.not_mem lines with ⟨rfl, -⟩
      exact absurd (List.length_eq_zero_iff.mp (isLine.unique isOtherLine)) nonempty
    | @chunk otherLine otherData others otherOctets isOtherLine otherNonempty isOtherRest =>
      have lines : line ++ crlf ++ (data ++ (crlf ++ (octets ++ rest))) =
          otherLine ++ crlf ++ (otherData ++ (crlf ++ (otherOctets ++ left))) := by
        simpa using same
      rcases line_inj isLine.not_mem isOtherLine.not_mem lines with ⟨rfl, after⟩
      rcases List.append_inj after (isLine.unique isOtherLine) with ⟨rfl, ends⟩
      rcases ih isOtherRest (List.append_cancel_left ends) with ⟨rfl, rfl, rest_eq⟩
      exact ⟨rfl, rfl, rest_eq⟩

section

variable {sizeText : Nat → Octets} (minimal : ∀ size, IsMinimalSizeText (sizeText size) size)
include minimal

theorem takes_sizeLine {size : Nat} (fits : size ≤ u64Max) (limitError : Http1Error) :
    Takes (readCrlfLine maxChunkLineBytes limitError) (sizeText size) (sizeText size ++ crlf) := by
  have short := (minimal size).length_le fits
  apply takes_readCrlfLine ((minimal size).not_mem (by decide))
  rw [maxChunkLineBytes]
  omega

theorem takes_readChunksFrom {maxBodyBytes : UInt64} {total : Nat} {output : Octets}
    {chunks : List Octets} (nonempty : ∀ chunk ∈ chunks, chunk ≠ [])
    (fits : total + chunks.flatten.length ≤ maxBodyBytes.toNat) :
    Takes (readChunksFrom maxBodyBytes total output) (output ++ chunks.flatten)
      (encodeChunks sizeText chunks) := by
  induction chunks generalizing total output with
  | nil =>
    have octets_eq : encodeChunks sizeText [] = (sizeText 0 ++ crlf) ++ crlf := by
      simp [encodeChunks]
    rw [octets_eq, readChunksFrom]
    apply (takes_sizeLine minimal (Nat.zero_le _) _).bind
    apply Takes.ofExcept_bind ((minimal 0).chunkSize_eq (Nat.zero_le _))
    rw [if_pos rfl]
    apply takes_readChunkTrailers.bind_nil
    rw [List.flatten_nil, List.append_nil]
    exact Takes.pure
  | cons chunk chunks ih =>
    rw [List.forall_mem_cons] at nonempty
    rw [List.flatten_cons, List.length_append, ← Nat.add_assoc] at fits
    have sum_le : total + chunk.length ≤ maxBodyBytes.toNat := Nat.le_of_add_right_le fits
    have sum_fits : total + chunk.length ≤ u64Max :=
      Nat.le_trans sum_le (Nat.le_sub_one_of_lt maxBodyBytes.toNat_lt)
    have octets_eq : encodeChunks sizeText (chunk :: chunks) =
        (sizeText chunk.length ++ crlf) ++ (chunk ++ (crlf ++ encodeChunks sizeText chunks)) := by
      simp [encodeChunks, encodeChunk]
    rw [octets_eq, readChunksFrom]
    apply (takes_sizeLine minimal (Nat.le_of_add_left_le sum_fits) _).bind
    apply Takes.ofExcept_bind ((minimal chunk.length).chunkSize_eq (Nat.le_of_add_left_le sum_fits))
    rw [if_neg (List.length_eq_zero_iff.not.mpr nonempty.1)]
    split
    next overflows =>
      rw [checkedAdd, if_pos sum_fits] at overflows
      cases overflows
    next sum added =>
      rcases checkedAdd_eq_some_iff.mp added with ⟨rfl, -⟩
      rw [if_neg (Nat.not_lt.mpr sum_le)]
      apply (takes_readExactBody chunk).bind
      apply (takes_readExactBody crlf).bind
      rw [if_neg (not_not_intro rfl)]
      have rest : Takes (readChunksFrom maxBodyBytes (total + chunk.length) (output ++ chunk))
          (output ++ chunk ++ chunks.flatten) (encodeChunks sizeText chunks) :=
        ih nonempty.2 fits
      rwa [List.append_assoc, ← List.flatten_cons] at rest

end

/-- A body is returned only from a chunked message, of which the octets taken from the stream
consist, and is within the limit; the message of nonempty chunks within the limit is read,
however it arrives. -/
theorem readChunkedBody_exact (maxBodyBytes : UInt64) :
    KeepsTo (readChunkedBody maxBodyBytes) (fun body message =>
      body.length ≤ maxBodyBytes.toNat ∧ IsChunked body message) ∧
    ∀ sizeText : Nat → Octets, (∀ size, IsMinimalSizeText (sizeText size) size) →
      ∀ chunks : List Octets, (∀ chunk ∈ chunks, chunk ≠ []) →
        chunks.flatten.length ≤ maxBodyBytes.toNat →
        Takes (readChunkedBody maxBodyBytes) chunks.flatten (encodeChunks sizeText chunks) := by
  constructor
  · apply (keepsTo_readChunksFrom 0 [] (Nat.zero_le _)).mono
    rintro body message ⟨data, rfl, fits, isChunked⟩
    exact ⟨by simpa using fits, by simpa using isChunked⟩
  · intro sizeText minimal chunks nonempty fits
    have reads : Takes (readChunksFrom maxBodyBytes 0 []) ([] ++ chunks.flatten)
        (encodeChunks sizeText chunks) :=
      takes_readChunksFrom minimal nonempty (by simpa using fits)
    exact reads

namespace ExampleMessage

/-- A stream whose size lines arrive in two parts. -/
def input : Input :=
  [.octets (ascii "4\r"), .octets (ascii "\nWiki\r\n5\r\npedia\r\n0\r\n\r\naf"),
    .octets (ascii "ter")]

def chunks : List Octets :=
  [ascii "Wiki", ascii "pedia"]

theorem delivers_input : Delivers input (encodeChunks hexText chunks ++ ascii "after") := by
  constructor
  · simp [input, ascii]
  · rfl

theorem readChunkedBody_wikipedia :
    ∃ later, readChunkedBody 1024 input = (.ok (ascii "Wikipedia"), later) ∧
      octetsOf later = ascii "after" ∧
      ∃ message, ((ascii "Wikipedia").length ≤ 1024 ∧ IsChunked (ascii "Wikipedia") message) ∧
        octetsOf input = message ++ ascii "after" := by
  rcases readChunkedBody_exact 1024 with ⟨sound, complete⟩
  rcases complete hexText isMinimalSizeText_hexText chunks (by decide) (by decide) input
    (ascii "after") delivers_input with ⟨later, read_eq, delivers⟩
  rcases sound input _ later read_eq with ⟨message, isMessage, octets_eq⟩
  rw [delivers.octets_eq] at octets_eq
  exact ⟨later, read_eq, delivers.octets_eq, message, isMessage, octets_eq⟩

end ExampleMessage

/-- Two readers of one connection agree on where a body ends: neither the pieces that arrive,
nor the calls that fail, nor the limits, nor what follows decide it. -/
theorem readChunkedBody_agrees (maxBodyBytes otherMax : UInt64) (input other : Input)
    (body otherBody more : Octets) (later otherLater : Input)
    (extends_octets : octetsOf other = octetsOf input ++ more)
    (run : readChunkedBody maxBodyBytes input = (.ok body, later))
    (otherRun : readChunkedBody otherMax other = (.ok otherBody, otherLater)) :
    body = otherBody ∧ octetsOf otherLater = octetsOf later ++ more := by
  have keepsTo (limit : UInt64) : KeepsTo (readChunkedBody limit) IsChunked := by
    apply (keepsTo_readChunksFrom 0 [] (Nat.zero_le _)).mono
    rintro body message ⟨data, rfl, -, isChunked⟩
    simpa using isChunked
  rcases keepsTo maxBodyBytes input body later run with ⟨message, isMessage, octets_eq⟩
  rcases keepsTo otherMax other otherBody otherLater otherRun with
    ⟨otherMessage, isOtherMessage, other_eq⟩
  rw [extends_octets, octets_eq, List.append_assoc] at other_eq
  rcases isMessage.unique isOtherMessage other_eq with ⟨body_eq, -, rest_eq⟩
  exact ⟨body_eq, rest_eq.symm⟩

open ExampleMessage in
/-- The pieces of `input` against one piece with more behind it. -/
theorem readChunkedBody_agrees_wikipedia :
    ∃ later otherLater : Input, readChunkedBody 1024 input = (.ok (ascii "Wikipedia"), later) ∧
      octetsOf otherLater = octetsOf later ++ ascii "!" := by
  have takes (limit : UInt64) (fits : 9 ≤ limit.toNat) :
      Takes (readChunksFrom limit 0 []) ([] ++ chunks.flatten) (encodeChunks hexText chunks) :=
    takes_readChunksFrom isMinimalSizeText_hexText (by decide) fits
  rcases takes 1024 (by decide) input _ delivers_input with ⟨later, run, -⟩
  rcases takes 9 (by decide) [.octets (encodeChunks hexText chunks ++ ascii "after!")] _
    ⟨by simp [ascii], rfl⟩ with ⟨otherLater, otherRun, -⟩
  exact ⟨later, otherLater, run, (readChunkedBody_agrees 1024 9 input _ _ _ _ later otherLater
    rfl run otherRun).2⟩

end HnsDaneEngine.LoopbackProxy.Http1
