import HnsDaneEngine.Encoding.Arrivals
import HnsDaneEngine.LoopbackProxy.Request

/-!
# Chunked request bodies

The body of a request is read from a blocking socket without reading past its end, so
lines are taken octet by octet.
-/

namespace HnsDaneEngine.LoopbackProxy.Http1

open Arrivals Control
open NamespaceResolution (toAsciiLowercase)
open Primitives (checkedAdd checkedAdd_eq_some_iff u64Max)

def maxRequestHeaders : Nat := 256

def maxChunkLineBytes : Nat := 8 * 1024

def maxChunkTrailerBytes : Nat := 64 * 1024

/-- A failed call, apart from the ones that are made again. -/
inductive IoError
  | interrupted
  | other (kind : Nat)

/-- Failure to read a body. -/
inductive Http1Error
  | io (error : IoError)
  | bodyTooLarge
  | unexpectedBodyEof
  | invalidChunkedBody
  | trailersTooLarge

abbrev Input :=
  List (Arrival IoError)

abbrev Reader (α : Type) :=
  Effect Input Http1Error α

/-- Fill a buffer of a size. -/
def readExactBody : Nat → Reader Octets
  | size, input =>
    if size = 0 then (.ok [], input)
    else
      match _called : read size input with
      | (.ok [], later) => (.error .unexpectedBodyEof, later)
      | (.ok (byte :: piece), later) =>
        match readExactBody (size - (byte :: piece).length) later with
        | (.ok rest, final) => (.ok (byte :: piece ++ rest), final)
        | (.error error, final) => (.error error, final)
      | (.error .interrupted, later) => readExactBody size later
      | (.error (.other kind), later) => (.error (.io (.other kind)), later)
termination_by size input => (size, input.length)
decreasing_by
  · apply Prod.Lex.left
    simp only [List.length_cons]
    omega
  · rw [read_error _called]
    apply Prod.Lex.right
    simp

def crlf : Octets :=
  [13, 10]

def readByte : Reader Octets :=
  Effect.mapError .io (read 1)

/-- The rest of a line of which a part is read, with room for more octets. -/
def readCrlfLineFrom (limitError : Http1Error) : Octets → Nat → Reader Octets
  | _, 0 => Effect.throw limitError
  | line, room + 1 => do
    match ← readByte with
    | [] => Effect.throw .unexpectedBodyEof
    | byte :: _ =>
      let line := line ++ [byte]
      if crlf.isSuffixOf line then return line.take (line.length - 2)
      else if byte = 10 then Effect.throw .invalidChunkedBody
      else readCrlfLineFrom limitError line room

def readCrlfLine (limit : Nat) (limitError : Http1Error) : Reader Octets :=
  readCrlfLineFrom limitError [] limit

def isHttpToken (value : Octets) : Bool :=
  !value.isEmpty && value.all isFieldNameOctet

/-- A tab or a printable octet. -/
def isTextOctet (byte : UInt8) : Bool :=
  byte == 9 || (32 ≤ byte && byte ≤ 126)

/-- An octet that stands for itself between quotes: neither a quote nor a backslash. -/
def isQuotableOctet (byte : UInt8) : Bool :=
  byte == 9 || byte == 32 || byte == 33 || (35 ≤ byte && byte ≤ 91) || (93 ≤ byte && byte ≤ 126)

/-- The scan of the text between quotes; the flag says whether a backslash came last. -/
def isQuotedText : Bool → Octets → Bool
  | escaped, [] => !escaped
  | true, byte :: rest => isTextOctet byte && isQuotedText false rest
  | false, byte :: rest =>
    if byte = 92 then isQuotedText true rest
    else isQuotableOctet byte && isQuotedText false rest

def isValidQuotedString : Octets → Bool
  | [] => false
  | byte :: rest =>
    byte == 34 && rest.getLast? == some 34 && isQuotedText false rest.dropLast

/-- One extension without its semicolon: a name, or a name and its value. -/
def isValidChunkExtension (extension : Octets) : Bool :=
  match splitOnce 61 extension with
  | none => isHttpToken extension
  | some (name, value) => isHttpToken name && (isHttpToken value || isValidQuotedString value)

def validateChunkExtensions : Octets → Except Http1Error PUnit
  | [] => .ok ⟨⟩
  | byte :: extensions =>
    if byte ≠ 59 then .error .invalidChunkedBody
    else if !isValidChunkExtension (extensions.takeWhile (· != 59)) then
      .error .invalidChunkedBody
    else validateChunkExtensions (extensions.dropWhile (· != 59))
termination_by extensions => extensions.length
decreasing_by
  simp only [List.length_cons]
  exact Nat.lt_succ_of_le (List.dropWhile_sublist _).length_le

def hexDigitValue (byte : UInt8) : Nat :=
  if byte ≤ 57 then byte.toNat - 48
  else if byte ≤ 70 then byte.toNat - 55
  else byte.toNat - 87

/-- The number that hexadecimal digits stand for. -/
def hexValue (text : Octets) : Nat :=
  text.foldl (fun value byte => 16 * value + hexDigitValue byte) 0

/-- `u64::from_str_radix` with radix 16, on a text of digits. -/
def fromStrRadix16 (text : Octets) : Option Nat :=
  if hexValue text ≤ u64Max then some (hexValue text) else none

/-- The size that the line before a chunk states. -/
def chunkSize (line : Octets) : Except Http1Error Nat :=
  let sizeText := line.takeWhile (· != 59)
  if sizeText.isEmpty || !sizeText.all isAsciiHexdigit then .error .invalidChunkedBody
  else do
    validateChunkExtensions (line.dropWhile (· != 59))
    match fromStrRadix16 sizeText with
    | none => throw .invalidChunkedBody
    | some size => return size

/-- A header field. -/
structure Header where
  name : Octets
  value : Octets

def isValidFieldValue (value : Octets) : Bool :=
  value.all isTextOctet

/-- The name and the value are ASCII, so the conversions to text succeed. -/
def parseSingleHeaderLine (line : Octets) : Except Http1Error Header :=
  if line.isEmpty || line.head?.any isBlank then .error .invalidChunkedBody
  else
    match splitOnce 58 line with
    | none => .error .invalidChunkedBody
    | some (name, rest) =>
      let value := trimMatches isBlank rest
      if !isHttpToken name || !isValidFieldValue value then .error .invalidChunkedBody
      else .ok ⟨name, value⟩

def isHopByHop (lowerName : Octets) : Bool :=
  [ascii "connection", ascii "keep-alive", ascii "proxy-authenticate",
    ascii "proxy-authorization", ascii "proxy-connection", ascii "te", ascii "trailer",
    ascii "transfer-encoding", ascii "upgrade"].contains lowerName

/-- Fields that may not follow the chunks. -/
def isForbiddenTrailer (name : Octets) : Bool :=
  let lower := name.map toAsciiLowercase
  isHopByHop lower || lower == ascii "content-length" || lower == ascii "host" ||
    (ascii "proxy-").isPrefixOf lower || (ascii "x-hns-").isPrefixOf lower

/-- The trailers after some that took up a number of octets. -/
def readChunkTrailersFrom (consumed count : Nat) : Reader PUnit :=
  if maxChunkTrailerBytes < consumed ∨ maxChunkTrailerBytes - consumed < 2 then
    Effect.throw .trailersTooLarge
  else do
    let line ← readCrlfLine (min (maxChunkTrailerBytes - consumed) maxChunkLineBytes)
      .invalidChunkedBody
    if line.isEmpty then return ⟨⟩
    else if maxRequestHeaders < count + 1 then Effect.throw .invalidChunkedBody
    else do
      let header ← Effect.ofExcept (parseSingleHeaderLine line)
      if isForbiddenTrailer header.name then Effect.throw .invalidChunkedBody
      else readChunkTrailersFrom (consumed + (line.length + 2)) (count + 1)
termination_by maxRequestHeaders - count
decreasing_by omega

def readChunkTrailers : Reader PUnit :=
  readChunkTrailersFrom 0 0

/-- The chunks after some that brought a part of the body. -/
def readChunksFrom (maxBodyBytes : UInt64) (total : Nat) (output : Octets) :
    Reader Octets := do
  let line ← readCrlfLine maxChunkLineBytes .invalidChunkedBody
  let size ← Effect.ofExcept (chunkSize line)
  if size = 0 then do
    readChunkTrailers
    return output
  else
    match _added : checkedAdd total size with
    | none => Effect.throw .bodyTooLarge
    | some total =>
      if maxBodyBytes.toNat < total then Effect.throw .bodyTooLarge
      else do
        let data ← readExactBody size
        let ending ← readExactBody 2
        if ending ≠ crlf then Effect.throw .invalidChunkedBody
        else readChunksFrom maxBodyBytes total (output ++ data)
termination_by maxBodyBytes.toNat - total
decreasing_by
  rcases checkedAdd_eq_some_iff.mp _added with ⟨rfl, -⟩
  omega

def readChunkedBody (maxBodyBytes : UInt64) : Reader Octets :=
  readChunksFrom maxBodyBytes 0 []

end HnsDaneEngine.LoopbackProxy.Http1
