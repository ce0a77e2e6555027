import VaultCrdtServer.VvSerde
import VaultCrdtServer.Blobs.Naming

/-!
# Bytes in the blob lane

The checks of `src/blobs.rs` on the bytes of a blob, and `Content-Range`.  The
BLAKE3 digest and the filter of `svg_hush` are taken as given.
-/

namespace VaultCrdtServer

/-- `SEGMENT_BYTES` -/
def segmentBytes : Nat := 4 * 1024 * 1024

/-- `SEGMENT_BODY_GUARD` -/
def segmentBodyGuard : Nat := segmentBytes + 4 * 1024

/-- The libraries that look at the bytes of a blob. -/
structure BlobLibraries where
  /-- `blake3::hash(bytes).to_hex()` -/
  blake3Hex : Bytes → String
  /-- `svg_filter_output`, `none` where the filter fails. -/
  svgFilterOutput : Bytes → Option Bytes

/-- `u8::is_ascii_whitespace` -/
def isAsciiWhitespace (byte : UInt8) : Bool :=
  byte == 0x20 || byte == 0x09 || byte == 0x0A || byte == 0x0C || byte == 0x0D

/-- The bytes of `<svg`. -/
def svgTag : Bytes := [0x3C, 0x73, 0x76, 0x67]

/-- The bytes of ` >/` and of tab, line feed and carriage return. -/
def isSvgDelimiter (byte : UInt8) : Bool :=
  byte == 0x20 || byte == 0x3E || byte == 0x2F ||
    byte == 0x09 || byte == 0x0A || byte == 0x0D

/-- `<svg` and a delimiter appear somewhere. -/
def containsSvgTag : Bytes → Bool
  | [] => false
  | byte :: rest =>
      (match (byte :: rest).dropPrefix? svgTag with
        | some (delimiter :: _) => isSvgDelimiter delimiter
        | _ => false) ||
      containsSvgTag rest

/-- `looks_like_svg` -/
def looksLikeSvg (bytes : Bytes) : Bool :=
  let unmarked := (bytes.dropPrefix? [0xEF, 0xBB, 0xBF]).getD bytes
  match unmarked.dropWhile isAsciiWhitespace with
  | first :: _ => first == 0x3C && containsSvgTag (bytes.take 4096)
  | [] => false

namespace BlobLibraries

variable (libraries : BlobLibraries)

/-- `svg_at_fixpoint`, `none` where the filter fails. -/
def svgAtFixpoint (bytes : Bytes) : Option Bool :=
  (libraries.svgFilterOutput bytes).map fun output => output == bytes

/-- `svg_fixpoint_error` -/
def svgFixpointError (bytes : Bytes) : Option String :=
  match libraries.svgAtFixpoint bytes with
  | some true => none
  | some false => some "svg_not_sanitized"
  | none => some "svg_invalid"

/-- The filter returns the bytes unchanged. -/
def Sanitized (bytes : Bytes) : Prop :=
  libraries.svgFilterOutput bytes = some bytes

theorem svgFixpointError_eq_none_iff {bytes : Bytes} :
    libraries.svgFixpointError bytes = none ↔ libraries.Sanitized bytes := by
  unfold svgFixpointError svgAtFixpoint Sanitized
  cases libraries.svgFilterOutput bytes with
  | none => simp
  | some output =>
      by_cases same : output = bytes
      · simp [same]
      · simp [same, beq_eq_false_iff_ne.mpr same]

end BlobLibraries

/-! ## Content-Range -/

/-- `u64::MAX` -/
def u64Max : Nat := 18446744073709551615

/-- `u64::saturating_add` -/
def saturatingAdd (first second : Nat) : Nat :=
  min (first + second) u64Max

/-- A parsed `Content-Range`. -/
structure ContentRange where
  /-- First byte of the segment. -/
  first : Nat
  /-- Last byte of the segment. -/
  last : Nat
  /-- Size of the whole file. -/
  size : Nat
  deriving DecidableEq

/-- `str::parse::<u64>().ok()` -/
def u64OfChars (text : List Char) : Option Nat :=
  match parseU64 (String.ofList text) with
  | .ok value => some value.toNat
  | .error _ => none

/-- `parse_content_range` -/
def parseContentRange (header : String) : Option ContentRange := do
  let rest ← header.toList.dropPrefix? "bytes ".toList
  let (range, total) ← splitOnce '/' rest
  let (first, last) ← splitOnce '-' range
  if first = [] ∨ last = [] then
    none
  else
    some
      { first := ← u64OfChars first
        last := ← u64OfChars last
        size := ← u64OfChars total }

/-- What `parse_byte_range` makes of a `Range` header. -/
inductive ByteRange
  /-- `Err(())`: the header is ignored. -/
  | ignored
  | unsatisfiable
  | range (first last : Nat)
  deriving DecidableEq

/-- Number in a `Range` header, or the header is ignored. -/
def withU64 (text : List Char) (next : Nat → ByteRange) : ByteRange :=
  match u64OfChars text with
  | some value => next value
  | none => .ignored

/-- `str::trim` on the value of a header: the four ASCII characters of
`Char.isWhitespace` are trimmed, of which only spaces and tabs occur in one. -/
def trimChars (text : List Char) : List Char :=
  ((text.dropWhile Char.isWhitespace).reverse.dropWhile Char.isWhitespace).reverse

/-- `parse_byte_range` -/
def parseByteRange (header : String) (total : Nat) : ByteRange :=
  match header.toList.dropPrefix? "bytes=".toList with
  | none => .ignored
  | some specs =>
      let spec := trimChars (specs.takeWhile fun c => c != ',')
      if spec = [] then
        .ignored
      else if spec.getLast? = some '-' ∧ spec.dropLast ≠ [] then
        withU64 spec.dropLast fun start =>
          if total = 0 ∨ total ≤ start then .unsatisfiable
          else .range start (total - 1)
      else
        match spec with
        | '-' :: suffix =>
            withU64 suffix fun length =>
              if length = 0 ∨ total = 0 then .unsatisfiable
              else .range (total - min length total) (total - 1)
        | _ =>
            match splitOnce '-' spec with
            | none => .ignored
            | some (first, last) =>
                withU64 first fun start => withU64 last fun last =>
                  if last < start ∨ total = 0 ∨ total ≤ start then .unsatisfiable
                  else .range start (min last (total - 1))

example : parseContentRange "bytes 0-4/5" = some ⟨0, 4, 5⟩ := by decide +kernel

end VaultCrdtServer
