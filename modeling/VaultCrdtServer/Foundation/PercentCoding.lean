import Mathlib.Data.List.Basic

/-!
# Percent encoding

Bytes outside a safe set are written as triples of a percent sign and two
hexadecimal digits.  The standard decoder reads them back.
-/

namespace PercentCoding

/-- A hexadecimal digit, in upper case. -/
def hexDigit (value : Nat) : Char := (Nat.digitChar value).toUpper

/-- The value of a hexadecimal digit in either case. -/
def hexValue (byte : UInt8) : Option Nat :=
  if 0x30 ≤ byte ∧ byte ≤ 0x39 then
    some (byte.toNat - 0x30)
  else if 0x41 ≤ byte ∧ byte ≤ 0x46 then
    some (byte.toNat - 0x37)
  else if 0x61 ≤ byte ∧ byte ≤ 0x66 then
    some (byte.toNat - 0x57)
  else
    none

/-- Standard percent-decoding.  A percent sign that starts no triple stands for
itself. -/
def decode : List UInt8 → List UInt8
  | 0x25 :: high :: low :: rest =>
      match hexValue high, hexValue low with
      | some upper, some lower => UInt8.ofNat (16 * upper + lower) :: decode rest
      | _, _ => 0x25 :: decode (high :: low :: rest)
  | byte :: rest => byte :: decode rest
  | [] => []

/-- A byte, as a triple unless it is safe. -/
def encodeByte (safe : UInt8 → Bool) (byte : UInt8) : List Char :=
  if safe byte then
    [Char.ofNat byte.toNat]
  else
    ['%', hexDigit (byte.toNat / 16), hexDigit (byte.toNat % 16)]

def encode (safe : UInt8 → Bool) (bytes : List UInt8) : List Char :=
  bytes.flatMap (encodeByte safe)

/-- Texts of safe characters and triples. -/
inductive Encoded (safe : UInt8 → Bool) : List Char → Prop where
  | nil : Encoded safe []
  | safe {byte : UInt8} {rest : List Char} (unreserved : safe byte = true)
      (encoded : Encoded safe rest) : Encoded safe (Char.ofNat byte.toNat :: rest)
  | triple {high low : Nat} {rest : List Char} (upper : high < 16) (lower : low < 16)
      (encoded : Encoded safe rest) :
      Encoded safe ('%' :: hexDigit high :: hexDigit low :: rest)

/-- The bytes of an ASCII text. -/
def asciiBytes (text : List Char) : List UInt8 :=
  text.map fun c => UInt8.ofNat c.toNat

/-- Safe bytes are ASCII and not the percent sign. -/
def Reserves (safe : UInt8 → Bool) : Prop :=
  ∀ byte, safe byte = true → byte < 0x80 ∧ byte ≠ 0x25

variable {safe : UInt8 → Bool}

theorem encode_encoded (bytes : List UInt8) : Encoded safe (encode safe bytes) := by
  induction bytes with
  | nil => exact .nil
  | cons byte rest inductionHypothesis =>
      have small : byte.toNat < 256 := byte.toNat_lt
      unfold encode at inductionHypothesis ⊢
      rw [List.flatMap_cons]
      unfold encodeByte
      split
      · rename_i unreserved
        exact .safe unreserved inductionHypothesis
      · exact .triple (by omega) (by omega) inductionHypothesis

theorem hexValue_hexDigit {value : Nat} (digit : value < 16) :
    hexValue (UInt8.ofNat (hexDigit value).toNat) = some value := by
  have all : ∀ value : Fin 16, hexValue (UInt8.ofNat (hexDigit value).toNat) = some value.val := by
    decide
  exact all ⟨value, digit⟩

theorem hexDigit_ascii {value : Nat} (digit : value < 16) :
    (hexDigit value).isAlphanum = true := by
  have all : ∀ value : Fin 16, (hexDigit value).isAlphanum = true := by decide
  exact all ⟨value, digit⟩

theorem toNat_ofNat_byte (byte : UInt8) : (Char.ofNat byte.toNat).toNat = byte.toNat := by
  have small : byte.toNat < 256 := byte.toNat_lt
  have valid : byte.toNat.isValidChar := .inl (by omega)
  unfold Char.ofNat
  rw [dif_pos valid]
  rfl

/-- A byte that is no percent sign stands for itself. -/
theorem decode_cons_of_ne {byte : UInt8} (plain : byte ≠ 0x25) (rest : List UInt8) :
    decode (byte :: rest) = byte :: decode rest := by
  rw [decode]
  rintro high low rest' rfl
  exact absurd rfl plain

/-- A text without percent signs is decoded to itself. -/
theorem decode_of_not_mem {bytes : List UInt8} (plain : 0x25 ∉ bytes) :
    decode bytes = bytes := by
  induction bytes with
  | nil => rfl
  | cons byte rest inductionHypothesis =>
      rw [decode_cons_of_ne (List.ne_of_not_mem_cons plain).symm,
        inductionHypothesis (List.not_mem_of_not_mem_cons plain)]

/-- Encoded bytes are decoded to themselves. -/
theorem decode_encode (reserves : Reserves safe) (bytes : List UInt8) :
    decode (asciiBytes (encode safe bytes)) = bytes := by
  induction bytes with
  | nil => rfl
  | cons byte rest inductionHypothesis =>
      unfold encode asciiBytes at inductionHypothesis ⊢
      rw [List.flatMap_cons, List.map_append]
      by_cases unreserved : safe byte = true
      · have itself : UInt8.ofNat (Char.ofNat byte.toNat).toNat = byte := by
          rw [toNat_ofNat_byte, UInt8.ofNat_toNat]
        unfold encodeByte at inductionHypothesis ⊢
        rw [if_pos unreserved, List.map_singleton, itself, List.singleton_append,
          decode_cons_of_ne (reserves byte unreserved).2, inductionHypothesis]
      · have small : byte.toNat < 256 := byte.toNat_lt
        have parts : 16 * (byte.toNat / 16) + byte.toNat % 16 = byte.toNat := Nat.div_add_mod ..
        have percent : UInt8.ofNat '%'.toNat = 0x25 := rfl
        unfold encodeByte at inductionHypothesis ⊢
        rw [if_neg unreserved]
        simp only [List.map_cons, List.map_nil, List.cons_append, List.nil_append, percent]
        rw [decode, hexValue_hexDigit (by omega), hexValue_hexDigit (by omega)]
        dsimp only
        rw [parts, UInt8.ofNat_toNat, inductionHypothesis]

/-- The characters of an encoded text. -/
theorem mem_encode
    {bytes : List UInt8}
    {c : Char}
    (member : c ∈ encode safe bytes) :
    c = '%' ∨ c.isAlphanum = true ∨ ∃ byte, safe byte = true ∧ c = Char.ofNat byte.toNat := by
  obtain ⟨byte, -, inside⟩ := List.mem_flatMap.mp member
  have small : byte.toNat < 256 := byte.toNat_lt
  unfold encodeByte at inside
  split at inside
  · rename_i unreserved
    exact .inr (.inr ⟨byte, unreserved, List.mem_singleton.mp inside⟩)
  · simp only [List.mem_cons, List.not_mem_nil, or_false] at inside
    rcases inside with rfl | rfl | rfl
    · exact .inl rfl
    · exact .inr (.inl (hexDigit_ascii (by omega)))
    · exact .inr (.inl (hexDigit_ascii (by omega)))

end PercentCoding
