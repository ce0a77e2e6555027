import Mathlib.Data.UInt

/-!
# FNV-1a over UTF-16 code units

The content hash kept in a tombstone (`src/fnv.rs`).  It hashes UTF-16 code
units, as the plugin does, and prints sixteen lowercase hexadecimal digits.
-/

namespace VaultCrdtServer

/-- UTF-16 code units of one character. -/
def encodeUtf16 (char : Char) : List UInt16 :=
  if char.toNat < 0x10000 then
    [char.toNat.toUInt16]
  else
    let offset := char.toNat - 0x10000
    [(0xD800 + offset / 0x400).toUInt16, (0xDC00 + offset % 0x400).toUInt16]

/-- Sixteen lowercase hexadecimal digits, zero-padded. -/
def hex16 (value : UInt64) : String :=
  String.ofList ((List.range 16).map fun index =>
    Nat.digitChar (value.toNat / 16 ^ (15 - index) % 16))

/-- `fnv1a_64_hex`: FNV-1a, 64 bits, with wrapping multiplication. -/
def fnv1a64Hex (text : String) : String :=
  hex16 ((text.toList.flatMap encodeUtf16).foldl
    (fun hash unit => (hash ^^^ unit.toUInt64) * 0x100000001b3)
    0xcbf29ce484222325)

example : fnv1a64Hex "vaultcrdt fnv golden" = "a6a9b25f2a464e61" := by
  decide +kernel

example : fnv1a64Hex "äöü€ deleter täst" = "708d67b2a1da6d2f" := by
  decide +kernel

end VaultCrdtServer
