import VaultCrdtServer.Errors
import VaultCrdtServer.Loro
import Mathlib.Data.Finset.Sort

/-!
# Wire form of version vectors

`src/vv_serde.rs`: on the wire a version vector is a JSON object with decimal
peer ids as keys and counters as values.  Reading and writing JSON is left to
`SerdeJson`.
-/

namespace VaultCrdtServer

/-- Bytes of a JSON document. -/
abbrev Bytes := List UInt8

/-- `serde_json` on maps from strings to 32-bit integers. -/
structure SerdeJson where
  /-- `serde_json::to_vec` on a map with these entries, in this order. -/
  toVec : List (String × Int32) → Bytes
  /-- `serde_json::from_slice`, with the entries of the map it returns. -/
  fromSlice : Bytes → Except String (List (String × Int32))

/-- Ascending order of peer ids. -/
def PeerLE (first second : UInt64) : Prop := first.toNat ≤ second.toNat

instance : DecidableRel PeerLE :=
  fun first second => inferInstanceAs (Decidable (first.toNat ≤ second.toNat))

instance : IsTrans UInt64 PeerLE := ⟨fun _ _ _ => Nat.le_trans⟩

instance : Std.Antisymm PeerLE :=
  ⟨fun _ _ below above => UInt64.toNat_inj.mp (Nat.le_antisymm below above)⟩

instance : Std.Total PeerLE :=
  ⟨fun first second => Nat.le_total first.toNat second.toNat⟩

/-- Entries of a version vector.  The hash map's iteration order is
unspecified; the entries are taken in ascending order of peers. -/
def VersionVector.entries (vv : VersionVector) : List (UInt64 × Int32) :=
  (vv.keys.sort PeerLE).filterMap fun peer =>
    (vv.lookup peer).map fun counter => (peer, counter)

/-- `vv_to_json_bytes` -/
def vvToJsonBytes (json : SerdeJson) (vv : VersionVector) : Bytes :=
  json.toVec ((VersionVector.entries vv).map fun entry =>
    (toString entry.1, entry.2))

/-- One digit of `str::parse::<u64>`. -/
def parseDigit (total : Nat) (char : Char) : Except String Nat :=
  if char.isDigit then
    let value := 10 * total + (char.toNat - '0'.toNat)
    if value < 2 ^ 64 then
      .ok value
    else
      .error "number too large to fit in target type"
  else
    .error "invalid digit found in string"

/-- `str::parse::<u64>`: an optional plus sign and at least one digit, without
overflow. -/
def parseU64 (text : String) : Except String UInt64 :=
  match text.toList with
  | [] => .error "cannot parse integer from empty string"
  | ['+'] => .error "invalid digit found in string"
  | '+' :: digits => UInt64.ofNat <$> digits.foldlM parseDigit 0
  | digits => UInt64.ofNat <$> digits.foldlM parseDigit 0

/-- `vv_from_json_bytes` -/
def vvFromJsonBytes
    (json : SerdeJson)
    (bytes : Bytes) : Except ServerError VersionVector :=
  match json.fromSlice bytes with
  | .error reason => .error (.sync s!"invalid VV JSON: {reason}")
  | .ok entries =>
      entries.foldlM (fun (vv : VersionVector) entry =>
        match parseU64 entry.1 with
        | .ok peer => .ok (vv.insert peer entry.2)
        | .error reason =>
            .error (.sync s!"invalid peer ID in VV: {reason}")) ∅

end VaultCrdtServer
