import Mathlib
import VaultCrdtServer.Access.Handlers
import VaultCrdtServer.Blobs.Keys
import VaultCrdtServer.Foundation.PercentCoding

/-!
# Setup links

The link that sets up a device carries the address of the server, the vault and,
where one was minted, an invite.  Only the address is encoded.
-/

namespace VaultCrdtServer

open PercentCoding

/-- A value as it is read from a link. -/
def percentDecode (value : List Char) : Option String :=
  String.fromUTF8? ⟨(decode (utf8Bytes (String.ofList value))).toArray⟩

/-- The parameters of a link: it is split at question marks, its query at
ampersands and every parameter at equals signs. -/
def linkParameters (uri : String) : Option (List (String × String)) :=
  match uri.toList.splitOn '?' with
  | [_, query] =>
      (query.splitOn '&').mapM fun parameter =>
        match parameter.splitOn '=' with
        | [name, value] => (percentDecode value).map fun value => (String.ofList name, value)
        | _ => none
  | _ => none

/-- What has been put into a setup link. -/
def setupParameters (serverUrl vaultId : String) (invite : Option String) :
    List (String × String) :=
  [("v", "1"), ("server", serverUrl), ("vaultId", vaultId)] ++
    (invite.map fun token => ("invite", token)).toList

/-- The same, as it is written. -/
def writtenParameters (serverUrl vaultId : String) (invite : Option String) :
    List (String × String) :=
  [("v", "1"), ("server", percentEncode serverUrl), ("vaultId", vaultId)] ++
    (invite.map fun token => ("invite", token)).toList

/-! ## Values -/

theorem isUnreserved_reserves : Reserves isUnreserved := by
  have all : ∀ byte : Fin 256, isUnreserved (UInt8.ofNat byte) = true →
      UInt8.ofNat byte < 0x80 ∧ UInt8.ofNat byte ≠ 0x25 := by
    decide +kernel
  intro byte unreserved
  have checked := all ⟨byte.toNat, byte.toNat_lt⟩
  rw [UInt8.ofNat_toNat] at checked
  exact checked unreserved

theorem toList_percentEncode (value : String) :
    (percentEncode value).toList = encode isUnreserved (utf8Bytes value) := by
  unfold percentEncode encode
  rw [String.toList_join, List.flatMap_map]
  refine List.flatMap_congr ?_
  intro byte _
  unfold encodeByte hexDigit
  split
  · exact String.toList_singleton _
  · simp

theorem fromUTF8?_utf8Bytes (value : String) :
    String.fromUTF8? ⟨(utf8Bytes value).toArray⟩ = some value := by
  have whole : (⟨(utf8Bytes value).toArray⟩ : ByteArray) = value.toByteArray := by
    simp [utf8Bytes]
  rw [whole]
  unfold String.fromUTF8?
  rw [dif_pos value.isValidUTF8]
  rfl

/-- The bytes of an ASCII text. -/
theorem utf8Bytes_of_ascii
    {text : String}
    (ascii : ∀ c ∈ text.toList, c.toNat < 0x80) :
    utf8Bytes text = asciiBytes text.toList := by
  have bytes : utf8Bytes text = text.toList.flatMap String.utf8EncodeChar := by
    rw [utf8Bytes, String.toUTF8_eq_toByteArray, ← String.utf8Encode_toList]
    simp [List.utf8Encode]
  rw [bytes]
  unfold asciiBytes
  rw [List.map_eq_flatMap]
  refine List.flatMap_congr ?_
  intro c member
  have small : c.val ≤ 127 := by
    have below := ascii c member
    rw [UInt32.le_iff_toNat_le]
    change c.toNat ≤ 127
    omega
  rw [String.utf8EncodeChar_eq_singleton (Char.utf8Size_eq_one_iff.mpr small)]
  rfl

/-- The unreserved characters. -/
def unreservedChar (c : Char) : Bool := c.isAlphanum || ['-', '.', '_', '~'].contains c

theorem unreservedChar_ascii {c : Char} (plain : unreservedChar c = true) :
    c.toNat < 0x80 ∧ c ≠ '%' := by
  simp only [unreservedChar, Bool.or_eq_true, List.contains_eq_mem, List.mem_cons,
    List.not_mem_nil, or_false, decide_eq_true_eq] at plain
  rcases plain with alphanumeric | rfl | rfl | rfl | rfl
  · refine ⟨?_, ?_⟩
    · simp only [Char.isAlphanum, Char.isAlpha, Char.isUpper, Char.isLower, Char.isDigit,
        Bool.or_eq_true, Bool.and_eq_true, decide_eq_true_eq, ge_iff_le,
        UInt32.le_iff_toNat_le, Char.reduceVal, UInt32.reduceToNat] at alphanumeric
      change c.val.toNat < 128
      omega
    · rintro rfl
      exact absurd alphanumeric (by decide)
  all_goals decide

/-- A value as it stands in a link. -/
def Plain (text : String) : Prop := ∀ c ∈ text.toList, c = '%' ∨ unreservedChar c = true

instance (text : String) : Decidable (Plain text) := List.decidableBAll _ _

theorem plain_percentEncode (value : String) : Plain (percentEncode value) := by
  intro c member
  rw [toList_percentEncode] at member
  rcases mem_encode member with same | alphanumeric | ⟨byte, unreserved, rfl⟩
  · exact .inl same
  · exact .inr (by simp [unreservedChar, alphanumeric])
  · exact .inr unreserved

theorem plain_ascii
    {text : String}
    (plain : Plain text) :
    ∀ c ∈ text.toList, c.toNat < 0x80 := by
  intro c member
  rcases plain c member with rfl | unreserved
  · decide
  · exact (unreservedChar_ascii unreserved).1

theorem percentDecode_percentEncode (value : String) :
    percentDecode (percentEncode value).toList = some value := by
  unfold percentDecode
  rw [String.ofList_toList, utf8Bytes_of_ascii (plain_ascii (plain_percentEncode value)),
    toList_percentEncode,
    decode_encode isUnreserved_reserves, fromUTF8?_utf8Bytes]

/-- What is unreserved is not encoded. -/
theorem percentDecode_of_unreserved
    {value : String}
    (unreserved : ∀ c ∈ value.toList, unreservedChar c = true) :
    percentDecode value.toList = some value := by
  have ascii : ∀ c ∈ value.toList, c.toNat < 0x80 :=
    fun c member => (unreservedChar_ascii (unreserved c member)).1
  have plain : 0x25 ∉ utf8Bytes value := by
    rw [utf8Bytes_of_ascii ascii]
    intro member
    obtain ⟨c, inside, same⟩ := List.mem_map.mp member
    have small := ascii c inside
    have code : c.toNat = '%'.toNat := by
      have equal := congrArg UInt8.toNat same
      rwa [UInt8.toNat_ofNat', Nat.mod_eq_of_lt (by omega)] at equal
    exact (unreservedChar_ascii (unreserved c inside)).2 (Char.toNat_inj.mp code)
  unfold percentDecode
  rw [String.ofList_toList, decode_of_not_mem plain, fromUTF8?_utf8Bytes]

/-- A vault needs no encoding. -/
theorem unreserved_of_validVaultId
    {vaultId : String}
    (valid : validVaultId vaultId = true) :
    ∀ c ∈ vaultId.toList, unreservedChar c = true := by
  intro c member
  unfold validVaultId at valid
  split at valid
  · cases valid
  · simp only [Bool.and_eq_true, List.all_eq_true, Bool.or_eq_true, beq_iff_eq] at valid
    rcases valid.1.2 c member with ((lower | digit) | rfl) | rfl
    · simp [unreservedChar, Char.isAlphanum, Char.isAlpha, lower]
    · simp [unreservedChar, Char.isAlphanum, digit]
    all_goals decide

/-- An invite needs no encoding. -/
theorem unreserved_of_inviteAlphabet
    {c : Char}
    (member : c ∈ inviteAlphabet.toList) :
    unreservedChar c = true := by
  have all : inviteAlphabet.toList.all unreservedChar = true := by decide +kernel
  exact List.all_eq_true.mp all c member

/-! ## Links -/

theorem mapM_congr_of_mem
    {f g : α → Option β}
    {list : List α}
    (agree : ∀ element ∈ list, f element = g element) :
    list.mapM f = list.mapM g := by
  induction list with
  | nil => rfl
  | cons first rest inductionHypothesis =>
      rw [List.mapM_cons, List.mapM_cons, agree first List.mem_cons_self,
        inductionHypothesis fun element member => agree element (List.mem_cons_of_mem _ member)]

/-- No value is split. -/
theorem not_mem_of_plain
    {text : String}
    {separator : Char}
    (plain : Plain text)
    (separates : ['?', '&', '='].contains separator = true) :
    separator ∉ text.toList := by
  intro member
  simp only [List.contains_eq_mem, List.mem_cons, List.not_mem_nil, or_false,
    decide_eq_true_eq] at separates
  have splits := plain separator member
  rcases separates with rfl | rfl | rfl <;> exact absurd splits (by decide)

/-- A link whose names and values are not split is split into them. -/
theorem linkParameters_of_plain
    {base : String}
    {written : List (String × String)}
    (before : '?' ∉ base.toList)
    (some' : written ≠ [])
    (plain : ∀ parameter ∈ written, Plain parameter.1 ∧ Plain parameter.2) :
    linkParameters (String.ofList (base.toList ++ '?' :: ['&'].intercalate
        (written.map fun parameter => parameter.1.toList ++ '=' :: parameter.2.toList))) =
      written.mapM fun parameter =>
        (percentDecode parameter.2.toList).map fun value => (parameter.1, value) := by
  have absent : ∀ parameter ∈ written, ∀ separator,
      ['?', '&', '='].contains separator = true →
      separator ∉ parameter.1.toList ∧ separator ∉ parameter.2.toList :=
    fun parameter member separator separates =>
      ⟨not_mem_of_plain (plain parameter member).1 separates,
        not_mem_of_plain (plain parameter member).2 separates⟩
  have parameters : ∀ separator, ['?', '&'].contains separator = true →
      ∀ text ∈ written.map fun parameter => parameter.1.toList ++ '=' :: parameter.2.toList,
        separator ∉ text := by
    intro separator separates text member
    obtain ⟨parameter, among, rfl⟩ := List.mem_map.mp member
    obtain ⟨name, value⟩ := absent parameter among separator (by
      simp at separates ⊢
      tauto)
    have other : separator ≠ '=' := by
      rintro rfl
      exact absurd separates (by decide)
    simp [name, value, other]
  have separated := parameters '&' (by decide)
  have listed := List.splitOn_intercalate '&' separated (by simpa using some')
  have query : '?' ∉ ['&'].intercalate
      (written.map fun parameter => parameter.1.toList ++ '=' :: parameter.2.toList) := by
    intro member
    have placed : '?' = '&' ∨ ∃ text ∈ (['&'].intercalate (written.map fun parameter =>
        parameter.1.toList ++ '=' :: parameter.2.toList)).splitOn '&', '?' ∈ text :=
      mem_splitOn member
    rcases placed with same | ⟨text, among, inside⟩
    · exact absurd same (by decide)
    · rw [listed] at among
      exact parameters '?' (by decide) text among inside
  have halves : base.toList ++ '?' :: ['&'].intercalate
      (written.map fun parameter => parameter.1.toList ++ '=' :: parameter.2.toList) =
      ['?'].intercalate [base.toList, ['&'].intercalate
        (written.map fun parameter => parameter.1.toList ++ '=' :: parameter.2.toList)] := by
    simp [List.intercalate]
  unfold linkParameters
  rw [String.toList_ofList, halves, List.splitOn_intercalate '?' (by simp [before, query])
    (by simp)]
  dsimp only
  rw [listed, List.mapM_map]
  refine mapM_congr_of_mem ?_
  intro parameter member
  have value := absent parameter member '=' (by decide)
  have sides : parameter.1.toList ++ '=' :: parameter.2.toList =
      ['='].intercalate [parameter.1.toList, parameter.2.toList] := by
    simp [List.intercalate]
  rw [Function.comp_apply, sides,
    List.splitOn_intercalate '=' (by simp [value.1, value.2]) (by simp)]
  dsimp only
  rw [String.ofList_toList]

/-- Setup links decode to what was put in. -/
theorem setup_links_decode :
    (∀ value : String, Encoded isUnreserved (percentEncode value).toList ∧
      decode (utf8Bytes (percentEncode value)) = utf8Bytes value) ∧
    ∀ (serverUrl vaultId : String) (invite : Option String),
      validVaultId vaultId = true →
      (∀ token ∈ invite, token.length = 22 ∧ ∀ c ∈ token.toList, c ∈ inviteAlphabet.toList) →
      linkParameters (setupUri serverUrl vaultId invite) =
        some (setupParameters serverUrl vaultId invite) := by
  refine ⟨?_, ?_⟩
  · intro value
    have ascii : ∀ c ∈ (percentEncode value).toList, c.toNat < 0x80 :=
      plain_ascii (plain_percentEncode value)
    rw [utf8Bytes_of_ascii ascii, toList_percentEncode]
    exact ⟨encode_encoded _, decode_encode isUnreserved_reserves _⟩
  · intro serverUrl vaultId invite valid drawn
    have vault := unreserved_of_validVaultId valid
    have token : ∀ token ∈ invite, ∀ c ∈ token.toList, unreservedChar c = true :=
      fun token given c member => unreserved_of_inviteAlphabet ((drawn token given).2 c member)
    have plain : ∀ parameter ∈ writtenParameters serverUrl vaultId invite,
        Plain parameter.1 ∧ Plain parameter.2 := by
      have named : ∀ name ∈ ["v", "1", "server", "vaultId", "invite"], Plain name := by decide
      simp only [writtenParameters, List.mem_append, List.mem_cons, List.not_mem_nil, or_false,
        Option.mem_toList, Option.map_eq_some_iff]
      rintro parameter ((rfl | rfl | rfl) | ⟨token', given, rfl⟩)
      · exact ⟨named _ (by decide), named _ (by decide)⟩
      · exact ⟨named "server" (by decide), plain_percentEncode serverUrl⟩
      · exact ⟨named "vaultId" (by decide), fun c member => .inr (vault c member)⟩
      · exact ⟨named "invite" (by decide), fun c member => .inr (token token' given c member)⟩
    have link : setupUri serverUrl vaultId invite =
        String.ofList ("obsidian://vaultcrdt/setup".toList ++ '?' :: ['&'].intercalate
          ((writtenParameters serverUrl vaultId invite).map fun parameter =>
            parameter.1.toList ++ '=' :: parameter.2.toList)) := by
      rw [← String.toList_inj, String.toList_ofList]
      unfold setupUri writtenParameters
      cases invite <;> simp [List.intercalate]
    rw [link, linkParameters_of_plain (by decide) (by simp [writtenParameters]) plain]
    have version : percentDecode ['1'] = some "1" :=
      @percentDecode_of_unreserved "1" (List.all_eq_true.1 (by decide))
    cases invite with
    | none =>
        simp [writtenParameters, setupParameters, version, percentDecode_percentEncode,
          percentDecode_of_unreserved vault]
    | some token' =>
        simp [writtenParameters, setupParameters, version, percentDecode_percentEncode,
          percentDecode_of_unreserved vault, percentDecode_of_unreserved (token token' rfl)]

/-- An address with separators of its own, and an invite. -/
theorem setup_links_decode_separators :
    linkParameters (setupUri "https://notes.example/ä?v=2&vaultId=b#%26" "notes_1"
        (some "abcdefghijklmnopqrst_-")) =
      some [("v", "1"), ("server", "https://notes.example/ä?v=2&vaultId=b#%26"),
        ("vaultId", "notes_1"), ("invite", "abcdefghijklmnopqrst_-")] :=
  setup_links_decode.2 "https://notes.example/ä?v=2&vaultId=b#%26" "notes_1"
    (some "abcdefghijklmnopqrst_-") (by decide) (by
      rintro token ⟨⟩
      have drawn : "abcdefghijklmnopqrst_-".toList ⊆ inviteAlphabet.toList := by decide
      exact ⟨by decide, fun c member => drawn member⟩)

end VaultCrdtServer
