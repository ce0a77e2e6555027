import VaultCrdtServer.Db
import VaultCrdtServer.Decimals

/-!
# Version vectors on the wire

A version vector is read back from any of the objects it can be written as, so
that no object stands for two vectors, and the sentinel for a vector that cannot
be decoded is no such object.
-/

namespace VaultCrdtServer

/-- The white space of JSON. -/
def isJsonSpace (byte : UInt8) : Bool :=
  byte == 0x20 || byte == 0x09 || byte == 0x0A || byte == 0x0D

/-- The documented behaviour of `serde_json` on maps. -/
structure SerdeJson.Faithful (json : SerdeJson) : Prop where
  /-- A map with decimal keys is read back, its entries in any order. -/
  reads : ∀ written : List (String × Int32), (written.map Prod.fst).Nodup →
    (∀ entry ∈ written, ∃ key : UInt64, entry.1 = toString key) →
    ∃ read, json.fromSlice (json.toVec written) = .ok read ∧ read.Perm written
  /-- What is read as a map starts with a brace. -/
  objects : ∀ bytes entries, json.fromSlice bytes = .ok entries →
    (bytes.dropWhile isJsonSpace).head? = some 0x7B

/-- The bytes are the vector, its entries written in some order. -/
def Encodes (json : SerdeJson) (vv : VersionVector) (bytes : Bytes) : Prop :=
  ∃ entries : List (UInt64 × Int32), entries.Perm (VersionVector.entries vv) ∧
    bytes = json.toVec (entries.map fun entry => (toString entry.1, entry.2))

/-! ## Peers -/

theorem parseU64_toString_peer (peer : UInt64) : parseU64 (toString peer) = .ok peer := by
  have fits : peer.toNat < 2 ^ 64 := peer.toNat_lt
  change parseU64 (toString peer.toNat) = .ok peer
  rw [parseU64_toString_of_lt fits, UInt64.ofNat_toNat]

theorem toString_peer_injective : Function.Injective (toString : UInt64 → String) := by
  intro first second same
  have read := parseU64_toString_peer first
  rw [same, parseU64_toString_peer second] at read
  exact (Except.ok.inj read).symm

/-- The entries of a vector. -/
theorem VersionVector.mem_entries_iff
    {vv : VersionVector}
    {peer : UInt64}
    {counter : Int32} :
    (peer, counter) ∈ entries vv ↔ vv.lookup peer = some counter := by
  simp only [entries, List.mem_filterMap, Finset.mem_sort, Option.map_eq_some_iff,
    Prod.mk.injEq]
  constructor
  · rintro ⟨peer, -, counter, found, rfl, rfl⟩
    exact found
  · intro found
    exact ⟨peer, Finmap.mem_keys.mpr (Finmap.mem_of_lookup_eq_some found), counter, found, rfl,
      rfl⟩

theorem VersionVector.nodup_entries (vv : VersionVector) :
    ((entries vv).map fun entry => toString entry.1).Nodup := by
  have peers : ((entries vv).map Prod.fst).Nodup := by
    have sublist : ((entries vv).map Prod.fst).Sublist (vv.keys.sort PeerLE) := by
      unfold entries
      generalize vv.keys.sort PeerLE = keys
      induction keys with
      | nil => exact .slnil
      | cons peer keys inductionHypothesis =>
          cases found : vv.lookup peer with
          | none =>
              rw [List.filterMap_cons_none (by simp [found])]
              exact inductionHypothesis.cons _
          | some counter =>
              rw [List.filterMap_cons_some (b := (peer, counter)) (by simp [found])]
              exact inductionHypothesis.cons_cons _
    exact sublist.nodup (Finset.sort_nodup _ _)
  have named := peers.map toString_peer_injective
  rwa [List.map_map] at named

/-! ## Reading -/

/-- What `vv_from_json_bytes` makes of the entries of a map. -/
def insertEntry (vv : VersionVector) (entry : String × Int32) :
    Except ServerError VersionVector :=
  match parseU64 entry.1 with
  | .ok peer => .ok (vv.insert peer entry.2)
  | .error reason => .error (.sync s!"invalid peer ID in VV: {reason}")

/-- Entries with different decimal keys become entries of the vector. -/
theorem foldlM_insertEntry
    {read : List (String × Int32)}
    (vv : VersionVector)
    (decimal : ∀ entry ∈ read, ∃ peer : UInt64, entry.1 = toString peer)
    (distinct : (read.map Prod.fst).Nodup) :
    ∃ vv', read.foldlM insertEntry vv = .ok vv' ∧
      ∀ peer : UInt64,
        (∀ counter, (toString peer, counter) ∈ read → vv'.lookup peer = some counter) ∧
        ((∀ counter, (toString peer, counter) ∉ read) → vv'.lookup peer = vv.lookup peer) := by
  induction read generalizing vv with
  | nil => exact ⟨vv, rfl, fun _ => ⟨nofun, fun _ => rfl⟩⟩
  | cons entry rest inductionHypothesis =>
      obtain ⟨name, counter⟩ := entry
      obtain ⟨peer, same⟩ := decimal (name, counter) List.mem_cons_self
      obtain rfl : name = toString peer := same
      obtain ⟨fresh, distinct⟩ := List.nodup_cons.mp distinct
      have inserted : insertEntry vv (toString peer, counter) = .ok (vv.insert peer counter) := by
        unfold insertEntry
        rw [parseU64_toString_peer]
      obtain ⟨vv', folded, lookups⟩ := inductionHypothesis (vv.insert peer counter)
        (fun entry member => decimal entry (List.mem_cons_of_mem _ member)) distinct
      have absent : ∀ counter', (toString peer, counter') ∉ rest :=
        fun counter' member => fresh (List.mem_map.mpr ⟨_, member, rfl⟩)
      refine ⟨vv', ?_, ?_⟩
      · rw [List.foldlM_cons, inserted]
        exact folded
      · intro other
        refine ⟨?_, ?_⟩
        · intro counter' member
          rcases List.mem_cons.mp member with first | later
          · obtain ⟨named, rfl⟩ := Prod.mk.inj first
            obtain rfl := toString_peer_injective named
            rw [(lookups other).2 absent, Finmap.lookup_insert]
          · exact (lookups other).1 counter' later
        · intro elsewhere
          have different : other ≠ peer := by
            rintro rfl
            exact elsewhere counter List.mem_cons_self
          rw [(lookups other).2 fun counter' member =>
            elsewhere counter' (List.mem_cons_of_mem _ member),
            Finmap.lookup_insert_of_ne _ different]

/-- A vector is read back from whatever it has been written as. -/
theorem vvFromJsonBytes_of_encodes
    {json : SerdeJson}
    (faithful : json.Faithful)
    {vv : VersionVector}
    {bytes : Bytes}
    (encodes : Encodes json vv bytes) :
    vvFromJsonBytes json bytes = .ok vv := by
  obtain ⟨entries, ordered, rfl⟩ := encodes
  have written : (entries.map fun entry => (toString entry.1, entry.2)).Perm
      ((VersionVector.entries vv).map fun entry => (toString entry.1, entry.2)) :=
    ordered.map _
  have distinct : ((entries.map fun entry => (toString entry.1, entry.2)).map
      Prod.fst).Nodup := by
    rw [(written.map Prod.fst).nodup_iff, List.map_map]
    exact VersionVector.nodup_entries vv
  have decimal : ∀ entry ∈ entries.map fun entry => (toString entry.1, entry.2),
      ∃ peer : UInt64, entry.1 = toString peer := by
    intro entry member
    obtain ⟨origin, -, rfl⟩ := List.mem_map.mp member
    exact ⟨origin.1, rfl⟩
  obtain ⟨read, parsed, same⟩ := faithful.reads _ distinct decimal
  obtain ⟨vv', folded, lookups⟩ := foldlM_insertEntry ∅
    (fun entry member => decimal entry (same.mem_iff.mp member))
    ((same.map Prod.fst).nodup_iff.mpr distinct)
  have members : ∀ (peer : UInt64) (counter : Int32),
      (toString peer, counter) ∈ read ↔ vv.lookup peer = some counter := by
    intro peer counter
    rw [same.mem_iff, written.mem_iff, ← VersionVector.mem_entries_iff, List.mem_map]
    constructor
    · rintro ⟨entry, member, equal⟩
      obtain ⟨named, rfl⟩ := Prod.mk.inj equal
      obtain rfl := toString_peer_injective named
      exact member
    · exact fun member => ⟨(peer, counter), member, rfl⟩
  have whole : vv' = vv := by
    refine Finmap.ext_lookup ?_
    intro peer
    cases found : vv.lookup peer with
    | some counter => exact (lookups peer).1 counter ((members peer counter).mpr found)
    | none =>
        refine ((lookups peer).2 ?_).trans (Finmap.lookup_empty _)
        intro counter member
        rw [(members peer counter).mp member] at found
        cases found
  unfold vvFromJsonBytes
  rw [parsed, ← whole]
  exact folded

/-- The wire form of version vectors is a faithful code, and the sentinel is none
of its words. -/
theorem wire_vectors_round_trip
    {json : SerdeJson}
    (faithful : json.Faithful) :
    (∀ vv, Encodes json vv (vvToJsonBytes json vv)) ∧
      (∀ vv bytes, Encodes json vv bytes → vvFromJsonBytes json bytes = .ok vv) ∧
      (∀ vv vv' bytes, Encodes json vv bytes → Encodes json vv' bytes → vv = vv') ∧
      (∀ vv, ¬ Encodes json vv invalidVvSentinelJson) ∧
      ∃ error, vvFromJsonBytes json invalidVvSentinelJson = .error error := by
  have rejected : ∃ error, vvFromJsonBytes json invalidVvSentinelJson = .error error := by
    unfold vvFromJsonBytes
    cases read : json.fromSlice invalidVvSentinelJson with
    | error reason => exact ⟨_, rfl⟩
    | ok entries =>
        have brace := faithful.objects _ entries read
        exact absurd brace (by decide +kernel)
  refine ⟨?_, ?_, ?_, ?_, rejected⟩
  · exact fun vv => ⟨VersionVector.entries vv, List.Perm.refl _, rfl⟩
  · exact fun vv bytes encodes => vvFromJsonBytes_of_encodes faithful encodes
  · intro vv vv' bytes encodes encodes'
    have read := vvFromJsonBytes_of_encodes faithful encodes
    rw [vvFromJsonBytes_of_encodes faithful encodes'] at read
    exact (Except.ok.inj read).symm
  · intro vv encodes
    obtain ⟨error, fails⟩ := rejected
    rw [vvFromJsonBytes_of_encodes faithful encodes] at fails
    cases fails

/-! ## A flat writer -/

section Flat

/-- A number without a sign. -/
def readDigits (digits : List Char) : Option Nat :=
  if digits ≠ [] ∧ digits.all Char.isDigit then
    some (Nat.ofDigitChars 10 digits 0)
  else
    none

/-- A number with an optional minus sign. -/
def readInt32 : List Char → Option Int32
  | '-' :: digits =>
      (readDigits digits).bind fun value =>
        if value ≤ 2 ^ 31 then some (Int32.ofInt (-value)) else none
  | digits =>
      (readDigits digits).bind fun value =>
        if value < 2 ^ 31 then some (Int32.ofInt value) else none

/-- A member of an object, its name without escapes. -/
def writeMember (entry : String × Int32) : List Char :=
  '"' :: entry.1.toList ++ '"' :: ':' :: (toString entry.2).toList

def readMember (text : List Char) : Option (String × Int32) :=
  match text.splitOn ':' with
  | ['"' :: name, value] =>
      if name.getLast? = some '"' then
        (readInt32 value).map fun counter => (String.ofList name.dropLast, counter)
      else
        none
  | _ => none

/-- An object between its braces. -/
def writeObject (entries : List (String × Int32)) : List Char :=
  '\x7b' :: [','].intercalate (entries.map writeMember) ++ ['\x7d']

def readObject : List Char → Option (List (String × Int32))
  | '\x7b' :: rest =>
      if rest.getLast? = some '\x7d' then
        if rest.dropLast = [] then some [] else (rest.dropLast.splitOn ',').mapM readMember
      else
        none
  | _ => none

/-- Objects without white space or escapes. -/
def SerdeJson.flat : SerdeJson where
  toVec := fun entries => (String.ofList (writeObject entries)).toUTF8.data.toList
  fromSlice := fun bytes =>
    if bytes.head? = some 0x7B then
      match (ByteArray.utf8Decode? ⟨bytes.toArray⟩).bind fun text => readObject text.toList with
      | some entries => .ok entries
      | none => .error "expected an object"
    else
      .error "invalid type: expected a map"

theorem readDigits_toDigits (value : Nat) :
    readDigits (Nat.toDigits 10 value) = some value := by
  have decimal : (Nat.toDigits 10 value).all Char.isDigit = true :=
    List.all_eq_true.mpr fun c member => isDigit_of_mem_toDigits member
  unfold readDigits
  rw [if_pos ⟨Nat.toDigits_ne_nil, decimal⟩, Nat.ofDigitChars_ten_toDigits]

/-- The characters of a counter. -/
theorem toList_toString_int32 (value : Int32) :
    (toString value).toList =
      if 0 ≤ value.toInt then Nat.toDigits 10 value.toInt.toNat
      else '-' :: Nat.toDigits 10 (-value.toInt).toNat := by
  change (toString value.toInt).toList = _
  cases value.toInt with
  | ofNat natural => exact Nat.toList_repr
  | negSucc natural =>
      have written : (toString (Int.negSucc natural)).toList =
          '-' :: (Nat.repr (natural + 1)).toList := by
        change ("-" ++ Nat.repr (natural + 1)).toList = _
        rw [String.toList_append]
        rfl
      rw [written, if_neg (by omega), Nat.toList_repr]
      rfl

theorem readInt32_toString (value : Int32) : readInt32 (toString value).toList = some value := by
  have low := value.le_toInt
  have high := value.toInt_lt
  rw [toList_toString_int32]
  by_cases natural : 0 ≤ value.toInt
  · rw [if_pos natural]
    obtain ⟨first, rest, digits⟩ :=
      List.exists_cons_of_ne_nil (Nat.toDigits_ne_nil (b := 10) (n := value.toInt.toNat))
    have unsigned : first ≠ '-' := by
      rintro rfl
      have member : '-' ∈ Nat.toDigits 10 value.toInt.toNat := digits ▸ List.mem_cons_self
      exact absurd (isDigit_of_mem_toDigits member) (by decide)
    have read : readInt32 (first :: rest) = (readDigits (first :: rest)).bind fun value =>
        if value < 2 ^ 31 then some (Int32.ofInt value) else none := by
      unfold readInt32
      split
      · rename_i same
        exact absurd (List.cons.inj same).1 unsigned
      · rfl
    rw [digits, read, ← digits, readDigits_toDigits]
    change (if value.toInt.toNat < 2 ^ 31 then _ else _) = _
    rw [if_pos (by omega), Int.toNat_of_nonneg natural, Int32.ofInt_toInt]
  · rw [if_neg natural]
    change (readDigits _).bind _ = _
    rw [readDigits_toDigits]
    change (if (-value.toInt).toNat ≤ 2 ^ 31 then _ else _) = _
    rw [if_pos (by omega), Int.toNat_of_nonneg (by omega), Int.neg_neg, Int32.ofInt_toInt]

/-- A counter has no separator. -/
theorem not_mem_toString_int32
    (separator : Char)
    (value : Int32)
    (sign : separator ≠ '-')
    (digit : separator.isDigit = false) :
    separator ∉ (toString value).toList := by
  have absent : ∀ natural, separator ∉ Nat.toDigits 10 natural := by
    intro natural member
    rw [isDigit_of_mem_toDigits member] at digit
    cases digit
  rw [toList_toString_int32]
  split
  · exact absent _
  · exact List.not_mem_cons_of_ne_of_not_mem sign (absent _)

theorem readMember_writeMember
    {entry : String × Int32}
    (decimal : ∃ key : UInt64, entry.1 = toString key) :
    readMember (writeMember entry) = some entry ∧ ',' ∉ writeMember entry := by
  obtain ⟨name, counter⟩ := entry
  obtain ⟨key, same⟩ := decimal
  obtain rfl : name = toString key := same
  have digits : (toString key).toList = Nat.toDigits 10 key.toNat := Nat.toList_repr
  have absent : ∀ separator : Char, separator.isDigit = false →
      separator ∉ (toString key).toList := by
    intro separator different member
    rw [digits] at member
    rw [isDigit_of_mem_toDigits member] at different
    cases different
  have colon := not_mem_toString_int32 ':' counter (by decide) (by decide)
  have comma := not_mem_toString_int32 ',' counter (by decide) (by decide)
  have nameColon := absent ':' (by decide)
  have nameComma := absent ',' (by decide)
  refine ⟨?_, by simp [writeMember, nameComma, comma]⟩
  have parts : (writeMember (toString key, counter)).splitOn ':' =
      ['"' :: (toString key).toList ++ ['"'], (toString counter).toList] := by
    have joined : writeMember (toString key, counter) = [':'].intercalate
        ['"' :: (toString key).toList ++ ['"'], (toString counter).toList] := by
      simp [writeMember, List.intercalate]
    rw [joined, List.splitOn_intercalate ':' (by simp [nameColon, colon]) (by simp)]
  unfold readMember
  rw [parts]
  simp [readInt32_toString, String.ofList_toList]

theorem readObject_writeObject
    {entries : List (String × Int32)}
    (decimal : ∀ entry ∈ entries, ∃ key : UInt64, entry.1 = toString key) :
    readObject (writeObject entries) = some entries := by
  have members : (entries.map writeMember).mapM readMember = some entries := by
    induction entries with
    | nil => rfl
    | cons entry rest inductionHypothesis =>
        rw [List.map_cons, List.mapM_cons,
          (readMember_writeMember (decimal entry List.mem_cons_self)).1,
          inductionHypothesis fun entry member => decimal entry (List.mem_cons_of_mem _ member)]
        rfl
  have opened : ∀ rest, readObject ('\x7b' :: rest) =
      if rest.getLast? = some '\x7d' then
        if rest.dropLast = [] then some [] else (rest.dropLast.splitOn ',').mapM readMember
      else
        none := by
    intro rest
    simp only [readObject]
  unfold writeObject
  rw [List.cons_append, opened, if_pos (by simp), List.dropLast_concat]
  cases entries with
  | nil => rfl
  | cons entry rest =>
      have written : [','].intercalate ((entry :: rest).map writeMember) ≠ [] := by
        cases rest <;> simp [List.intercalate, writeMember]
      have separated : ∀ member ∈ (entry :: rest).map writeMember, ',' ∉ member := by
        intro member found
        obtain ⟨origin, listed, rfl⟩ := List.mem_map.mp found
        exact (readMember_writeMember (decimal origin listed)).2
      rw [if_neg written, List.splitOn_intercalate ',' separated (by simp)]
      exact members

theorem SerdeJson.flat_faithful : SerdeJson.flat.Faithful where
  reads := by
    intro written _ decimal
    refine ⟨written, ?_, List.Perm.refl _⟩
    have bytes : (SerdeJson.flat.toVec written).head? = some 0x7B := by
      simp only [SerdeJson.flat, writeObject, String.toUTF8_eq_toByteArray,
        String.toByteArray_ofList, List.cons_append]
      rw [List.utf8Encode_cons]
      simp only [List.utf8Encode_singleton, ByteArray.data_append, Array.toList_append,
        List.data_toByteArray]
      rfl
    have read : (ByteArray.utf8Decode? ⟨(SerdeJson.flat.toVec written).toArray⟩).bind
        (fun text => readObject text.toList) = some written := by
      have whole : (⟨(SerdeJson.flat.toVec written).toArray⟩ : ByteArray) =
          (writeObject written).utf8Encode := by
        simp [SerdeJson.flat]
      rw [whole, List.utf8Decode?_utf8Encode]
      exact readObject_writeObject decimal
    change (if _ then _ else _) = _
    rw [if_pos bytes, read]
  objects := by
    intro bytes entries read
    have brace : bytes.head? = some 0x7B := by
      by_contra other
      change (if _ then _ else _) = _ at read
      rw [if_neg other] at read
      cases read
    cases bytes with
    | nil => cases brace
    | cons first rest =>
        obtain rfl := Option.some.inj brace
        rfl

end Flat

/-- Two entries around the limits of their types. -/
theorem wire_vectors_round_trip_limits :
    let vv : VersionVector := (Finmap.insert 0xFFFFFFFFFFFFFFFF (-2147483648)
      (Finmap.insert 0 2147483647 ∅))
    vvFromJsonBytes .flat (vvToJsonBytes .flat vv) = .ok vv ∧
      ∃ error, vvFromJsonBytes .flat invalidVvSentinelJson = .error error :=
  have holds := wire_vectors_round_trip SerdeJson.flat_faithful
  ⟨holds.2.1 _ _ (holds.1 _), holds.2.2.2.2⟩

end VaultCrdtServer
