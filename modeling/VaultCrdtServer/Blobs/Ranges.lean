import VaultCrdtServer.Blobs.Alone
import VaultCrdtServer.Blobs.Keys
import VaultCrdtServer.Blobs.Reference
import VaultCrdtServer.Decimals
import Mathlib.Data.List.TakeWhile

/-!
# Ranges of blobs

A blob is downloaded whole or by ranges of its bytes.  Whatever the header is,
what is answered is the blob, a part of it or nothing.
-/

namespace VaultCrdtServer

/-- What a range amounts to. -/
inductive ByteRange.Proper (total : Nat) : ByteRange → Prop where
  | ignored : Proper total .ignored
  | unsatisfiable : Proper total .unsatisfiable
  | range {first last : Nat} (ordered : first ≤ last) (inside : last < total) :
      Proper total (.range first last)

/-! ## Subtractions -/

/-- A subtraction that does not wrap. -/
def checkedSub (first second : Nat) : Option Nat :=
  if second ≤ first then some (first - second) else none

/-- Number in a `Range` header, where what follows may fail. -/
def withU64Checked (text : List Char) (next : Nat → Option ByteRange) : Option ByteRange :=
  match u64OfChars text with
  | some value => next value
  | none => some .ignored

/-- `parse_byte_range`, which fails where a subtraction wraps. -/
def parseByteRangeChecked (header : String) (total : Nat) : Option ByteRange :=
  match header.toList.dropPrefix? "bytes=".toList with
  | none => some .ignored
  | some specs =>
      let spec := trimChars (specs.takeWhile fun c => c != ',')
      if spec = [] then
        some .ignored
      else if spec.getLast? = some '-' ∧ spec.dropLast ≠ [] then
        withU64Checked spec.dropLast fun start =>
          if total = 0 ∨ total ≤ start then some .unsatisfiable
          else do
            let last ← checkedSub total 1
            return .range start last
      else
        match spec with
        | '-' :: suffix =>
            withU64Checked suffix fun length =>
              if length = 0 ∨ total = 0 then some .unsatisfiable
              else do
                let first ← checkedSub total (min length total)
                let last ← checkedSub total 1
                return .range first last
        | _ =>
            match splitOnce '-' spec with
            | none => some .ignored
            | some (first, last) =>
                withU64Checked first fun start => withU64Checked last fun last =>
                  if last < start ∨ total = 0 ∨ total ≤ start then some .unsatisfiable
                  else do
                    let limit ← checkedSub total 1
                    return .range start (min last limit)

theorem withU64Checked_eq
    {text : List Char}
    {next : Nat → ByteRange}
    {checked : Nat → Option ByteRange}
    (agree : ∀ value, checked value = some (next value)) :
    withU64Checked text checked = some (withU64 text next) := by
  unfold withU64Checked withU64
  cases u64OfChars text with
  | some value => exact agree value
  | none => rfl

/-- No subtraction wraps. -/
theorem parseByteRangeChecked_eq (header : String) (total : Nat) :
    parseByteRangeChecked header total = some (parseByteRange header total) := by
  have last : ∀ {start}, ¬ (total = 0 ∨ total ≤ start) →
      checkedSub total 1 = some (total - 1) := by
    intro start inside
    exact if_pos (by omega)
  unfold parseByteRangeChecked parseByteRange
  cases header.toList.dropPrefix? "bytes=".toList with
  | none => rfl
  | some specs =>
      dsimp only
      generalize trimChars (specs.takeWhile fun c => c != ',') = spec
      split_ifs
      · rfl
      · refine withU64Checked_eq ?_
        intro start
        split_ifs with outside
        · rfl
        · rw [last outside]
          rfl
      · by_cases dashed : ∃ suffix, spec = '-' :: suffix
        · obtain ⟨suffix, rfl⟩ := dashed
          refine withU64Checked_eq ?_
          intro length
          split_ifs with nothing
          · rfl
          · have first : checkedSub total (min length total) = some (total - min length total) :=
              if_pos (Nat.min_le_right ..)
            have whole : checkedSub total 1 = some (total - 1) := if_pos (by omega)
            rw [first, whole]
            rfl
        · -- This takes the second branch of both matches.
          have other : ∀ suffix, spec = '-' :: suffix → False :=
            fun suffix same => dashed ⟨suffix, same⟩
          simp only
          cases splitOnce '-' spec with
          | none => rfl
          | some parts =>
              refine withU64Checked_eq fun start => withU64Checked_eq fun stop => ?_
              split_ifs with outside
              · rfl
              · rw [last fun apart => outside (.inr apart)]
                rfl

/-! ## Headers -/

theorem withU64_proper
    {total : Nat}
    {text : List Char}
    {next : Nat → ByteRange}
    (proper : ∀ value, (next value).Proper total) :
    (withU64 text next).Proper total := by
  unfold withU64
  cases u64OfChars text with
  | some value => exact proper value
  | none => exact .ignored

/-- Every header stands for bytes of the blob, or for none. -/
theorem parseByteRange_proper (header : String) (total : Nat) :
    (parseByteRange header total).Proper total := by
  unfold parseByteRange
  split
  · exact .ignored
  · dsimp only
    split_ifs
    · exact .ignored
    · refine withU64_proper ?_
      intro start
      split_ifs with outside
      · exact .unsatisfiable
      · exact .range (by omega) (by omega)
    · split
      · refine withU64_proper ?_
        intro length
        split_ifs with nothing
        · exact .unsatisfiable
        · exact .range (by omega) (by omega)
      · split
        · exact .ignored
        · refine withU64_proper fun start => withU64_proper fun last => ?_
          split_ifs with outside
          · exact .unsatisfiable
          · exact .range (by omega) (by omega)

/-! ## Decimal ranges -/

theorem u64OfChars_toDigits_of_lt
    {value : Nat}
    (fits : value < 2 ^ 64) :
    u64OfChars (Nat.toDigits 10 value) = some value := by
  have written : String.ofList (Nat.toDigits 10 value) = toString value := by
    rw [← String.toList_inj, String.toList_ofList]
    exact Nat.toList_repr.symm
  unfold u64OfChars
  rw [written, parseU64_toString_of_lt fits]
  dsimp only
  rw [UInt64.toNat_ofNat_of_lt' fits]

theorem u64OfChars_toDigits_of_le
    {value : Nat}
    (large : 2 ^ 64 ≤ value) :
    u64OfChars (Nat.toDigits 10 value) = none := by
  have written : String.ofList (Nat.toDigits 10 value) = toString value := by
    rw [← String.toList_inj, String.toList_ofList]
    exact Nat.toList_repr.symm
  obtain ⟨reason, refused⟩ := parseU64_toString_of_le large
  unfold u64OfChars
  rw [written, refused]

theorem withU64_of_lt
    {value : Nat}
    (fits : value < 2 ^ 64)
    (next : Nat → ByteRange) :
    withU64 (Nat.toDigits 10 value) next = next value := by
  unfold withU64
  rw [u64OfChars_toDigits_of_lt fits]

theorem withU64_of_le
    {value : Nat}
    (large : 2 ^ 64 ≤ value)
    (next : Nat → ByteRange) :
    withU64 (Nat.toDigits 10 value) next = .ignored := by
  unfold withU64
  rw [u64OfChars_toDigits_of_le large]

/-- Digits and dashes are neither trimmed nor cut at a comma. -/
theorem trimChars_of_decimal
    {spec : List Char}
    (decimal : ∀ c ∈ spec, c.isDigit = true ∨ c = '-') :
    trimChars (spec.takeWhile fun c => c != ',') = spec := by
  have plain : ∀ c ∈ spec, (c != ',') = true ∧ c.isWhitespace = false := by
    intro c member
    rcases decimal c member with digit | rfl
    · have code : 48 ≤ c.val.toNat ∧ c.val.toNat ≤ 57 := by
        simpa [Char.isDigit, UInt32.le_iff_toNat_le] using digit
      refine ⟨?_, ?_⟩
      · rw [bne_iff_ne]
        rintro rfl
        exact absurd digit (by decide)
      · simp only [Char.isWhitespace, Bool.or_eq_false_iff, decide_eq_false_iff_not]
        refine ⟨⟨⟨?_, ?_⟩, ?_⟩, ?_⟩ <;> rintro rfl <;> exact absurd digit (by decide)
    · decide
  have whole : spec.takeWhile (fun c => c != ',') = spec :=
    List.takeWhile_eq_self_iff.mpr fun c member => (plain c member).1
  have trimmed : ∀ text : List Char, (∀ c ∈ text, c.isWhitespace = false) →
      text.dropWhile Char.isWhitespace = text := by
    intro text visible
    cases text with
    | nil => rfl
    | cons c rest =>
        rw [List.dropWhile_cons_of_neg]
        rw [visible c List.mem_cons_self]
        exact Bool.false_ne_true
  unfold trimChars
  rw [whole, trimmed spec fun c member => (plain c member).2,
    trimmed spec.reverse fun c member => (plain c (List.mem_reverse.mp member)).2,
    List.reverse_reverse]

theorem not_mem_toDigits_dash (value : Nat) : '-' ∉ Nat.toDigits 10 value :=
  fun member => absurd (isDigit_of_mem_toDigits member) (by decide)

/-- A number does not begin or end with a dash. -/
theorem getLast?_toDigits_ne (front : List Char) (value : Nat) :
    (front ++ Nat.toDigits 10 value).getLast? ≠ some '-' := by
  rw [List.getLast?_append_of_ne_nil _ Nat.toDigits_ne_nil]
  intro dash
  exact not_mem_toDigits_dash value (List.mem_of_getLast? dash)

theorem toDigits_append_ne (value : Nat) (rest suffix : List Char) :
    Nat.toDigits 10 value ++ rest ≠ '-' :: suffix := by
  obtain ⟨first, digits, written⟩ := List.exists_cons_of_ne_nil (Nat.toDigits_ne_nil
    (b := 10) (n := value))
  rw [written]
  intro same
  obtain rfl := (List.cons.inj same).1
  exact not_mem_toDigits_dash value (written ▸ List.mem_cons_self)

theorem parseByteRange_between (first last total : Nat) :
    parseByteRange s!"bytes={first}-{last}" total =
      withU64 (Nat.toDigits 10 first) fun start => withU64 (Nat.toDigits 10 last) fun stop =>
        if stop < start ∨ total = 0 ∨ total ≤ start then .unsatisfiable
        else .range start (min stop (total - 1)) := by
  have written : (s!"bytes={first}-{last}").toList =
      "bytes=".toList ++ (Nat.toDigits 10 first ++ '-' :: Nat.toDigits 10 last) := by
    change ("bytes=" ++ toString first ++ "-" ++ toString last).toList = _
    simp
  have decimal : ∀ c ∈ Nat.toDigits 10 first ++ '-' :: Nat.toDigits 10 last,
      c.isDigit = true ∨ c = '-' := by
    intro c member
    rcases List.mem_append.mp member with start | rest
    · exact .inl (isDigit_of_mem_toDigits start)
    · rcases List.mem_cons.mp rest with dash | stop
      · exact .inr dash
      · exact .inl (isDigit_of_mem_toDigits stop)
  have halves : splitOnce '-' (Nat.toDigits 10 first ++ '-' :: Nat.toDigits 10 last) =
      some (Nat.toDigits 10 first, Nat.toDigits 10 last) :=
    splitOnce_eq_some_iff.mpr ⟨rfl, not_mem_toDigits_dash first⟩
  have closed : (Nat.toDigits 10 first ++ '-' :: Nat.toDigits 10 last).getLast? ≠ some '-' := by
    rw [← List.singleton_append, ← List.append_assoc]
    exact getLast?_toDigits_ne _ last
  have opened := toDigits_append_ne first ('-' :: Nat.toDigits 10 last)
  unfold parseByteRange
  rw [written, dropPrefix?_append_self]
  dsimp only
  rw [trimChars_of_decimal decimal]
  rw [if_neg (by simp), if_neg fun both => closed both.1]
  split
  · rename_i dash
    exact absurd dash (opened _)
  · rw [halves]

theorem parseByteRange_from (first total : Nat) :
    parseByteRange s!"bytes={first}-" total =
      withU64 (Nat.toDigits 10 first) fun start =>
        if total = 0 ∨ total ≤ start then .unsatisfiable else .range start (total - 1) := by
  have written : (s!"bytes={first}-").toList =
      "bytes=".toList ++ (Nat.toDigits 10 first ++ ['-']) := by
    change ("bytes=" ++ toString first ++ "-").toList = _
    simp
  have decimal : ∀ c ∈ Nat.toDigits 10 first ++ ['-'], c.isDigit = true ∨ c = '-' := by
    intro c member
    rcases List.mem_append.mp member with start | dash
    · exact .inl (isDigit_of_mem_toDigits start)
    · exact .inr (List.mem_singleton.mp dash)
  unfold parseByteRange
  rw [written, dropPrefix?_append_self]
  dsimp only
  rw [trimChars_of_decimal decimal, if_neg (by simp), List.dropLast_concat,
    if_pos ⟨by simp, Nat.toDigits_ne_nil⟩]

theorem parseByteRange_suffix (length total : Nat) :
    parseByteRange s!"bytes=-{length}" total =
      withU64 (Nat.toDigits 10 length) fun length =>
        if length = 0 ∨ total = 0 then .unsatisfiable
        else .range (total - min length total) (total - 1) := by
  have written : (s!"bytes=-{length}").toList =
      "bytes=".toList ++ ('-' :: Nat.toDigits 10 length) := by
    change ("bytes=-" ++ toString length).toList = _
    simp
  have decimal : ∀ c ∈ '-' :: Nat.toDigits 10 length, c.isDigit = true ∨ c = '-' := by
    intro c member
    rcases List.mem_cons.mp member with dash | digit
    · exact .inr dash
    · exact .inl (isDigit_of_mem_toDigits digit)
  have closed : ¬ (('-' :: Nat.toDigits 10 length).getLast? = some '-' ∧
      ('-' :: Nat.toDigits 10 length).dropLast ≠ []) :=
    fun both => getLast?_toDigits_ne ['-'] length both.1
  unfold parseByteRange
  rw [written, dropPrefix?_append_self]
  dsimp only
  rw [trimChars_of_decimal decimal, if_neg (List.cons_ne_nil _ _), if_neg closed]
  rfl

/-! ## Downloads -/

/-- The `Content-Range` of a response. -/
def Response.contentRange : Response → Option String
  | .blobRange first last total _ => some s!"bytes {first}-{last}/{total}"
  | .rangeNotSatisfiable total => some s!"bytes */{total}"
  | _ => none

/-- The bytes of a blob that a response carries. -/
def Response.blobBytes : Response → Bytes
  | .blobContent body => body
  | .blobRange _ _ _ body => body
  | _ => []

/-- A row and a file that agree.  Sizes are 64-bit integers. -/
structure StoredBlob
    (store : BlobStore)
    (vault : VaultId)
    (hash : Hash)
    (contents : Bytes) : Prop where
  row : store.db.blobs.lookup ⟨vault, hash⟩ = some (contents.length : Int)
  file : store.disk.read (blobFilePath vault hash) = some contents
  nonempty : 0 < contents.length
  representable : contents.length < 2 ^ 63

section Downloads

variable {settings : BlobSettings} {now : Time} {uuid : String} {store : BlobStore}
  {vault : VaultId} {hash : Hash} {contents : Bytes}

theorem readBlob_alone
    (stored : StoredBlob store vault hash contents)
    {first length : Nat}
    (inside : first + length ≤ contents.length) :
    (readBlob (blobFilePath vault hash) first length).alone settings now uuid store =
      (.ok ((contents.drop first).take length), store) := by
  obtain ⟨inode, named, same⟩ := Option.map_eq_some_iff.mp stored.file
  have opened : BlobServer.fileEffect store.disk (.open (blobFilePath vault hash) false) =
      (.ok ⟨inode, 0⟩, store.disk) := by
    simp only [BlobServer.fileEffect, named]
  have whole : ((contents.drop first).take length).length = length := by
    rw [List.length_take, List.length_drop]
    omega
  have read : BlobServer.fileEffect store.disk (.readExact ⟨inode, first⟩ length) =
      (.ok ((contents.drop first).take length), store.disk) := by
    simp only [BlobServer.fileEffect, same, whole, if_true]
  unfold readBlob
  rw [blobAlone_bind, blobAlone_file, opened]
  change (BlobHandler.file (.seek ⟨inode, 0⟩ first) >>= _).alone settings now uuid store = _
  rw [blobAlone_bind, blobAlone_file]
  change (if 0 < length then BlobHandler.file (.readExact ⟨inode, first⟩ length)
    else pure []).alone settings now uuid store = _
  split_ifs with some'
  · rw [blobAlone_file, read]
    rfl
  · obtain rfl : length = 0 := by omega
    rfl

/-- What a header asks for. -/
def answerRange (contents : Bytes) : ByteRange → Response
  | .range first last =>
      .blobRange first last contents.length ((contents.drop first).take (last - first + 1))
  | .unsatisfiable => .rangeNotSatisfiable contents.length
  | .ignored => .blobContent contents

/-- A download answers what its header asks for. -/
theorem getBlob_alone
    (stored : StoredBlob store vault hash contents)
    (header : String) :
    (getBlob vault hash.val (some header)).alone settings now uuid store =
      (.ok (answerRange contents (parseByteRange header contents.length)), store) := by
  have sized : BlobDbCall.exec settings.defaultQuotaBytes now uuid (.blobSize ⟨vault, hash⟩)
      store.db = .ok (some (contents.length : Int), store.db) := by
    simp only [BlobDbCall.exec, stored.row]
  have measured : BlobServer.fileEffect store.disk (.length (blobFilePath vault hash)) =
      (.ok contents.length, store.disk) := by
    simp only [BlobServer.fileEffect, stored.file]
  have total : (max (contents.length : Int) 0).toNat = contents.length := by omega
  have nonempty := stored.nonempty
  unfold getBlob
  rw [dif_pos hash.property]
  dsimp only
  rw [blobAlone_bind, blobAlone_db_of_ok _ _ _ sized]
  dsimp only
  rw [blobAlone_bind, blobAlone_attempt]
  simp only [serveBlobAlone, measured, total, ne_eq, not_true_eq_false, if_false, Option.map_some,
    Option.getD_some]
  have proper := parseByteRange_proper header contents.length
  generalize parseByteRange header contents.length = range at proper
  cases proper with
  | ignored =>
      dsimp only
      rw [blobAlone_bind, readBlob_alone stored (by omega)]
      simp [answerRange]
  | unsatisfiable => rfl
  | @range first last ordered inside =>
      dsimp only
      rw [if_neg (by omega), blobAlone_bind, readBlob_alone stored (by omega)]
      rfl

/-- The response to a download with a header. -/
def Served
    (settings : BlobSettings)
    (now : Time)
    (uuid : String)
    (store : BlobStore)
    (vault : VaultId)
    (hash : Hash)
    (header : String)
    (response : Response) : Prop :=
  (getBlob vault hash.val (some header)).alone settings now uuid store = (.ok response, store)

/-- Ranges that cover an interval one after the other. -/
def Consecutive : Nat → List (Nat × Nat) → Nat → Prop
  | start, [], stop => start = stop
  | start, (first, last) :: rest, stop =>
      first = start ∧ first ≤ last ∧ Consecutive (last + 1) rest stop

theorem Consecutive.le
    {start stop : Nat}
    {ranges : List (Nat × Nat)}
    (consecutive : Consecutive start ranges stop) :
    start ≤ stop := by
  induction ranges generalizing start with
  | nil => exact Nat.le_of_eq consecutive
  | cons range rest inductionHypothesis =>
      obtain ⟨rfl, ordered, later⟩ := consecutive
      have reached := inductionHypothesis later
      omega

/-- A range within the blob is served. -/
theorem served_between
    (stored : StoredBlob store vault hash contents)
    {first last : Nat}
    (ordered : first ≤ last)
    (fits : last < 2 ^ 64)
    (inside : first < contents.length) :
    Served settings now uuid store vault hash s!"bytes={first}-{last}"
      (.blobRange first (min last (contents.length - 1)) contents.length
        ((contents.drop first).take (min last (contents.length - 1) - first + 1))) := by
  have parsed : parseByteRange s!"bytes={first}-{last}" contents.length =
      .range first (min last (contents.length - 1)) := by
    rw [parseByteRange_between, withU64_of_lt (by omega), withU64_of_lt fits, if_neg (by omega)]
  unfold Served
  rw [getBlob_alone stored, parsed]
  rfl

/-- What consecutive ranges carry adds up. -/
theorem served_consecutive
    (stored : StoredBlob store vault hash contents)
    {start : Nat}
    {ranges : List (Nat × Nat)}
    (consecutive : Consecutive start ranges contents.length) :
    ∃ bodies : List Bytes, bodies.flatten = contents.drop start ∧
      List.Forall₂ (fun range body => Served settings now uuid store vault hash
        s!"bytes={range.1}-{range.2}" (.blobRange range.1 range.2 contents.length body))
        ranges bodies := by
  induction ranges generalizing start with
  | nil =>
      refine ⟨[], ?_, .nil⟩
      obtain rfl : start = contents.length := consecutive
      rw [List.drop_length]
      rfl
  | cons range rest inductionHypothesis =>
      obtain ⟨first, last⟩ := range
      obtain ⟨rfl, ordered, later⟩ := consecutive
      have inside := later.le
      have representable := stored.representable
      obtain ⟨bodies, joined, served⟩ := inductionHypothesis later
      have limit : min last (contents.length - 1) = last := by omega
      have body : Served settings now uuid store vault hash s!"bytes={first}-{last}" _ :=
        served_between stored ordered (by omega) (by omega)
      rw [limit] at body
      refine ⟨_ :: bodies, ?_, .cons body served⟩
      have following : last + 1 = first + (last - first + 1) := by omega
      rw [List.flatten_cons, joined, following, ← List.drop_drop, List.take_append_drop]

/-- Whatever range is asked for, what is answered is the range, the whole blob or
nothing.  Numbers that do not fit into 64 bits ask for nothing in particular. -/
theorem range_downloads_exact
    (stored : StoredBlob store vault hash contents) :
    (∀ header, ∃ response, Served settings now uuid store vault hash header response ∧
      (response.status = 416 ∧ response.blobBytes = [] ∨
        response.status = 200 ∧ response.blobBytes = contents ∨
        response.status = 206 ∧ ∃ first last, first ≤ last ∧ last < contents.length ∧
          response.blobBytes = (contents.drop first).take (last - first + 1) ∧
          response.contentRange = some s!"bytes {first}-{last}/{contents.length}")) ∧
    (∀ header, parseByteRangeChecked header contents.length =
      some (parseByteRange header contents.length)) ∧
    (∀ first last : Nat, first ≤ last → last < 2 ^ 64 → first < contents.length →
      Served settings now uuid store vault hash s!"bytes={first}-{last}"
        (.blobRange first (min last (contents.length - 1)) contents.length
          ((contents.drop first).take (min last (contents.length - 1) - first + 1)))) ∧
    (∀ first last : Nat, 2 ^ 64 ≤ last →
      Served settings now uuid store vault hash s!"bytes={first}-{last}" (.blobContent contents)) ∧
    (∀ first : Nat, first < contents.length →
      Served settings now uuid store vault hash s!"bytes={first}-"
        (.blobRange first (contents.length - 1) contents.length (contents.drop first))) ∧
    (∀ length : Nat, 0 < length → length < 2 ^ 64 →
      Served settings now uuid store vault hash s!"bytes=-{length}"
        (.blobRange (contents.length - min length contents.length) (contents.length - 1)
          contents.length (contents.drop (contents.length - min length contents.length)))) ∧
    (∀ length : Nat, 2 ^ 64 ≤ length →
      Served settings now uuid store vault hash s!"bytes=-{length}" (.blobContent contents)) ∧
    (∀ ranges, Consecutive 0 ranges contents.length →
      ∃ bodies : List Bytes, bodies.flatten = contents ∧
        List.Forall₂ (fun range body => Served settings now uuid store vault hash
          s!"bytes={range.1}-{range.2}" (.blobRange range.1 range.2 contents.length body))
          ranges bodies) := by
  have nonempty := stored.nonempty
  have representable := stored.representable
  have answered : ∀ {header range}, parseByteRange header contents.length = range →
      Served settings now uuid store vault hash header (answerRange contents range) := by
    rintro header range rfl
    exact getBlob_alone stored header
  refine ⟨?_, fun header => parseByteRangeChecked_eq header _,
    fun first last => served_between stored, ?_, ?_, ?_, ?_, ?_⟩
  · intro header
    refine ⟨_, answered rfl, ?_⟩
    have proper := parseByteRange_proper header contents.length
    generalize parseByteRange header contents.length = range at proper
    cases proper with
    | ignored => exact .inr (.inl ⟨rfl, rfl⟩)
    | unsatisfiable => exact .inl ⟨rfl, rfl⟩
    | @range first last ordered inside =>
        exact .inr (.inr ⟨rfl, first, last, ordered, inside, rfl, rfl⟩)
  · intro first last large
    have ignored : parseByteRange s!"bytes={first}-{last}" contents.length = .ignored := by
      rw [parseByteRange_between]
      by_cases fits : first < 2 ^ 64
      · rw [withU64_of_lt fits, withU64_of_le large]
      · exact withU64_of_le (Nat.le_of_not_lt fits) _
    exact answered ignored
  · intro first inside
    have parsed : parseByteRange s!"bytes={first}-" contents.length =
        .range first (contents.length - 1) := by
      rw [parseByteRange_from, withU64_of_lt (by omega), if_neg (by omega)]
    have rest : (contents.drop first).take (contents.length - 1 - first + 1) =
        contents.drop first :=
      List.take_of_length_le (by rw [List.length_drop]; omega)
    have served := answered parsed
    simp only [answerRange] at served
    rwa [rest] at served
  · intro length some' fits
    have parsed : parseByteRange s!"bytes=-{length}" contents.length =
        .range (contents.length - min length contents.length) (contents.length - 1) := by
      rw [parseByteRange_suffix, withU64_of_lt fits, if_neg (by omega)]
    have rest : (contents.drop (contents.length - min length contents.length)).take
        (contents.length - 1 - (contents.length - min length contents.length) + 1) =
        contents.drop (contents.length - min length contents.length) :=
      List.take_of_length_le (by rw [List.length_drop]; omega)
    have served := answered parsed
    simp only [answerRange] at served
    rwa [rest] at served
  · intro length large
    have ignored : parseByteRange s!"bytes=-{length}" contents.length = .ignored := by
      rw [parseByteRange_suffix, withU64_of_le large]
    exact answered ignored
  · intro ranges consecutive
    simpa using served_consecutive stored consecutive

end Downloads

/-- A store with one blob of five bytes. -/
def BlobStore.fiveBytes : BlobStore where
  db := { BlobDb.fresh ∅ with blobs := AList.insert ⟨VaultId.v, Hash.ofA⟩ 5 ∅ }
  disk := ((Disk.empty.create (blobFilePath VaultId.v Hash.ofA)).2).writeAt 0
    (Disk.empty.create (blobFilePath VaultId.v Hash.ofA) : Nat × Disk FilePath UInt8).1 0
    [1, 2, 3, 4, 5]

theorem StoredBlob.fiveBytes :
    StoredBlob .fiveBytes VaultId.v Hash.ofA [1, 2, 3, 4, 5] where
  row := by decide +kernel
  file := by decide +kernel
  nonempty := by decide
  representable := by decide

/-- The end of the range does not fit into 64 bits. -/
theorem range_ignored :
    ¬ ∀ (store : BlobStore) (vault : VaultId) (hash : Hash) (contents : Bytes),
      StoredBlob store vault hash contents →
      ∀ first last : Nat, first ≤ last → first < contents.length →
        Served .reference 0 "" store vault hash s!"bytes={first}-{last}"
          (.blobRange first (min last (contents.length - 1)) contents.length
            ((contents.drop first).take (min last (contents.length - 1) - first + 1))) := by
  intro exact'
  have partly := exact' _ _ _ _ .fiveBytes 0 (2 ^ 64) (by decide) (by decide)
  have whole := @getBlob_alone .reference 0 "" _ _ _ _ .fiveBytes s!"bytes={0}-{2 ^ 64}"
  unfold Served at partly
  rw [whole, parseByteRange_between, withU64_of_lt (by decide), withU64_of_le (Nat.le_refl _)]
    at partly
  cases partly

/-- The last two bytes of five, and the whole in two parts. -/
theorem range_downloads_exact_fiveBytes :
    Served .reference 0 "" .fiveBytes VaultId.v Hash.ofA s!"bytes=-{2}"
        (.blobRange 3 4 5 [4, 5]) ∧
      ∃ bodies : List Bytes, bodies.flatten = [1, 2, 3, 4, 5] ∧
        List.Forall₂ (fun (range : Nat × Nat) body => Served .reference 0 "" .fiveBytes VaultId.v
          Hash.ofA s!"bytes={range.1}-{range.2}" (.blobRange range.1 range.2 5 body))
          [(0, 2), (3, 4)] bodies :=
  have holds := @range_downloads_exact .reference 0 "" _ _ _ _ .fiveBytes
  ⟨holds.2.2.2.2.2.1 2 (by decide) (by decide),
    holds.2.2.2.2.2.2.2 [(0, 2), (3, 4)] ⟨rfl, by decide, rfl, by decide, rfl⟩⟩

end VaultCrdtServer
