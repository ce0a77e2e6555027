import Mathlib.Data.String.Basic

/-!
# Names in the blob lane

Hashes, vault ids, path keys and display paths, the caps that depend on them,
and the names of files and locks (`src/blobs.rs`, `valid_vault_id` in
`src/lib.rs`).

Strings are examined as lists of characters.  The source compares bytes; every
byte it looks for is ASCII and so is a character by itself.
-/

namespace VaultCrdtServer

/-! ## Splitting -/

/-- `str::split_once` -/
def splitOnce (separator : Char) : List Char → Option (List Char × List Char)
  | [] => none
  | first :: rest =>
      if first = separator then
        some ([], rest)
      else
        (splitOnce separator rest).map fun parts => (first :: parts.1, parts.2)

/-- `str::rsplit_once` -/
def rsplitOnce (separator : Char) : List Char → Option (List Char × List Char)
  | [] => none
  | first :: rest =>
      match rsplitOnce separator rest with
      | some parts => some (first :: parts.1, parts.2)
      | none => if first = separator then some ([], rest) else none

/-- Last part of a string that is split at a separator. -/
def lastSegment (separator : Char) (name : List Char) : List Char :=
  ((rsplitOnce separator name).map Prod.snd).getD name

/-! ## Hashes and vault ids -/

/-- `is_hash` -/
def isHash (text : String) : Bool :=
  decide (text.utf8ByteSize = 64) &&
    text.toList.all fun c =>
      decide ('0' ≤ c) && decide (c ≤ '9') || decide ('a' ≤ c) && decide (c ≤ 'f')

/-- A string that `is_hash` accepts. -/
abbrev Hash := { text : String // isHash text = true }

/-- `valid_vault_id` -/
def validVaultId (vaultId : String) : Bool :=
  match vaultId.toList with
  | [] => false
  | first :: _ =>
      decide (vaultId.utf8ByteSize ≤ 64) &&
        (vaultId.toList.all fun c =>
          c.isLower || c.isDigit || c == '-' || c == '_') &&
        first.isAlphanum

/-- The vault of an authenticated request. -/
abbrev VaultId := { vaultId : String // validVaultId vaultId = true }

/-! ## Caps -/

/-- `IMAGE_CAP` -/
def imageCap : Nat := 10 * 1024 * 1024

/-- `PDF_CAP` -/
def pdfCap : Nat := 10 * 1024 * 1024

/-- `AUDIO_CAP` -/
def audioCap : Nat := 25 * 1024 * 1024

/-- `OBSIDIAN_CAP` -/
def obsidianCap : Nat := 2 * 1024 * 1024

/-- `ABSOLUTE_MAX` -/
def absoluteMax : Nat := audioCap

/-- `KEY_MAX_BYTES` -/
def keyMaxBytes : Nat := 1024

/-- `type_cap_for_ext` -/
def typeCapForExt (ext : String) : Option Nat :=
  if ext ∈ ["jpg", "jpeg", "png", "webp", "gif", "heic", "heif", "avif", "svg"] then
    some imageCap
  else if ext = "pdf" then
    some pdfCap
  else if ext ∈ ["mp3", "m4a", "ogg", "oga", "opus", "flac", "wav", "webm", "3gp"] then
    some audioCap
  else
    none

/-- `last_extension` -/
def lastExtension (name : List Char) : Option (List Char) :=
  match rsplitOnce '.' name with
  | some (stem, ext) => if stem = [] ∨ ext = [] then none else some ext
  | none => none

/-- `type_cap_for_ext` of an extension in ASCII lower case. -/
def capForExtension (ext : List Char) : Option Nat :=
  typeCapForExt (String.ofList (ext.map Char.toLower))

/-! ## Path keys -/

/-- `obsidian_allowlisted` -/
def obsidianAllowlisted (path : List Char) : Bool :=
  match path.dropPrefix? ".obsidian/".toList with
  | none => false
  | some rest =>
      if rest = "app.json".toList ∨ rest = "appearance.json".toList then
        true
      else
        match rest.dropPrefix? "snippets/".toList with
        | some name =>
            !name.isEmpty && !name.contains '/' &&
              lastExtension name == some "css".toList
        | none =>
            match rest.dropPrefix? "themes/".toList with
            | some themeRest =>
                match splitOnce '/' themeRest with
                | none => false
                | some (dir, file) =>
                    !dir.isEmpty && !file.contains '/' &&
                      (file == "theme.css".toList || file == "manifest.json".toList)
            | none => false

/-- The checks `validate_segments` makes of one segment. -/
def validSegment (segment : List Char) : Bool :=
  !segment.isEmpty && segment != ['.'] && segment != ['.', '.'] &&
    !segment.contains '\\' &&
    segment.getLast? != some ' ' && segment.getLast? != some '.'

/-- `validate_segments` -/
def validateSegments (path : String) (allowAsciiUpper : Bool) : Bool :=
  let chars := path.toList
  if chars.isEmpty || decide (keyMaxBytes < path.utf8ByteSize) ||
      chars.head? == some '/' then
    false
  else if !allowAsciiUpper && chars.any Char.isUpper then
    false
  else if chars == ".trash".toList || ".trash/".toList.isPrefixOf chars then
    false
  else if !(chars.splitOn '/').all validSegment then
    false
  else if chars == ".obsidian".toList || ".obsidian/".toList.isPrefixOf chars then
    obsidianAllowlisted chars
  else
    match lastExtension (lastSegment '/' chars) with
    | none => false
    | some ext => (capForExtension ext).isSome

/-- `validate_blob_key` -/
def validateBlobKey (key : String) : Bool :=
  validateSegments key false

/-- `validate_display_path` -/
def validateDisplayPath (path : String) : Bool :=
  validateSegments path true

/-- `cap_for_key` -/
def capForKey (key : String) : Option Nat :=
  if obsidianAllowlisted key.toList then
    some obsidianCap
  else
    (lastExtension (lastSegment '/' key.toList)).bind capForExtension

/-- A key that is accepted has a cap. -/
theorem capForKey_isSome
    {key : String}
    (valid : validateBlobKey key = true) :
    (capForKey key).isSome = true := by
  unfold capForKey
  split
  · rfl
  · rename_i blocked
    simp only [validateBlobKey, validateSegments] at valid
    split_ifs at valid
    · exact absurd valid blocked
    · cases extension : lastExtension (lastSegment '/' key.toList) with
      | none => simp [extension] at valid
      | some ext => simpa [extension] using valid

example : validateBlobKey ".obsidian/themes/minimal/theme.css" = true := by decide +kernel

/-! ## Files and locks -/

/-- Components of a path below `blob_dir`. -/
abbrev FilePath := List String

/-- `blob_file_path` -/
def blobFilePath (vaultId : VaultId) (hash : Hash) : FilePath :=
  [vaultId.1, String.ofList (hash.1.toList.take 2), hash.1]

/-- `tmp_file_path` -/
def tmpFilePath (uploadId : String) : FilePath :=
  ["tmp", uploadId]

@[simp] theorem tmpFilePath_inj {first second : String} :
    tmpFilePath first = tmpFilePath second ↔ first = second := by
  simp [tmpFilePath]

@[simp] theorem tmpFilePath_ne_blobFilePath
    (uploadId : String)
    (vaultId : VaultId)
    (hash : Hash) :
    tmpFilePath uploadId ≠ blobFilePath vaultId hash := by
  simp [tmpFilePath, blobFilePath]

@[simp] theorem blobFilePath_ne_tmpFilePath
    (uploadId : String)
    (vaultId : VaultId)
    (hash : Hash) :
    blobFilePath vaultId hash ≠ tmpFilePath uploadId := by
  simp [tmpFilePath, blobFilePath]

theorem blobFilePath_inj
    {vaultId vaultId' : VaultId}
    {hash hash' : Hash} :
    blobFilePath vaultId hash = blobFilePath vaultId' hash' ↔
      vaultId = vaultId' ∧ hash = hash' := by
  constructor
  · intro same
    simp only [blobFilePath, List.cons.injEq] at same
    exact ⟨Subtype.ext same.1, Subtype.ext same.2.2.1⟩
  · rintro ⟨rfl, rfl⟩
    rfl

/-- `upload_lock_key` -/
def uploadLockKey (vaultId : VaultId) (hash : Hash) : String :=
  "blob-upload:" ++ vaultId.1 ++ ":" ++ hash.1

/-- `path_lock_key` -/
def pathLockKey (vaultId : VaultId) (pathKey : String) : String :=
  "blob:" ++ vaultId.1 ++ ":" ++ pathKey

end VaultCrdtServer
