import VaultCrdtServer.Blobs.Keys

/-!
# Where files are

The files of blobs and of uploads are known by their components below
`blob_dir`.  This module puts the paths together as the source does and shows
that they have these components, so that no two of them meet.
-/

namespace VaultCrdtServer

/-! ## Paths -/

/-- `Path::join` -/
def joinPath (dir name : String) : String :=
  if name.toList.head? = some '/' then
    name
  else if dir = "" ∨ dir.toList.getLast? = some '/' then
    dir ++ name
  else
    dir ++ "/" ++ name

/-- The names in a path, from its root or from the working directory on. -/
def pathNames (path : String) : FilePath :=
  ((path.toList.splitOn '/').filter fun name => name ≠ [] ∧ name ≠ ['.']).map String.ofList

/-- The path starts from the root. -/
def isRooted (path : String) : Bool := path.toList.head? == some '/'

/-- `blob_file_path` -/
def blobPath (blobDir : String) (vaultId : VaultId) (hash : Hash) : String :=
  joinPath (joinPath (joinPath blobDir vaultId.1) (String.ofList (hash.1.toList.take 2))) hash.1

/-- `tmp_file_path` -/
def tmpPath (blobDir uploadId : String) : String :=
  joinPath (joinPath blobDir "tmp") uploadId

/-- A name that stands for an entry of a directory. -/
structure ProperName (name : String) : Prop where
  nonempty : name.toList ≠ []
  single : '/' ∉ name.toList
  noDot : name.toList ≠ ['.']
  noDotDot : name.toList ≠ ['.', '.']

/-- A proper name becomes the last one. -/
theorem pathNames_joinPath
    {dir name : String}
    (proper : ProperName name) :
    pathNames (joinPath dir name) = pathNames dir ++ [name] := by
  have relative : name.toList.head? ≠ some '/' := by
    intro head
    exact proper.single (List.mem_of_head? head)
  have single : ([name.toList].filter fun name => name ≠ [] ∧ name ≠ ['.']).map String.ofList =
      [name] := by
    simp [proper.nonempty, proper.noDot]
  have follows : ∀ front : List Char,
      (((front ++ '/' :: name.toList).splitOn '/').filter fun name =>
        name ≠ [] ∧ name ≠ ['.']).map String.ofList =
      ((front.splitOn '/').filter fun name => name ≠ [] ∧ name ≠ ['.']).map String.ofList ++
        [name] := by
    intro front
    rw [List.splitOn_append_cons_self, List.splitOn_eq_singleton proper.single,
      List.filter_append, List.map_append, single]
  unfold joinPath
  rw [if_neg relative]
  split_ifs with ends
  · rcases ends with rfl | ends
    · simp [pathNames, List.splitOn_eq_singleton proper.single, proper.nonempty, proper.noDot]
    · obtain ⟨front, whole⟩ := List.getLast?_eq_some_iff.mp ends
      unfold pathNames
      rw [String.toList_append, whole, List.append_assoc, List.singleton_append, follows,
        List.splitOn_append_cons_self]
      simp
  · unfold pathNames
    rw [String.toList_append, String.toList_append, List.append_assoc]
    exact follows dir.toList

theorem isRooted_joinPath
    {dir name : String}
    (proper : ProperName name) :
    isRooted (joinPath dir name) = isRooted dir := by
  have relative : name.toList.head? ≠ some '/' := by
    intro head
    exact proper.single (List.mem_of_head? head)
  unfold joinPath isRooted
  rw [if_neg relative]
  cases chars : dir.toList with
  | nil =>
      obtain rfl : dir = "" := String.toList_eq_nil_iff.mp chars
      simp [relative]
  | cons first rest => split_ifs <;> simp [chars]

/-! ## Names -/

/-- A UUID with hyphens. -/
def isUuid (text : String) : Bool :=
  (text.toList.splitOn '-').map List.length == [8, 4, 4, 4, 12] &&
    (text.toList.all fun c => c == '-' || c.isDigit || decide ('a' ≤ c ∧ c ≤ 'f') ||
      decide ('A' ≤ c ∧ c ≤ 'F'))

/-- An upload id. -/
abbrev Uuid := { text : String // isUuid text = true }

/-- A name without slashes and dots. -/
theorem ProperName.of_plain
    {name : String}
    (nonempty : name.toList ≠ [])
    (slash : '/' ∉ name.toList)
    (dot : '.' ∉ name.toList) :
    ProperName name where
  nonempty := nonempty
  single := slash
  noDot := by
    intro same
    simp [same] at dot
  noDotDot := by
    intro same
    simp [same] at dot

theorem VaultId.proper (vaultId : VaultId) : ProperName vaultId.1 := by
  have valid := vaultId.2
  unfold validVaultId at valid
  split at valid
  · cases valid
  · rename_i first rest chars
    simp only [Bool.and_eq_true, List.all_eq_true] at valid
    refine .of_plain (by simp [chars]) ?_ ?_
    · intro member
      exact absurd (valid.1.2 '/' member) (by decide)
    · intro member
      exact absurd (valid.1.2 '.' member) (by decide)

theorem Hash.plain (hash : Hash) : '/' ∉ hash.1.toList ∧ '.' ∉ hash.1.toList := by
  have valid := hash.2
  simp only [isHash, Bool.and_eq_true, List.all_eq_true] at valid
  refine ⟨?_, ?_⟩
  · intro member
    exact absurd (valid.2 '/' member) (by decide)
  · intro member
    exact absurd (valid.2 '.' member) (by decide)

/-- A hash has as many characters as bytes. -/
theorem Hash.length (hash : Hash) : hash.1.toList.length = 64 := by
  have valid := hash.2
  simp only [isHash, Bool.and_eq_true, decide_eq_true_eq, List.all_eq_true] at valid
  obtain ⟨size, digits⟩ := valid
  rw [← size, ← String.utf8Len_toList]
  clear size
  generalize hash.1.toList = chars at digits ⊢
  induction chars with
  | nil => rfl
  | cons c rest inductionHypothesis =>
      have ascii : c.utf8Size = 1 := by
        rw [Char.utf8Size_eq_one_iff]
        have digit := digits c List.mem_cons_self
        simp only [Bool.or_eq_true, Bool.and_eq_true, decide_eq_true_eq] at digit
        rcases digit with ⟨-, below⟩ | ⟨-, below⟩
        · exact UInt32.le_trans below (show '9'.val ≤ 127 by decide)
        · exact UInt32.le_trans below (show 'f'.val ≤ 127 by decide)
      rw [String.utf8Len_cons, List.length_cons, ascii,
        inductionHypothesis fun c member => digits c (List.mem_cons_of_mem _ member)]

theorem Hash.proper (hash : Hash) : ProperName hash.1 := by
  refine .of_plain ?_ hash.plain.1 hash.plain.2
  intro empty
  have length := hash.length
  rw [empty] at length
  cases length

/-- The first two digits of a hash. -/
theorem Hash.proper_take (hash : Hash) :
    ProperName (String.ofList (hash.1.toList.take 2)) := by
  have length := hash.length
  refine .of_plain ?_ ?_ ?_
  · rw [String.toList_ofList]
    intro empty
    have short := congrArg List.length empty
    rw [List.length_take, length] at short
    cases short
  · rw [String.toList_ofList]
    exact fun member => hash.plain.1 (List.mem_of_mem_take member)
  · rw [String.toList_ofList]
    exact fun member => hash.plain.2 (List.mem_of_mem_take member)

theorem Uuid.proper (uploadId : Uuid) : ProperName uploadId.1 := by
  have valid := uploadId.2
  simp only [isUuid, Bool.and_eq_true, beq_iff_eq, List.all_eq_true] at valid
  refine .of_plain ?_ ?_ ?_
  · intro empty
    rw [empty] at valid
    exact absurd valid.1 (by decide)
  · intro member
    exact absurd (valid.2 '/' member) (by decide)
  · intro member
    exact absurd (valid.2 '.' member) (by decide)

/-- A UUID is too long for a prefix of a hash. -/
theorem Uuid.ne_take (uploadId : Uuid) (hash : Hash) :
    uploadId.1 ≠ String.ofList (hash.1.toList.take 2) := by
  intro same
  have valid := uploadId.2
  simp only [isUuid, Bool.and_eq_true, beq_iff_eq] at valid
  have absent : '-' ∉ uploadId.1.toList := by
    rw [same, String.toList_ofList]
    intro member
    have digits := hash.2
    simp only [isHash, Bool.and_eq_true, List.all_eq_true] at digits
    exact absurd (digits.2 '-' (List.mem_of_mem_take member)) (by decide)
  rw [List.splitOn_eq_singleton absent] at valid
  exact absurd (congrArg List.length valid.1) (by simp)

/-! ## Files -/

section Files

variable (blobDir : String)

theorem pathNames_blobPath (vaultId : VaultId) (hash : Hash) :
    pathNames (blobPath blobDir vaultId hash) =
      pathNames blobDir ++ blobFilePath vaultId hash := by
  unfold blobPath blobFilePath
  rw [pathNames_joinPath hash.proper, pathNames_joinPath hash.proper_take,
    pathNames_joinPath vaultId.proper]
  simp

theorem pathNames_tmpPath (uploadId : Uuid) :
    pathNames (tmpPath blobDir uploadId.1) = pathNames blobDir ++ tmpFilePath uploadId.1 := by
  unfold tmpPath tmpFilePath
  rw [pathNames_joinPath uploadId.proper,
    pathNames_joinPath (.of_plain (by decide) (by decide) (by decide))]
  simp

/-- The paths the blob lane writes to. -/
inductive StoragePath : String → Prop
  | blob (vaultId : VaultId) (hash : Hash) : StoragePath (blobPath blobDir vaultId hash)
  | upload (uploadId : Uuid) : StoragePath (tmpPath blobDir uploadId.1)

/-- No two files of the blob lane meet, and all are below `blob_dir`. -/
structure FilesApart : Prop where
  blobs : ∀ vaultId hash vaultId' hash',
    blobPath blobDir vaultId hash = blobPath blobDir vaultId' hash' →
    vaultId = vaultId' ∧ hash = hash'
  uploads : ∀ uploadId uploadId' : Uuid,
    tmpPath blobDir uploadId.1 = tmpPath blobDir uploadId'.1 → uploadId = uploadId'
  apart : ∀ vaultId hash, ∀ uploadId : Uuid,
    blobPath blobDir vaultId hash ≠ tmpPath blobDir uploadId.1
  /-- None of them is a directory another one is in. -/
  leaves : ∀ path path', StoragePath blobDir path → StoragePath blobDir path' →
    pathNames path <+: pathNames path' → path = path'
  below : ∀ path, StoragePath blobDir path → isRooted path = isRooted blobDir ∧
    ∃ names, names ≠ [] ∧ pathNames path = pathNames blobDir ++ names ∧
      ∀ name ∈ names, ProperName name

/-- The files of blobs and of uploads never meet, whatever the vaults are called. -/
theorem blob_files_apart : FilesApart blobDir := by
  refine
    { blobs := ?_
      uploads := ?_
      apart := ?_
      leaves := ?_
      below := ?_ }
  · intro vaultId hash vaultId' hash' same
    have names := congrArg pathNames same
    rw [pathNames_blobPath, pathNames_blobPath, List.append_cancel_left_eq] at names
    exact blobFilePath_inj.mp names
  · intro uploadId uploadId' same
    have names := congrArg pathNames same
    rw [pathNames_tmpPath, pathNames_tmpPath, List.append_cancel_left_eq] at names
    exact Subtype.ext (tmpFilePath_inj.mp names)
  · intro vaultId hash uploadId same
    have names := congrArg pathNames same
    rw [pathNames_blobPath, pathNames_tmpPath, List.append_cancel_left_eq] at names
    exact blobFilePath_ne_tmpFilePath uploadId.1 vaultId hash names
  · intro path path' stored stored' inside
    cases stored with
    | blob vaultId hash =>
        cases stored' with
        | blob vaultId' hash' =>
            rw [pathNames_blobPath, pathNames_blobPath, List.prefix_append_right_inj] at inside
            have same := inside.eq_of_length rfl
            obtain ⟨rfl, rfl⟩ := blobFilePath_inj.mp same
            rfl
        | upload uploadId =>
            rw [pathNames_blobPath, pathNames_tmpPath, List.prefix_append_right_inj] at inside
            exact absurd inside.length_le (by simp [blobFilePath, tmpFilePath])
    | upload uploadId =>
        cases stored' with
        | blob vaultId hash =>
            rw [pathNames_blobPath, pathNames_tmpPath, List.prefix_append_right_inj] at inside
            -- The vault may be called `tmp`, but a UUID is no prefix of a hash.
            simp only [tmpFilePath, blobFilePath, List.cons_prefix_cons] at inside
            exact absurd inside.2.1 (uploadId.ne_take hash)
        | upload uploadId' =>
            rw [pathNames_tmpPath, pathNames_tmpPath, List.prefix_append_right_inj] at inside
            have same := inside.eq_of_length rfl
            rw [tmpFilePath_inj.mp same]
  · intro path stored
    cases stored with
    | blob vaultId hash =>
        refine ⟨?_, _, ?_, pathNames_blobPath blobDir vaultId hash, ?_⟩
        · unfold blobPath
          rw [isRooted_joinPath hash.proper, isRooted_joinPath hash.proper_take,
            isRooted_joinPath vaultId.proper]
        · simp [blobFilePath]
        · simp only [blobFilePath, List.mem_cons, List.not_mem_nil, or_false]
          rintro name (rfl | rfl | rfl)
          · exact vaultId.proper
          · exact hash.proper_take
          · exact hash.proper
    | upload uploadId =>
        have staging : ProperName "tmp" := .of_plain (by decide) (by decide) (by decide)
        refine ⟨?_, _, ?_, pathNames_tmpPath blobDir uploadId, ?_⟩
        · unfold tmpPath
          rw [isRooted_joinPath uploadId.proper, isRooted_joinPath staging]
        · simp [tmpFilePath]
        · simp only [tmpFilePath, List.mem_cons, List.not_mem_nil, or_false]
          rintro name (rfl | rfl)
          · exact staging
          · exact uploadId.proper

end Files

end VaultCrdtServer
