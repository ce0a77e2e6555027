import Mathlib
import VaultCrdtServer.Blobs.Keys

/-!
# Display paths

The rules for display paths are those for keys, but that the places they name
are compared as they are spelled.  The two agree on a path up to the case of its
letters where it spells these places in lower case.
-/

namespace VaultCrdtServer

/-- `str::to_ascii_lowercase` -/
def asciiLowercase (text : String) : String :=
  String.ofList (text.toList.map Char.toLower)

section Lowercase

variable {text : List Char}

/-- A character that is no letter stands only for itself. -/
theorem toLower_eq_iff
    {c symbol : Char}
    (noLetter : symbol.isAlpha = false) :
    c.toLower = symbol ↔ c = symbol := by
  have symbolLower : symbol.toLower = symbol := by
    refine Char.toLower_eq_of_not_isUpper ?_
    simp only [Char.isAlpha, Bool.or_eq_false_iff] at noLetter
    simp [noLetter.1]
  constructor
  · intro lowered
    by_cases upper : c.isUpper = true
    · have letter : c.toLower.isLower = true := by
        simp [Char.isLower_toLower_eq_isAlpha, Char.isAlpha, upper]
      rw [lowered] at letter
      simp [Char.isAlpha, letter] at noLetter
    · rwa [Char.toLower_eq_of_not_isUpper upper] at lowered
  · rintro rfl
    exact symbolLower

theorem rsplitOnce_map_toLower
    {separator : Char}
    (noLetter : separator.isAlpha = false) :
    rsplitOnce separator (text.map Char.toLower) =
      (rsplitOnce separator text).map fun parts =>
        (parts.1.map Char.toLower, parts.2.map Char.toLower) := by
  induction text with
  | nil => rfl
  | cons head tail inductionHypothesis =>
      simp only [List.map_cons, rsplitOnce, inductionHypothesis, toLower_eq_iff noLetter]
      cases rsplitOnce separator tail with
      | none => split_ifs <;> rfl
      | some parts => rfl

theorem splitOn_map_toLower
    {separator : Char}
    (noLetter : separator.isAlpha = false) :
    (text.map Char.toLower).splitOn separator =
      (text.splitOn separator).map (List.map Char.toLower) := by
  induction text with
  | nil => rfl
  | cons head tail inductionHypothesis =>
      obtain ⟨segment, segments, split⟩ :=
        List.exists_cons_of_ne_nil (List.splitOn_ne_nil separator tail)
      rw [List.map_cons, List.splitOn_cons_eq_if_modifyHead, List.splitOn_cons_eq_if_modifyHead,
        inductionHypothesis, split]
      simp only [beq_iff_eq, toLower_eq_iff noLetter]
      split_ifs <;> rfl

theorem lastSegment_map_toLower :
    lastSegment '/' (text.map Char.toLower) = (lastSegment '/' text).map Char.toLower := by
  unfold lastSegment
  rw [rsplitOnce_map_toLower (by decide)]
  cases rsplitOnce '/' text <;> rfl

theorem lastExtension_map_toLower :
    lastExtension (text.map Char.toLower) = (lastExtension text).map (List.map Char.toLower) := by
  unfold lastExtension
  rw [rsplitOnce_map_toLower (by decide)]
  cases rsplitOnce '.' text with
  | none => rfl
  | some parts =>
      simp only [Option.map_some, List.map_eq_nil_iff]
      split_ifs <;> rfl

/-- The cap of an extension does not depend on its case. -/
theorem capForExtension_map_toLower :
    capForExtension (text.map Char.toLower) = capForExtension text := by
  unfold capForExtension
  rw [List.map_map]
  congr 2
  refine List.map_congr_left ?_
  intro c _
  exact Char.toLower_eq_of_not_isUpper (by simp)

theorem attachmentExtension_map_toLower :
    attachmentExtension (text.map Char.toLower) = attachmentExtension text := by
  unfold attachmentExtension
  rw [lastSegment_map_toLower, lastExtension_map_toLower]
  cases lastExtension (lastSegment '/' text) with
  | none => rfl
  | some ext => simp [capForExtension_map_toLower]

theorem validSegment_map_toLower :
    validSegment (text.map Char.toLower) = validSegment text := by
  have last : ∀ {symbol : Char}, symbol.isAlpha = false →
      ((text.map Char.toLower).getLast? = some symbol ↔ text.getLast? = some symbol) := by
    intro symbol noLetter
    rw [List.getLast?_map]
    cases text.getLast? <;> simp [toLower_eq_iff noLetter]
  have dots : ∀ count, text.map Char.toLower = List.replicate count '.' ↔
      text = List.replicate count '.' := by
    intro count
    simp only [List.eq_replicate_iff, List.length_map, List.mem_map,
      forall_exists_index, and_imp, forall_apply_eq_imp_iff₂,
      toLower_eq_iff (show ('.' : Char).isAlpha = false by decide)]
  have dot : text.map Char.toLower = ['.'] ↔ text = ['.'] := dots 1
  have dotdot : text.map Char.toLower = ['.', '.'] ↔ text = ['.', '.'] := dots 2
  have backslash : '\\' ∈ text.map Char.toLower ↔ '\\' ∈ text := by
    simp [toLower_eq_iff (show ('\\' : Char).isAlpha = false by decide)]
  rw [Bool.eq_iff_iff]
  simp only [validSegment, Bool.and_eq_true, Bool.not_eq_true', List.isEmpty_eq_false_iff,
    bne_iff_ne, List.contains_eq_mem, decide_eq_false_iff_not, Ne, List.map_eq_nil_iff,
    dot, dotdot, backslash,
    last (show (' ' : Char).isAlpha = false by decide),
    last (show ('.' : Char).isAlpha = false by decide)]

theorem utf8Size_toLower (c : Char) : c.toLower.utf8Size = c.utf8Size := by
  by_cases upper : c.isUpper = true
  · have small : ∀ {c : Char}, c.toNat ≤ 127 → c.utf8Size = 1 := by
      intro c small
      rw [Char.utf8Size_eq_one_iff, UInt32.le_iff_toNat_le]
      exact small
    have bound : c.toNat ≤ 90 := by
      simp only [Char.isUpper, decide_eq_true_eq, UInt32.le_iff_toNat_le]
        at upper
      exact upper.2
    have lowered : c.toLower.toNat = c.toNat + 32 := by
      rw [Char.toLower_eq_of_isUpper upper, Char.toNat_ofNat, if_pos (Or.inl (by omega))]
    rw [small (by omega), small (by omega)]
  · rw [Char.toLower_eq_of_not_isUpper upper]

/-- Lowering keeps what the validators ask of a path. -/
theorem wellFormedPath_asciiLowercase {path : String} :
    WellFormedPath (asciiLowercase path) ↔ WellFormedPath path := by
  have size : (asciiLowercase path).utf8ByteSize = path.utf8ByteSize := by
    rw [asciiLowercase, String.utf8ByteSize_ofList, ← String.utf8Len_toList path]
    induction path.toList with
    | nil => rfl
    | cons c rest inductionHypothesis =>
        rw [List.map_cons, String.utf8Len_cons, String.utf8Len_cons, inductionHypothesis,
          utf8Size_toLower]
  have chars : (asciiLowercase path).toList = path.toList.map Char.toLower :=
    String.toList_ofList
  have head : (path.toList.map Char.toLower).head? = some '/' ↔ path.toList.head? = some '/' := by
    cases path.toList with
    | nil => simp
    | cons c rest => simp [toLower_eq_iff (show ('/' : Char).isAlpha = false by decide)]
  have segments : (∀ segment ∈ (path.toList.map Char.toLower).splitOn '/',
      validSegment segment = true) ↔
      ∀ segment ∈ path.toList.splitOn '/', validSegment segment = true := by
    simp [splitOn_map_toLower, validSegment_map_toLower]
  constructor
  · rintro ⟨nonempty, short, relative, valid⟩
    rw [chars] at nonempty relative valid
    exact ⟨by simpa using nonempty, size ▸ short, head.not.mp relative, segments.mp valid⟩
  · rintro ⟨nonempty, short, relative, valid⟩
    refine ⟨?_, size ▸ short, ?_, ?_⟩
    · rw [chars]
      simpa using nonempty
    · rw [chars]
      exact head.not.mpr relative
    · rw [chars]
      exact segments.mpr valid

/-- A directory whose name is in lower case stays where it is. -/
theorem underDirectory_map_toLower
    {dir : String}
    (single : '/' ∉ dir.toList)
    (lower : dir.toList.map Char.toLower = dir.toList)
    (below : underDirectory dir text = true) :
    underDirectory dir (text.map Char.toLower) = true := by
  rw [underDirectory_iff single] at below ⊢
  rw [splitOn_map_toLower (by decide), List.head?_map, below, Option.map_some, lower]

/-- So does a file on the allowlist. -/
theorem obsidianAllowlisted_map_toLower
    (allowed : obsidianAllowlisted text = true) :
    obsidianAllowlisted (text.map Char.toLower) = true := by
  refine allowlisted_of_obsidianFile ?_
  rw [splitOn_map_toLower (by decide)]
  have file := obsidianFile_of_allowlisted allowed
  generalize text.splitOn '/' = segments at file
  cases file with
  | app => exact .app
  | appearance => exact .appearance
  | @snippet stem nonempty =>
      rw [List.map_cons, List.map_cons, List.map_cons, List.map_append]
      exact .snippet (by simpa using nonempty)
  | theme nonempty named =>
      rcases named with rfl | rfl
      · exact .theme (by simpa using nonempty) (Or.inl rfl)
      · exact .theme (by simpa using nonempty) (Or.inr rfl)

end Lowercase

/-- What is on the allowlist lies below `.obsidian` and is no attachment. -/
theorem obsidianAllowlisted_excludes
    {path : List Char}
    (allowed : obsidianAllowlisted path = true) :
    underDirectory ".obsidian" path = true ∧ attachmentExtension path = false := by
  have file := obsidianFile_of_allowlisted allowed
  refine ⟨?_, ?_⟩
  · rw [underDirectory_iff (by decide)]
    generalize path.splitOn '/' = segments at file
    cases file <;> rfl
  · obtain ⟨ext, found, kind⟩ := file.extension
    rw [attachmentExtension, found]
    rcases kind with rfl | rfl
    · decide +kernel
    · decide +kernel

/-- The path spells the places the rules name as the rules do, as far as that
makes a difference. -/
def SpeltAsRules (path : String) : Prop :=
  WellFormedPath path →
    (attachmentExtension path.toList = true →
      underDirectory ".trash" (asciiLowercase path).toList = true ∨
        underDirectory ".obsidian" (asciiLowercase path).toList = true →
      underDirectory ".trash" path.toList = true ∨
        underDirectory ".obsidian" path.toList = true) ∧
    (obsidianAllowlisted (asciiLowercase path).toList = true →
      obsidianAllowlisted path.toList = true)

/-- Two directories do not contain one path. -/
theorem not_trash_of_obsidian
    {path : List Char}
    (below : underDirectory ".obsidian" path = true) :
    underDirectory ".trash" path = false := by
  rw [underDirectory_iff (by decide)] at below
  rw [← Bool.not_eq_true, underDirectory_iff (by decide), below]
  decide

/-- A display path is accepted if and only if its lower case form is accepted as a
key, exactly where it spells the places the rules name as the rules do. -/
theorem validateDisplayPath_iff_lowercase (path : String) :
    (validateDisplayPath path = true ↔ validateBlobKey (asciiLowercase path) = true) ↔
      SpeltAsRules path := by
  have chars : (asciiLowercase path).toList = path.toList.map Char.toLower :=
    String.toList_ofList
  have lower : ∀ c ∈ path.toList.map Char.toLower, c.isUpper = false := by
    intro c member
    obtain ⟨c, -, rfl⟩ := List.mem_map.mp member
    exact Char.isUpper_toLower_eq_false c
  have trash : underDirectory ".trash" path.toList = true →
      underDirectory ".trash" (path.toList.map Char.toLower) = true :=
    underDirectory_map_toLower (by decide) (by decide)
  have obsidian : underDirectory ".obsidian" path.toList = true →
      underDirectory ".obsidian" (path.toList.map Char.toLower) = true :=
    underDirectory_map_toLower (by decide) (by decide)
  have allowed : obsidianAllowlisted path.toList = true →
      obsidianAllowlisted (path.toList.map Char.toLower) = true :=
    obsidianAllowlisted_map_toLower
  have excludes := @obsidianAllowlisted_excludes path.toList
  have excludes' := @obsidianAllowlisted_excludes (path.toList.map Char.toLower)
  have apart := @not_trash_of_obsidian path.toList
  have apart' := @not_trash_of_obsidian (path.toList.map Char.toLower)
  rw [attachmentExtension_map_toLower] at excludes'
  unfold validateDisplayPath validateBlobKey SpeltAsRules
  rw [validateSegments_iff, validateSegments_iff, wellFormedPath_asciiLowercase, chars,
    attachmentExtension_map_toLower]
  by_cases formed : WellFormedPath path
  · simp only [formed, true_and, forall_true_left, Bool.true_eq_false, false_implies]
    grind
  · simp [formed]

/-- A picture in the bin, spelt with a capital. -/
theorem validateDisplayPath_trash :
    ¬ ∀ path : String,
      validateDisplayPath path = true ↔ validateBlobKey (asciiLowercase path) = true := by
  intro alike
  exact absurd (alike ".Trash/a.png") (by decide +kernel)

end VaultCrdtServer
