import VaultCrdtServer.Blobs.Handlers

/-!
# Path keys

The functions that look at a key split it in different ways.  A key that is
accepted has one meaning for all of them, and stays below the vault.
-/

namespace VaultCrdtServer

/-! ## Splitting -/

section Splitting

variable {separator : Char} {text first rest : List Char}

theorem splitOnce_eq_none_iff : splitOnce separator text = none ↔ separator ∉ text := by
  induction text with
  | nil => simp [splitOnce]
  | cons head tail inductionHypothesis =>
      by_cases same : head = separator
      · simp [splitOnce, same]
      · simp [splitOnce, same, inductionHypothesis, Ne.symm same]

/-- The separator a text is split at is its first. -/
theorem splitOnce_eq_some_iff :
    splitOnce separator text = some (first, rest) ↔
      text = first ++ separator :: rest ∧ separator ∉ first := by
  induction text generalizing first with
  | nil => simp [splitOnce]
  | cons head tail inductionHypothesis =>
      by_cases same : head = separator
      · subst same
        cases first with
        | nil => simp [splitOnce, eq_comm]
        | cons head' first =>
            simp only [splitOnce, if_true, Option.some.injEq, Prod.mk.injEq, List.cons_append,
              List.cons.injEq, List.mem_cons, not_or]
            constructor
            · rintro ⟨nothing, -⟩
              cases nothing
            · rintro ⟨⟨same, -⟩, different, -⟩
              exact absurd same different
      · cases first with
        | nil =>
            simp only [splitOnce, same, if_false, Option.map_eq_some_iff]
            constructor
            · rintro ⟨parts, -, split⟩
              cases split
            · rintro ⟨split, -⟩
              exact absurd (List.cons.inj split).1 same
        | cons head' first =>
            simp only [splitOnce, same, if_false, Option.map_eq_some_iff, Prod.mk.injEq,
              List.cons.injEq, List.cons_append, List.mem_cons, not_or]
            constructor
            · rintro ⟨⟨first', rest'⟩, split, ⟨rfl, rfl⟩, rfl⟩
              obtain ⟨rfl, absent⟩ := inductionHypothesis.mp split
              exact ⟨⟨rfl, rfl⟩, Ne.symm same, absent⟩
            · rintro ⟨⟨rfl, rfl⟩, -, absent⟩
              exact ⟨(first, rest), inductionHypothesis.mpr ⟨rfl, absent⟩, ⟨rfl, rfl⟩, rfl⟩

theorem rsplitOnce_eq_none_iff : rsplitOnce separator text = none ↔ separator ∉ text := by
  induction text with
  | nil => simp [rsplitOnce]
  | cons head tail inductionHypothesis =>
      cases split : rsplitOnce separator tail with
      | none =>
          have absent := inductionHypothesis.mp split
          by_cases same : head = separator
          · simp [rsplitOnce, split, same]
          · simp [rsplitOnce, split, same, Ne.symm same, absent]
      | some parts =>
          have present : separator ∈ tail := by
            by_contra absent
            rw [inductionHypothesis.mpr absent] at split
            cases split
          simp [rsplitOnce, split, present]

/-- The separator a text is split at from the right is its last. -/
theorem rsplitOnce_eq_some_iff :
    rsplitOnce separator text = some (first, rest) ↔
      text = first ++ separator :: rest ∧ separator ∉ rest := by
  induction text generalizing first rest with
  | nil => simp [rsplitOnce]
  | cons head tail inductionHypothesis =>
      cases split : rsplitOnce separator tail with
      | none =>
          have absent := rsplitOnce_eq_none_iff.mp split
          simp only [rsplitOnce, split]
          constructor
          · intro found
            split_ifs at found with same
            obtain ⟨rfl, rfl⟩ := Prod.mk.inj (Option.some.inj found)
            exact ⟨by rw [same]; rfl, absent⟩
          · rintro ⟨whole, -⟩
            cases first with
            | nil =>
                obtain ⟨same, rfl⟩ := List.cons.inj whole
                rw [if_pos same]
            | cons head' first =>
                obtain ⟨-, rfl⟩ := List.cons.inj whole
                simp at absent
      | some parts =>
          obtain ⟨first', rest'⟩ := parts
          obtain ⟨rfl, absent'⟩ := inductionHypothesis.mp split
          simp only [rsplitOnce, split, Option.some.injEq, Prod.mk.injEq]
          constructor
          · rintro ⟨rfl, rfl⟩
            exact ⟨rfl, absent'⟩
          · rintro ⟨whole, absent⟩
            cases first with
            | nil =>
                obtain ⟨-, rfl⟩ := List.cons.inj whole
                simp at absent
            | cons head' first =>
                obtain ⟨rfl, split'⟩ := List.cons.inj whole
                have again := split.symm.trans (inductionHypothesis.mpr ⟨split', absent⟩)
                obtain ⟨rfl, rfl⟩ := Prod.mk.inj (Option.some.inj again)
                exact ⟨rfl, rfl⟩

/-- A text either has no separator, or a first one at which it is split. -/
theorem splitOn_cases (separator : Char) (text : List Char) :
    (separator ∉ text ∧ text.splitOn separator = [text]) ∨
      ∃ first rest, text = first ++ separator :: rest ∧ separator ∉ first ∧
        text.splitOn separator = first :: rest.splitOn separator := by
  cases split : splitOnce separator text with
  | none =>
      have absent := splitOnce_eq_none_iff.mp split
      exact Or.inl ⟨absent, List.splitOn_eq_singleton absent⟩
  | some parts =>
      obtain ⟨first, rest⟩ := parts
      obtain ⟨rfl, absent⟩ := splitOnce_eq_some_iff.mp split
      exact Or.inr ⟨first, rest, rfl, absent,
        List.splitOn_append_cons_self_of_not_mem absent rest⟩

/-- The characters of a text are separators or in one of its segments. -/
theorem mem_splitOn
    {c : Char}
    (member : c ∈ text) :
    c = separator ∨ ∃ segment ∈ text.splitOn separator, c ∈ segment := by
  induction text with
  | nil => cases member
  | cons head tail inductionHypothesis =>
      rw [List.splitOn_cons_eq_if_modifyHead]
      obtain ⟨segment, segments, split⟩ :=
        List.exists_cons_of_ne_nil (List.splitOn_ne_nil separator tail)
      rw [split] at inductionHypothesis ⊢
      by_cases same : head = separator
      · rw [if_pos (by simpa using same)]
        rcases List.mem_cons.mp member with rfl | member
        · exact Or.inl same
        · refine (inductionHypothesis member).imp id ?_
          rintro ⟨found, among, inside⟩
          exact ⟨found, List.mem_cons_of_mem _ among, inside⟩
      · rw [if_neg (by simpa using same)]
        simp only [List.modifyHead_cons, List.mem_cons]
        rcases List.mem_cons.mp member with rfl | member
        · exact Or.inr ⟨_, Or.inl rfl, List.mem_cons_self⟩
        · refine (inductionHypothesis member).imp id ?_
          rintro ⟨found, among, inside⟩
          rcases List.mem_cons.mp among with rfl | among
          · exact ⟨_, Or.inl rfl, List.mem_cons_of_mem _ inside⟩
          · exact ⟨found, Or.inr among, inside⟩

/-- No segment has a separator. -/
theorem not_mem_splitOn
    {segment : List Char}
    (member : segment ∈ text.splitOn separator) :
    separator ∉ segment := by
  induction text generalizing segment with
  | nil =>
      obtain rfl := List.mem_singleton.mp member
      exact List.not_mem_nil
  | cons head tail inductionHypothesis =>
      rw [List.splitOn_cons_eq_if_modifyHead] at member
      obtain ⟨first, others, split⟩ :=
        List.exists_cons_of_ne_nil (List.splitOn_ne_nil separator tail)
      rw [split] at member inductionHypothesis
      by_cases same : head = separator
      · rw [if_pos (by simpa using same)] at member
        rcases List.mem_cons.mp member with rfl | member
        · exact List.not_mem_nil
        · exact inductionHypothesis member
      · rw [if_neg (by simpa using same), List.modifyHead_cons] at member
        rcases List.mem_cons.mp member with rfl | member
        · rw [List.mem_cons, not_or]
          exact ⟨Ne.symm same, inductionHypothesis List.mem_cons_self⟩
        · exact inductionHypothesis (List.mem_cons_of_mem _ member)

/-- Separators that do not occur do not split. -/
theorem splitOnP_congr
    {splits splits' : Char → Bool}
    (same : ∀ c ∈ text, splits c = splits' c) :
    text.splitOnP splits = text.splitOnP splits' := by
  induction text with
  | nil => rfl
  | cons head tail inductionHypothesis =>
      rw [List.splitOnP_cons_eq_if_modifyHead, List.splitOnP_cons_eq_if_modifyHead,
        same head List.mem_cons_self,
        inductionHypothesis fun c member => same c (List.mem_cons_of_mem _ member)]

/-- The last segment follows the last separator. -/
theorem lastSegment_cases (separator : Char) (text : List Char) :
    separator ∉ lastSegment separator text ∧
      ∃ front, text = front ++ lastSegment separator text ∧
        (front = [] ∨ ∃ stem, front = stem ++ [separator]) := by
  unfold lastSegment
  cases split : rsplitOnce separator text with
  | none => exact ⟨rsplitOnce_eq_none_iff.mp split, [], rfl, Or.inl rfl⟩
  | some parts =>
      obtain ⟨stem, last⟩ := parts
      obtain ⟨rfl, absent⟩ := rsplitOnce_eq_some_iff.mp split
      exact ⟨absent, stem ++ [separator], by simp, Or.inr ⟨stem, rfl⟩⟩

theorem getLast?_splitOn (separator : Char) (text : List Char) :
    (text.splitOn separator).getLast? = some (lastSegment separator text) := by
  unfold lastSegment
  cases split : rsplitOnce separator text with
  | none => simp [List.splitOn_eq_singleton (rsplitOnce_eq_none_iff.mp split)]
  | some parts =>
      obtain ⟨stem, last⟩ := parts
      obtain ⟨rfl, absent⟩ := rsplitOnce_eq_some_iff.mp split
      rw [List.splitOn_append_cons_self, List.splitOn_eq_singleton absent]
      simp

end Splitting

/-! ## Extensions -/

/-- The extension follows the last dot, and neither it nor what precedes the dot
is empty. -/
theorem lastExtension_eq_some_iff {name ext : List Char} :
    lastExtension name = some ext ↔
      ∃ stem, name = stem ++ '.' :: ext ∧ '.' ∉ ext ∧ stem ≠ [] ∧ ext ≠ [] := by
  unfold lastExtension
  cases split : rsplitOnce '.' name with
  | none =>
      have absent := rsplitOnce_eq_none_iff.mp split
      constructor
      · exact nofun
      · rintro ⟨stem, rfl, -⟩
        simp at absent
  | some parts =>
      obtain ⟨stem, ext'⟩ := parts
      obtain ⟨whole, absent⟩ := rsplitOnce_eq_some_iff.mp split
      constructor
      · intro found
        dsimp only at found
        split_ifs at found with empty
        obtain rfl := Option.some.inj found
        rw [not_or] at empty
        exact ⟨stem, whole, absent, empty.1, empty.2⟩
      · rintro ⟨stem', whole', absent', nonempty, nonempty'⟩
        have again := split.symm.trans (rsplitOnce_eq_some_iff.mpr ⟨whole', absent'⟩)
        obtain ⟨rfl, rfl⟩ := Prod.mk.inj (Option.some.inj again)
        simp [nonempty, nonempty']

/-- The extension of the last segment is that of the whole path. -/
theorem lastExtension_of_lastSegment
    {path ext : List Char}
    (found : lastExtension (lastSegment '/' path) = some ext) :
    lastExtension path = some ext := by
  obtain ⟨-, front, whole, -⟩ := lastSegment_cases '/' path
  obtain ⟨stem, last, absent, nonempty, nonempty'⟩ := lastExtension_eq_some_iff.mp found
  refine lastExtension_eq_some_iff.mpr ⟨front ++ stem, ?_, absent, ?_, nonempty'⟩
  · rw [whole, last, List.append_assoc]
  · exact fun empty => nonempty (List.append_eq_nil_iff.mp empty).2

/-! ## Files of the application -/

/-- The files below `.obsidian` that may be stored, by their segments. -/
inductive ObsidianFile : List (List Char) → Prop
  | app : ObsidianFile [".obsidian".toList, "app.json".toList]
  | appearance : ObsidianFile [".obsidian".toList, "appearance.json".toList]
  | snippet {stem : List Char} (nonempty : stem ≠ []) :
      ObsidianFile [".obsidian".toList, "snippets".toList, stem ++ ".css".toList]
  | theme {dir file : List Char} (nonempty : dir ≠ [])
      (named : file = "theme.css".toList ∨ file = "manifest.json".toList) :
      ObsidianFile [".obsidian".toList, "themes".toList, dir, file]

theorem dropPrefix?_append_self (front rest : List Char) :
    (front ++ rest).dropPrefix? front = some rest :=
  List.dropPrefix?_append_of_beq rest (BEq.refl front)

/-- What follows a prefix that ends in a separator. -/
theorem splitOn_of_dropPrefix
    {path rest : List Char}
    (name : String)
    (dropped : path.dropPrefix? (name.toList ++ ['/']) = some rest)
    (single : '/' ∉ name.toList) :
    path.splitOn '/' = name.toList :: rest.splitOn '/' := by
  obtain ⟨front, rfl, same⟩ := List.dropPrefix?_eq_some_iff.mp dropped
  rw [beq_iff_eq.mp same, List.append_assoc, List.singleton_append,
    List.splitOn_append_cons_self_of_not_mem single]

/-- What is on the allowlist. -/
theorem obsidianFile_of_allowlisted
    {path : List Char}
    (allowed : obsidianAllowlisted path = true) :
    ObsidianFile (path.splitOn '/') := by
  unfold obsidianAllowlisted at allowed
  split at allowed
  · cases allowed
  · rename_i rest dropped
    rw [splitOn_of_dropPrefix ".obsidian" dropped (by decide)]
    split_ifs at allowed with json
    · rcases json with rfl | rfl
      · exact .app
      · exact .appearance
    · split at allowed
      · rename_i name dropped'
        rw [splitOn_of_dropPrefix "snippets" dropped' (by decide)]
        simp only [Bool.and_eq_true, Bool.not_eq_true', List.contains_eq_mem,
          decide_eq_false_iff_not, beq_iff_eq] at allowed
        obtain ⟨⟨-, single⟩, extension⟩ := allowed
        obtain ⟨stem, rfl, -, nonempty, -⟩ := lastExtension_eq_some_iff.mp extension
        rw [List.splitOn_eq_singleton single]
        exact .snippet nonempty
      · split at allowed
        · rename_i themeRest dropped'
          rw [splitOn_of_dropPrefix "themes" dropped' (by decide)]
          split at allowed
          · cases allowed
          · rename_i dir file split
            obtain ⟨rfl, single⟩ := splitOnce_eq_some_iff.mp split
            simp only [Bool.and_eq_true, Bool.not_eq_true', List.contains_eq_mem,
              decide_eq_false_iff_not, Bool.or_eq_true, beq_iff_eq,
              List.isEmpty_eq_false_iff] at allowed
            obtain ⟨⟨nonempty, single'⟩, named⟩ := allowed
            rw [List.splitOn_append_cons_self_of_not_mem single,
              List.splitOn_eq_singleton single']
            exact .theme nonempty named
        · cases allowed

/-- What has the segments of such a file is on the allowlist. -/
theorem allowlisted_of_obsidianFile
    {path : List Char}
    (file : ObsidianFile (path.splitOn '/')) :
    obsidianAllowlisted path = true := by
  have single : ∀ segment ∈ path.splitOn '/', '/' ∉ segment :=
    fun _ => not_mem_splitOn
  have whole : ['/'].intercalate (path.splitOn '/') = path := List.intercalate_splitOn '/'
  generalize path.splitOn '/' = segments at file single whole
  cases file with
  | app =>
      rw [← whole]
      decide +kernel
  | appearance =>
      rw [← whole]
      decide +kernel
  | @snippet stem nonempty =>
      have absent := single (stem ++ ".css".toList) (by simp)
      have extension : lastExtension (stem ++ ".css".toList) = some "css".toList :=
        lastExtension_eq_some_iff.mpr ⟨stem, rfl, by decide, nonempty, by decide⟩
      have shape : path =
          ".obsidian/".toList ++ ("snippets/".toList ++ (stem ++ ".css".toList)) := by
        rw [← whole]
        simp [List.intercalate]
      have other : ¬ ("snippets/".toList ++ (stem ++ ".css".toList) = "app.json".toList ∨
          "snippets/".toList ++ (stem ++ ".css".toList) = "appearance.json".toList) := by
        rintro (same | same)
        · exact absurd (List.cons.inj same).1 (by decide)
        · exact absurd (List.cons.inj same).1 (by decide)
      simp only [obsidianAllowlisted, shape, dropPrefix?_append_self, other, if_false]
      simp only [extension, List.contains_eq_mem, absent, decide_false, Bool.not_false,
        Bool.and_true, beq_self_eq_true, Bool.not_eq_true', List.isEmpty_eq_false_iff]
      exact fun empty => nonempty (List.append_eq_nil_iff.mp empty).1
  | @theme dir file nonempty named =>
      have absent := single dir (by simp)
      have absent' := single file (by simp)
      have shape : path = ".obsidian/".toList ++ ("themes/".toList ++ (dir ++ '/' :: file)) := by
        rw [← whole]
        simp [List.intercalate]
      have elsewhere : ("themes/".toList ++ (dir ++ '/' :: file)).dropPrefix?
          "snippets/".toList = none := by
        rw [Option.eq_none_iff_forall_ne_some]
        intro rest found
        obtain ⟨front, same, equal⟩ := List.dropPrefix?_eq_some_iff.mp found
        rw [beq_iff_eq.mp equal] at same
        exact absurd (List.cons.inj same).1 (by decide)
      have other : ¬ ("themes/".toList ++ (dir ++ '/' :: file) = "app.json".toList ∨
          "themes/".toList ++ (dir ++ '/' :: file) = "appearance.json".toList) := by
        rintro (same | same)
        · exact absurd (List.cons.inj same).1 (by decide)
        · exact absurd (List.cons.inj same).1 (by decide)
      simp only [obsidianAllowlisted, shape, dropPrefix?_append_self, other, if_false]
      simp only [elsewhere, splitOnce_eq_some_iff.mpr ⟨rfl, absent⟩,
        List.contains_eq_mem, absent', decide_false, Bool.not_false, Bool.and_true,
        Bool.and_eq_true, Bool.not_eq_true', List.isEmpty_eq_false_iff, Bool.or_eq_true,
        beq_iff_eq]
      exact ⟨nonempty, named⟩

/-- A file of the application has an extension no attachment has. -/
theorem ObsidianFile.extension
    {path : List Char}
    (file : ObsidianFile (path.splitOn '/')) :
    ∃ ext, lastExtension (lastSegment '/' path) = some ext ∧
      (ext = "json".toList ∨ ext = "css".toList) := by
  have last := getLast?_splitOn '/' path
  generalize path.splitOn '/' = segments at file last
  generalize lastSegment '/' path = segment at last ⊢
  cases file with
  | app =>
      obtain rfl := Option.some.inj last
      exact ⟨_, by decide, Or.inl rfl⟩
  | appearance =>
      obtain rfl := Option.some.inj last
      exact ⟨_, by decide, Or.inl rfl⟩
  | @snippet stem nonempty =>
      obtain rfl := Option.some.inj last
      refine ⟨"css".toList, ?_, Or.inr rfl⟩
      exact lastExtension_eq_some_iff.mpr ⟨stem, rfl, by decide, nonempty, by decide⟩
  | theme nonempty named =>
      obtain rfl := Option.some.inj last
      rcases named with rfl | rfl
      · exact ⟨"css".toList, show lastExtension "theme.css".toList = _ by decide, Or.inr rfl⟩
      · exact ⟨"json".toList, show lastExtension "manifest.json".toList = _ by decide, Or.inl rfl⟩

/-! ## Accepted paths -/

/-- The path is a directory or lies below it. -/
def underDirectory (dir : String) (path : List Char) : Bool :=
  path == dir.toList || (dir.toList ++ ['/']).isPrefixOf path

theorem underDirectory_iff
    {dir : String}
    {path : List Char}
    (single : '/' ∉ dir.toList) :
    underDirectory dir path = true ↔ (path.splitOn '/').head? = some dir.toList := by
  simp only [underDirectory, Bool.or_eq_true, beq_iff_eq, List.isPrefixOf_iff_prefix]
  constructor
  · rintro (rfl | ⟨rest, rfl⟩)
    · rw [List.splitOn_eq_singleton single]
      rfl
    · rw [List.append_assoc, List.singleton_append,
        List.splitOn_append_cons_self_of_not_mem single]
      rfl
  · intro head
    rcases splitOn_cases '/' path with ⟨-, split⟩ | ⟨first, rest, rfl, -, split⟩
    · rw [split] at head
      exact Or.inl (Option.some.inj head)
    · rw [split] at head
      obtain rfl := Option.some.inj head
      exact Or.inr ⟨rest, by simp⟩

/-- What both validators ask of a path, the case of its letters apart. -/
structure WellFormedPath (path : String) : Prop where
  nonempty : path.toList ≠ []
  short : path.utf8ByteSize ≤ keyMaxBytes
  relative : path.toList.head? ≠ some '/'
  segments : ∀ segment ∈ path.toList.splitOn '/', validSegment segment = true

/-- The extension of the last segment is that of an attachment. -/
def attachmentExtension (path : List Char) : Bool :=
  ((lastExtension (lastSegment '/' path)).bind capForExtension).isSome

/-- What the validators accept. -/
theorem validateSegments_iff {path : String} {allowAsciiUpper : Bool} :
    validateSegments path allowAsciiUpper = true ↔
      WellFormedPath path ∧
        (allowAsciiUpper = false → ∀ c ∈ path.toList, c.isUpper = false) ∧
        underDirectory ".trash" path.toList = false ∧
        if underDirectory ".obsidian" path.toList then
          obsidianAllowlisted path.toList = true
        else
          attachmentExtension path.toList = true := by
  have trash : (path.toList == ".trash".toList || ".trash/".toList.isPrefixOf path.toList) =
      underDirectory ".trash" path.toList := rfl
  have obsidian :
      (path.toList == ".obsidian".toList || ".obsidian/".toList.isPrefixOf path.toList) =
        underDirectory ".obsidian" path.toList := rfl
  simp only [validateSegments, trash, obsidian]
  constructor
  · intro valid
    split_ifs at valid with shape upper trash segments obsidian
    all_goals
      simp only [Bool.or_eq_true, not_or, List.isEmpty_iff, decide_eq_true_eq, beq_iff_eq,
        not_lt, Bool.not_eq_true', Bool.and_eq_true, not_and, List.any_eq_true, not_exists,
        Bool.not_eq_true, Bool.not_eq_false, List.all_eq_true] at shape upper trash segments
      obtain ⟨⟨nonempty, short⟩, relative⟩ := shape
      refine ⟨⟨nonempty, short, relative, segments⟩, upper, trash, ?_⟩
    · rwa [if_pos obsidian]
    · rw [if_neg obsidian, attachmentExtension]
      cases extension : lastExtension (lastSegment '/' path.toList) with
      | none => simp [extension] at valid
      | some ext => simpa [extension] using valid
  · rintro ⟨⟨nonempty, short, relative, segments⟩, upper, trash, kind⟩
    rw [if_neg (by simp [nonempty, short, relative]), if_neg, if_neg (by simp [trash]),
      if_neg (by simpa using segments)]
    · split_ifs at kind ⊢ with obsidian
      · exact kind
      · unfold attachmentExtension at kind
        cases extension : lastExtension (lastSegment '/' path.toList) with
        | none => simp [extension] at kind
        | some ext => simpa [extension] using kind
    · simp only [Bool.and_eq_true, Bool.not_eq_true', List.any_eq_true, not_and, not_exists]
      intro lower c member above
      rw [upper lower c member] at above
      cases above

/-- The components of a path where both kinds of slashes separate. -/
def pathComponents (path : String) : List (List Char) :=
  path.toList.splitOnP fun c => c == '/' || c == '\\'

/-- A path that is accepted has no other components than its segments. -/
theorem WellFormedPath.components
    {path : String}
    (formed : WellFormedPath path) :
    pathComponents path = path.toList.splitOn '/' := by
  unfold pathComponents
  rw [List.splitOn_eq_splitOnP]
  refine splitOnP_congr ?_
  intro c member
  have plain : c ≠ '\\' := by
    rintro rfl
    have placed : '\\' = '/' ∨ ∃ segment ∈ path.toList.splitOn '/', '\\' ∈ segment :=
      mem_splitOn member
    rcases placed with same | ⟨segment, among, inside⟩
    · exact absurd same (by decide)
    · have valid := formed.segments segment among
      simp only [validSegment, Bool.and_eq_true, Bool.not_eq_true', List.contains_eq_mem,
        decide_eq_false_iff_not] at valid
      exact valid.1.1.2 inside
  simp [plain]

/-- What an accepted key is for the functions that look at it. -/
structure AcceptedKey (key : String) : Prop where
  components : ∀ component ∈ pathComponents key,
    component ≠ [] ∧ component ≠ ['.'] ∧ component ≠ ['.', '.']
  trash : (pathComponents key).head? ≠ some ".trash".toList
  /-- Below `.obsidian` it is on the allowlist. -/
  obsidian : (pathComponents key).head? = some ".obsidian".toList →
    ObsidianFile (pathComponents key)
  cap : (capForKey key).isSome = true
  /-- A size that passes is within the cap of the key. -/
  size : ∀ size, checkSize key (some size) = .ok () →
    ∃ cap, capForKey key = some cap ∧ 0 ≤ size ∧ asU64 size ≤ cap
  svg : lastExtension key.toList = some "svg".toList ↔
    lastExtension (lastSegment '/' key.toList) = some "svg".toList

theorem WellFormedPath.proper
    {path : String}
    (formed : WellFormedPath path) :
    ∀ component ∈ pathComponents path,
      component ≠ [] ∧ component ≠ ['.'] ∧ component ≠ ['.', '.'] := by
  intro component member
  rw [formed.components] at member
  have valid := formed.segments component member
  simp only [validSegment, Bool.and_eq_true, Bool.not_eq_true', List.isEmpty_eq_false_iff,
    bne_iff_ne] at valid
  exact ⟨valid.1.1.1.1.1, valid.1.1.1.1.2, valid.1.1.1.2⟩

/-- An accepted key has an extension, and its last segment has the same. -/
theorem lastExtension_of_accepted
    {key : String}
    (accepted : validateBlobKey key = true) :
    lastExtension key.toList = lastExtension (lastSegment '/' key.toList) := by
  obtain ⟨-, -, -, kind⟩ := validateSegments_iff.mp accepted
  have some_ext : ∃ ext, lastExtension (lastSegment '/' key.toList) = some ext := by
    split_ifs at kind
    · obtain ⟨ext, found, -⟩ := (obsidianFile_of_allowlisted kind).extension
      exact ⟨ext, found⟩
    · unfold attachmentExtension at kind
      cases found : lastExtension (lastSegment '/' key.toList) with
      | none => simp [found] at kind
      | some ext => exact ⟨ext, rfl⟩
  obtain ⟨ext, found⟩ := some_ext
  rw [found, lastExtension_of_lastSegment found]

/-- A key that is accepted is classified alike by all that look at it, and stays
inside the vault. -/
theorem validateBlobKey_classifies
    (key : String)
    (accepted : validateBlobKey key = true) :
    AcceptedKey key := by
  obtain ⟨formed, -, trash, kind⟩ := validateSegments_iff.mp accepted
  have capped := capForKey_isSome accepted
  refine
    { components := formed.proper
      trash := ?_
      obsidian := ?_
      cap := capped
      size := ?_
      svg := by rw [lastExtension_of_accepted accepted] }
  · rw [formed.components]
    intro head
    rw [(underDirectory_iff (by decide)).mpr head] at trash
    cases trash
  · rw [formed.components]
    intro head
    rw [if_pos ((underDirectory_iff (by decide)).mpr head)] at kind
    exact obsidianFile_of_allowlisted kind
  · intro size passes
    obtain ⟨cap, found⟩ := Option.isSome_iff_exists.mp capped
    simp only [checkSize, found] at passes
    split_ifs at passes with negative above
    exact ⟨cap, found, not_lt.mp negative, not_lt.mp above⟩

theorem validateBlobKey_classifies_snippet :
    AcceptedKey ".obsidian/snippets/wide.css" :=
  validateBlobKey_classifies _ (by decide +kernel)

end VaultCrdtServer
