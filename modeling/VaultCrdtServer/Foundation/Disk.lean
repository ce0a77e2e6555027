import Mathlib.Data.List.Basic
import Mathlib.Logic.Function.Basic

/-!
# Files on a disk

A disk maps names to inodes and inodes to contents.  A file that is open is
known by its inode: it can still be written after its name has been removed or
given to another file.  There are no hard links, so an inode has at most one
name, and the name under which it was created is remembered.

Names are arbitrary.  Directories, permissions and the ways in which a call can
fail are left to the user of this module.
-/

/-- A disk without hard links. -/
structure Disk (π β : Type) where
  /-- Inode a name stands for. -/
  entry : π → Option Nat
  /-- Contents of an inode. -/
  contents : Nat → List β
  /-- Name under which an inode was created. -/
  birth : Nat → Option π
  /-- Number of inodes created so far. -/
  created : Nat
  entry_lt : ∀ {name inode}, entry name = some inode → inode < created
  birth_lt : ∀ {inode name}, birth inode = some name → inode < created
  entry_injective : ∀ {name other inode},
    entry name = some inode → entry other = some inode → name = other

namespace Disk

variable {π β : Type}

/-- A disk without files. -/
def empty : Disk π β where
  entry := fun _ => none
  contents := fun _ => []
  birth := fun _ => none
  created := 0
  entry_lt := by simp
  birth_lt := by simp
  entry_injective := by simp

/-- Contents after a write at an offset.  A gap is filled, and writing nothing
changes nothing. -/
def overwrite (fill : β) (offset : Nat) (bytes contents : List β) : List β :=
  if bytes = [] then
    contents
  else
    (contents.take offset ++ List.replicate (offset - contents.length) fill) ++
      bytes ++ contents.drop (offset + bytes.length)

@[simp] theorem overwrite_nil (fill : β) (offset : Nat) (contents : List β) :
    overwrite fill offset [] contents = contents := rfl

theorem length_overwrite
    (fill : β)
    (offset : Nat)
    {bytes : List β}
    (nonempty : bytes ≠ [])
    (contents : List β) :
    (overwrite fill offset bytes contents).length =
      max contents.length (offset + bytes.length) := by
  simp only [overwrite, nonempty, if_false, List.length_append, List.length_take,
    List.length_replicate, List.length_drop]
  omega

theorem length_overwrite_le
    {fill : β}
    {offset bound : Nat}
    {bytes contents : List β}
    (short : contents.length ≤ bound)
    (within : offset + bytes.length ≤ bound) :
    (overwrite fill offset bytes contents).length ≤ bound := by
  by_cases nothing : bytes = []
  · simpa [nothing] using short
  · rw [length_overwrite fill offset nothing]
    omega

/-- What lies before the offset is kept. -/
theorem take_overwrite
    (fill : β)
    {offset : Nat}
    {bytes contents : List β}
    (reached : offset ≤ contents.length) :
    (overwrite fill offset bytes contents).take offset = contents.take offset := by
  by_cases nothing : bytes = []
  · simp [nothing]
  · have filled : offset - contents.length = 0 := by omega
    have taken : (contents.take offset).length = offset := by simp [reached]
    simp only [overwrite, nothing, if_false, filled, List.replicate_zero, List.append_nil,
      List.append_assoc]
    rw [List.take_append_of_le_length (by omega), List.take_of_length_le (by omega)]

/-- What is written follows what lies before the offset. -/
theorem take_overwrite_add
    (fill : β)
    {offset : Nat}
    {bytes contents : List β}
    (reached : offset ≤ contents.length) :
    (overwrite fill offset bytes contents).take (offset + bytes.length) =
      contents.take offset ++ bytes := by
  by_cases nothing : bytes = []
  · simp [nothing]
  · have filled : offset - contents.length = 0 := by omega
    have taken : (contents.take offset ++ bytes).length = offset + bytes.length := by
      simp [reached]
    simp only [overwrite, nothing, if_false, filled, List.replicate_zero, List.append_nil]
    rw [List.take_append_of_le_length (by omega), List.take_of_length_le (by omega)]

/-- What is written behind the beginning of a file leaves the beginning alone. -/
theorem prefix_overwrite
    (fill : β)
    {front contents : List β}
    (begins : front <+: contents)
    (bytes : List β) :
    front <+: overwrite fill front.length bytes contents := by
  have taken : (overwrite fill front.length bytes contents).take front.length =
      contents.take front.length :=
    take_overwrite fill begins.length_le
  rw [← List.prefix_iff_eq_take.mp begins] at taken
  exact List.prefix_iff_eq_take.mpr taken.symm

/-- What is written right behind the beginning of a file follows it. -/
theorem append_prefix_overwrite
    (fill : β)
    {front contents : List β}
    (begins : front <+: contents)
    (bytes : List β) :
    front ++ bytes <+: overwrite fill front.length bytes contents := by
  have taken : (overwrite fill front.length bytes contents).take (front.length + bytes.length) =
      contents.take front.length ++ bytes :=
    take_overwrite_add fill begins.length_le
  rw [← List.prefix_iff_eq_take.mp begins] at taken
  rw [← taken]
  exact List.take_prefix ..

section Operations

/-- Replace the contents of an inode. -/
def setContents (inode : Nat) (bytes : List β) (disk : Disk π β) : Disk π β :=
  { disk with contents := Function.update disk.contents inode bytes }

/-- Write to an open file. -/
def writeAt
    (fill : β)
    (inode offset : Nat)
    (bytes : List β)
    (disk : Disk π β) : Disk π β :=
  disk.setContents inode (overwrite fill offset bytes (disk.contents inode))

/-- Contents of a named file. -/
def read (name : π) (disk : Disk π β) : Option (List β) :=
  (disk.entry name).map disk.contents

variable [DecidableEq π]

/-- A new empty file under a name that is not in use. -/
def allocate (name : π) (disk : Disk π β) (absent : disk.entry name = none) : Disk π β where
  entry := Function.update disk.entry name (some disk.created)
  contents := Function.update disk.contents disk.created []
  birth := Function.update disk.birth disk.created (some name)
  created := disk.created + 1
  entry_lt := by
    intro other inode found
    by_cases same : other = name
    · subst same
      rw [Function.update_self, Option.some.injEq] at found
      omega
    · rw [Function.update_of_ne same] at found
      have := disk.entry_lt found
      omega
  birth_lt := by
    intro inode other born
    by_cases same : inode = disk.created
    · omega
    · rw [Function.update_of_ne same] at born
      have := disk.birth_lt born
      omega
  entry_injective := by
    intro first second inode found found'
    by_cases same : first = name <;> by_cases same' : second = name
    · rw [same, same']
    · subst same
      rw [Function.update_self, Option.some.injEq] at found
      rw [Function.update_of_ne same'] at found'
      have := disk.entry_lt found'
      omega
    · subst same'
      rw [Function.update_of_ne same] at found
      rw [Function.update_self, Option.some.injEq] at found'
      have := disk.entry_lt found
      omega
    · rw [Function.update_of_ne same] at found
      rw [Function.update_of_ne same'] at found'
      exact disk.entry_injective found found'

/-- Open a file, creating it where it does not exist. -/
def openOrCreate (name : π) (disk : Disk π β) : Nat × Disk π β :=
  match found : disk.entry name with
  | some inode => (inode, disk)
  | none => (disk.created, disk.allocate name found)

/-- Create a file, truncating one that exists. -/
def create (name : π) (disk : Disk π β) : Nat × Disk π β :=
  let opened := disk.openOrCreate name
  (opened.1, opened.2.setContents opened.1 [])

/-- Remove a name. -/
def remove (name : π) (disk : Disk π β) : Disk π β where
  entry := Function.update disk.entry name none
  contents := disk.contents
  birth := disk.birth
  created := disk.created
  entry_lt := by
    intro other inode found
    by_cases same : other = name
    · simp [same] at found
    · rw [Function.update_of_ne same] at found
      exact disk.entry_lt found
  birth_lt := disk.birth_lt
  entry_injective := by
    intro first second inode found found'
    by_cases same : first = name
    · simp [same] at found
    · by_cases same' : second = name
      · simp [same'] at found'
      · rw [Function.update_of_ne same] at found
        rw [Function.update_of_ne same'] at found'
        exact disk.entry_injective found found'

/-- Give a file another name, replacing the file that has it. -/
def rename (source target : π) (disk : Disk π β) : Disk π β where
  entry := fun name =>
    if name = target then disk.entry source
    else if name = source then none
    else disk.entry name
  contents := disk.contents
  birth := disk.birth
  created := disk.created
  entry_lt := by
    intro name inode found
    split_ifs at found
    · exact disk.entry_lt found
    · exact disk.entry_lt found
  birth_lt := disk.birth_lt
  entry_injective := by
    intro first second inode found found'
    by_cases atTarget : first = target <;> by_cases atTarget' : second = target
    · rw [atTarget, atTarget']
    · simp only [atTarget, atTarget', if_true, if_false] at found found'
      split_ifs at found' with atSource
      exact absurd (disk.entry_injective found found').symm atSource
    · simp only [atTarget, atTarget', if_true, if_false] at found found'
      split_ifs at found with atSource
      exact absurd (disk.entry_injective found found') atSource
    · simp only [atTarget, atTarget', if_false] at found found'
      split_ifs at found
      split_ifs at found'
      exact disk.entry_injective found found'

/-! ## What an operation changes -/

variable (disk : Disk π β) (name other source target : π) (inode offset : Nat)
variable (fill : β) (bytes : List β)

omit [DecidableEq π]

@[simp] theorem entry_writeAt :
    (disk.writeAt fill inode offset bytes).entry name = disk.entry name := rfl

@[simp] theorem birth_writeAt :
    (disk.writeAt fill inode offset bytes).birth = disk.birth := rfl

theorem contents_writeAt (other : Nat) :
    (disk.writeAt fill inode offset bytes).contents other =
      if other = inode then overwrite fill offset bytes (disk.contents inode)
      else disk.contents other :=
  Function.update_apply ..

@[simp] theorem entry_setContents :
    (disk.setContents inode bytes).entry name = disk.entry name := rfl

@[simp] theorem birth_setContents :
    (disk.setContents inode bytes).birth = disk.birth := rfl

theorem contents_setContents (other : Nat) :
    (disk.setContents inode bytes).contents other =
      if other = inode then bytes else disk.contents other :=
  Function.update_apply ..

variable [DecidableEq π]

theorem entry_remove :
    (disk.remove name).entry other = if other = name then none else disk.entry other :=
  Function.update_apply ..

@[simp] theorem contents_remove : (disk.remove name).contents = disk.contents := rfl

@[simp] theorem birth_remove : (disk.remove name).birth = disk.birth := rfl

theorem entry_rename :
    (disk.rename source target).entry name =
      if name = target then disk.entry source
      else if name = source then none
      else disk.entry name := rfl

@[simp] theorem contents_rename :
    (disk.rename source target).contents = disk.contents := rfl

@[simp] theorem birth_rename : (disk.rename source target).birth = disk.birth := rfl

/-- Opening a file changes only its own name, and only where it is created.  A
new file is empty. -/
theorem openOrCreate_cases :
    ((disk.openOrCreate name).2 = disk ∧
        disk.entry name = some (disk.openOrCreate name).1) ∨
      ∃ absent : disk.entry name = none,
        disk.openOrCreate name = (disk.created, disk.allocate name absent) := by
  unfold openOrCreate
  split
  · exact Or.inl ⟨rfl, by assumption⟩
  · exact Or.inr ⟨by assumption, rfl⟩

@[simp] theorem entry_openOrCreate_self :
    (disk.openOrCreate name).2.entry name = some (disk.openOrCreate name).1 := by
  rcases disk.openOrCreate_cases name with ⟨same, found⟩ | ⟨absent, opened⟩
  · rw [same]
    exact found
  · rw [opened]
    exact Function.update_self ..

theorem entry_openOrCreate_of_ne {other : π} (different : other ≠ name) :
    (disk.openOrCreate name).2.entry other = disk.entry other := by
  rcases disk.openOrCreate_cases name with ⟨same, -⟩ | ⟨absent, opened⟩
  · rw [same]
  · rw [opened]
    exact Function.update_of_ne different ..

/-- Inodes that exist keep their contents when a file is opened. -/
theorem contents_openOrCreate_of_lt {inode : Nat} (exists_ : inode < disk.created) :
    (disk.openOrCreate name).2.contents inode = disk.contents inode := by
  rcases disk.openOrCreate_cases name with ⟨same, -⟩ | ⟨absent, opened⟩
  · rw [same]
  · rw [opened]
    exact Function.update_of_ne (Nat.ne_of_lt exists_) ..

/-- Inodes that exist keep their birth when a file is opened. -/
theorem birth_openOrCreate_of_lt {inode : Nat} (exists_ : inode < disk.created) :
    (disk.openOrCreate name).2.birth inode = disk.birth inode := by
  rcases disk.openOrCreate_cases name with ⟨same, -⟩ | ⟨absent, opened⟩
  · rw [same]
  · rw [opened]
    exact Function.update_of_ne (Nat.ne_of_lt exists_) ..

/-- Inodes that exist keep their birth when a file is created. -/
theorem birth_create_of_lt {inode : Nat} (exists_ : inode < disk.created) :
    (disk.create name).2.birth inode = disk.birth inode :=
  disk.birth_openOrCreate_of_lt name exists_

end Operations

/-! ## Files that are left alone -/

section Same

variable {disk disk' disk'' : Disk π β} {name other source target : π}

/-- The file of a name, or its absence, is left alone. -/
structure Same (name : π) (disk disk' : Disk π β) : Prop where
  entry : disk'.entry name = disk.entry name
  contents : ∀ inode, disk.entry name = some inode →
    disk'.contents inode = disk.contents inode

theorem Same.refl (name : π) (disk : Disk π β) : Same name disk disk where
  entry := rfl
  contents := fun _ _ => rfl

theorem Same.trans
    (first : Same name disk disk')
    (second : Same name disk' disk'') :
    Same name disk disk'' where
  entry := second.entry.trans first.entry
  contents := fun inode found =>
    (second.contents inode (first.entry.trans found)).trans (first.contents inode found)

theorem Same.read (same : Same name disk disk') : disk'.read name = disk.read name := by
  unfold Disk.read
  rw [same.entry]
  cases found : disk.entry name with
  | none => rfl
  | some inode => simp [same.contents inode found]

/-- The file of a name is left alone or loses the name. -/
def Survives (name : π) (disk disk' : Disk π β) : Prop :=
  ∀ inode, disk'.entry name = some inode →
    disk.entry name = some inode ∧ disk'.contents inode = disk.contents inode

theorem Same.survives (same : Same name disk disk') : Survives name disk disk' := by
  intro inode found
  rw [same.entry] at found
  exact ⟨found, same.contents inode found⟩

theorem Survives.trans
    (first : Survives name disk disk')
    (second : Survives name disk' disk'') :
    Survives name disk disk'' := by
  intro inode found
  obtain ⟨found', contents'⟩ := second inode found
  obtain ⟨found, contents⟩ := first inode found'
  exact ⟨found, contents'.trans contents⟩

/-- A write leaves the other files alone. -/
theorem Same.writeAt
    {fill : β}
    {inode offset : Nat}
    {bytes : List β}
    (elsewhere : disk.entry name ≠ some inode) :
    Same name disk (disk.writeAt fill inode offset bytes) where
  entry := rfl
  contents := by
    intro other found
    rw [contents_writeAt]
    split_ifs with written
    · exact absurd (written ▸ found) elsewhere
    · rfl

variable [DecidableEq π]

/-- Opening a file leaves the other files alone. -/
theorem Same.openOrCreate (different : name ≠ other) :
    Same name disk (disk.openOrCreate other).2 where
  entry := disk.entry_openOrCreate_of_ne other different
  contents := fun _ found => disk.contents_openOrCreate_of_lt other (disk.entry_lt found)

/-- Creating a file leaves the other files alone. -/
theorem Same.create (different : name ≠ other) :
    Same name disk (disk.create other).2 where
  entry := disk.entry_openOrCreate_of_ne other different
  contents := by
    intro inode found
    have opened := disk.entry_openOrCreate_self other
    have kept := (disk.entry_openOrCreate_of_ne other different).trans found
    have elsewhere : inode ≠ (disk.openOrCreate other).1 := by
      rintro rfl
      exact different ((disk.openOrCreate other).2.entry_injective kept opened)
    unfold Disk.create
    rw [contents_setContents, if_neg elsewhere]
    exact disk.contents_openOrCreate_of_lt other (disk.entry_lt found)

/-- Removing a name leaves the other files alone. -/
theorem Same.remove (different : name ≠ other) : Same name disk (disk.remove other) where
  entry := by rw [entry_remove, if_neg different]
  contents := fun _ _ => rfl

/-- Removing a name. -/
theorem Survives.remove : Survives name disk (disk.remove other) := by
  intro inode found
  rw [entry_remove] at found
  split_ifs at found
  exact ⟨found, rfl⟩

/-- Renaming a file leaves the others alone. -/
theorem Same.rename
    (notSource : name ≠ source)
    (notTarget : name ≠ target) :
    Same name disk (disk.rename source target) where
  entry := by rw [entry_rename, if_neg notTarget, if_neg notSource]
  contents := fun _ _ => rfl

/-- What has been opened is the file of that name, and new files are born under
it. -/
theorem birth_openOrCreate_self
    (born : ∀ inode, disk.entry name = some inode → disk.birth inode = some name) :
    (disk.openOrCreate name).2.birth (disk.openOrCreate name).1 = some name := by
  rcases disk.openOrCreate_cases name with ⟨same, found⟩ | ⟨absent, opened⟩
  · rw [same]
    exact born _ found
  · rw [opened]
    exact Function.update_self ..

/-- An inode a file is opened under exists already, or is new and empty. -/
theorem openOrCreate_inode
    {inode : Nat}
    {born : π}
    (birth : (disk.openOrCreate name).2.birth inode = some born) :
    (disk.birth inode = some born ∧
        (disk.openOrCreate name).2.contents inode = disk.contents inode) ∨
      (disk.openOrCreate name).2.contents inode = [] := by
  rcases disk.openOrCreate_cases name with ⟨same, -⟩ | ⟨absent, opened⟩
  · rw [same] at birth ⊢
    exact Or.inl ⟨birth, rfl⟩
  · rw [opened] at birth ⊢
    by_cases new : inode = disk.created
    · subst new
      exact Or.inr (Function.update_self ..)
    · refine Or.inl ⟨?_, Function.update_of_ne new ..⟩
      rw [← birth]
      exact (Function.update_of_ne new ..).symm

end Same

end Disk
