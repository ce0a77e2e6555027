import Mathlib.Data.List.AList
import Mathlib.Data.List.Sort

/-!
# Tables with a primary key

A table is an association list without duplicate keys.  Upserts, deletions by
key and lookups are those of association lists; this module adds the statements
that range over all rows: deleting the rows that satisfy a condition, rewriting
every row, and selecting rows in the order of a sort key.
-/

/-- A table whose rows are identified by their key. -/
abbrev Table (κ ρ : Type) := AList fun _ : κ => ρ

namespace Table

variable {κ ρ ρ' : Type}

/-- Delete the rows that satisfy a condition. -/
def deleteWhere (condition : κ → ρ → Bool) (table : Table κ ρ) : Table κ ρ where
  entries := table.entries.filter fun entry => !condition entry.1 entry.2
  nodupKeys :=
    table.nodupKeys.sublist List.filter_sublist

/-- Rewrite every row, keeping its key. -/
def mapRows (rewrite : ρ → ρ') (table : Table κ ρ) : Table κ ρ' where
  entries := table.entries.map fun entry => ⟨entry.1, rewrite entry.2⟩
  nodupKeys := by
    have keys : (table.entries.map fun entry =>
        (⟨entry.1, rewrite entry.2⟩ : Sigma fun _ : κ => ρ')).keys =
          table.entries.keys := by
      simp [List.keys, Function.comp_def]
    unfold List.NodupKeys
    rw [keys]
    exact table.nodupKeys

/-- The rows that satisfy a condition, in ascending order of a sort key. -/
def select {ω : Type} [LE ω] [DecidableLE ω]
    (condition : κ → ρ → Bool)
    (order : κ → ω)
    (table : Table κ ρ) : List (κ × ρ) :=
  ((table.entries.filter fun entry => condition entry.1 entry.2).map
    fun entry => (entry.1, entry.2)).insertionSort
      fun first second => order first.1 ≤ order second.1

variable [DecidableEq κ]

theorem lookup_deleteWhere
    (condition : κ → ρ → Bool)
    (table : Table κ ρ)
    (key : κ) :
    (table.deleteWhere condition).lookup key =
      (table.lookup key).filter fun row => !condition key row := by
  apply Option.ext
  intro row
  rw [Option.filter_eq_some_iff, ← Option.mem_def, AList.mem_lookup_iff,
    ← Option.mem_def, AList.mem_lookup_iff]
  simp [deleteWhere]

/-- Deleting rows never adds one. -/
theorem lookup_deleteWhere_eq_or
    (condition : κ → ρ → Bool)
    (table : Table κ ρ)
    (key : κ) :
    (table.deleteWhere condition).lookup key = table.lookup key ∨
      (table.deleteWhere condition).lookup key = none := by
  rw [lookup_deleteWhere]
  cases table.lookup key with
  | none => exact Or.inl rfl
  | some row => cases deleted : condition key row <;> simp [deleted]

@[simp] theorem lookup_mapRows
    (rewrite : ρ → ρ')
    (table : Table κ ρ)
    (key : κ) :
    (table.mapRows rewrite).lookup key = (table.lookup key).map rewrite := by
  change List.dlookup key (table.entries.map fun entry =>
      (⟨entry.1, rewrite entry.2⟩ : Sigma fun _ : κ => ρ')) =
    (List.dlookup key table.entries).map rewrite
  induction table.entries with
  | nil => rfl
  | cons entry entries inductionHypothesis =>
      obtain ⟨first, row⟩ := entry
      by_cases same : first = key
      · subst same
        rw [List.map_cons, List.dlookup_cons_eq, List.dlookup_cons_eq]
        rfl
      · have other : key ≠ first := fun equal => same equal.symm
        rw [List.map_cons, List.dlookup_cons_ne _ _ other, List.dlookup_cons_ne _ _ other]
        exact inductionHypothesis

omit [DecidableEq κ] in
@[simp] theorem mapRows_empty (rewrite : ρ → ρ') :
    (∅ : Table κ ρ).mapRows rewrite = ∅ := rfl

/-- The selected rows are exactly the table's rows that satisfy the condition. -/
theorem mem_select_iff
    {ω : Type} [LE ω] [DecidableLE ω]
    {condition : κ → ρ → Bool}
    {order : κ → ω}
    {table : Table κ ρ}
    {key : κ}
    {row : ρ} :
    (key, row) ∈ table.select condition order ↔
      table.lookup key = some row ∧ condition key row = true := by
  rw [← Option.mem_def, AList.mem_lookup_iff]
  simp [select, List.mem_insertionSort]

/-- Two tables whose rows look the same where they are selected are listed the
same, if no two selected keys sort equal. -/
theorem select_map_congr
    {ω ν : Type} [LE ω] [DecidableLE ω] [Std.IsLinearOrder ω]
    {condition : κ → Bool}
    {order : κ → ω}
    {view : ρ → ν}
    {first second : Table κ ρ}
    (injective : ∀ key other, condition key = true → condition other = true →
      order key = order other → key = other)
    (same : ∀ key, condition key = true →
      (first.lookup key).map view = (second.lookup key).map view) :
    (first.select (fun key _ => condition key) order).map
        (fun entry => (entry.1, view entry.2)) =
      (second.select (fun key _ => condition key) order).map
        fun entry => (entry.1, view entry.2) := by
  have listed : ∀ (table : Table κ ρ) (key : κ) (value : ν),
      (key, value) ∈ (table.select (fun key _ => condition key) order).map
          (fun entry => (entry.1, view entry.2)) ↔
        condition key = true ∧ (table.lookup key).map view = some value := by
    intro table key value
    simp only [List.mem_map, Prod.mk.injEq, Prod.exists, mem_select_iff,
      Option.map_eq_some_iff]
    constructor
    · rintro ⟨_, row, ⟨found, selected⟩, rfl, rfl⟩
      exact ⟨selected, row, found, rfl⟩
    · rintro ⟨selected, row, found, rfl⟩
      exact ⟨key, row, ⟨found, selected⟩, rfl, rfl⟩
  have nodup : ∀ table : Table κ ρ,
      ((table.select (fun key _ => condition key) order).map
        fun entry => (entry.1, view entry.2)).Nodup := by
    intro table
    apply List.Nodup.of_map Prod.fst
    rw [List.map_map]
    have permuted := (List.perm_insertionSort
      (fun first second : κ × ρ => order first.1 ≤ order second.1)
      ((table.entries.filter fun entry => condition entry.1).map
        fun entry => (entry.1, entry.2))).map (Prod.fst ∘ fun entry => (entry.1, view entry.2))
    refine permuted.nodup_iff.mpr ?_
    rw [List.map_map]
    exact table.nodupKeys.sublist List.filter_sublist
  have sorted : ∀ table : Table κ ρ,
      ((table.select (fun key _ => condition key) order).map
        fun entry => (entry.1, view entry.2)).Pairwise
          fun first second => order first.1 ≤ order second.1 := by
    intro table
    rw [List.pairwise_map]
    exact List.pairwise_insertionSort
      (fun first second : κ × ρ => order first.1 ≤ order second.1) _
  have perm := (List.perm_ext_iff_of_nodup (nodup first) (nodup second)).mpr fun entry => by
    obtain ⟨key, value⟩ := entry
    rw [listed, listed]
    exact and_congr_right fun selected => by rw [same key selected]
  refine perm.eq_of_pairwise ?_ (sorted first) (sorted second)
  rintro ⟨key, value⟩ ⟨other, value'⟩ member member' below above
  obtain ⟨selected, found⟩ := (listed first key value).mp member
  obtain ⟨selected', found'⟩ := (listed second other value').mp member'
  obtain rfl := injective key other selected selected' (Std.le_antisymm below above)
  rw [same key selected, found', Option.some.injEq] at found
  rw [found]

/-- Erasing a key that is absent changes nothing. -/
theorem erase_of_lookup_eq_none
    {table : Table κ ρ}
    {key : κ}
    (absent : table.lookup key = none) :
    table.erase key = table := by
  apply AList.ext
  exact List.kerase_of_notMem_keys (AList.lookup_eq_none.mp absent)

/-- Lookup after an upsert. -/
theorem lookup_insert_eq_ite
    (table : Table κ ρ)
    (key other : κ)
    (row : ρ) :
    (table.insert key row).lookup other =
      if other = key then some row else table.lookup other := by
  split_ifs with same
  · subst same
    exact AList.lookup_insert table
  · exact AList.lookup_insert_ne same

/-- Lookup after a deletion by key. -/
theorem lookup_erase_eq_ite (table : Table κ ρ) (key other : κ) :
    (table.erase key).lookup other =
      if other = key then none else table.lookup other := by
  split_ifs with same
  · subst same
    exact AList.lookup_erase other table
  · exact AList.lookup_erase_ne same

end Table
