import VaultCrdtServer.Foundation.Table
import Mathlib.Algebra.Order.BigOperators.Group.List

/-!
# Totals over a table

A weight of every row and the total over all rows.  A change of one row changes
the total by the weights of that row alone.
-/

namespace Table

variable {κ ρ α : Type} [AddCommMonoid α]

/-- Sum of the weights of the rows. -/
def total (weight : κ → ρ → α) (table : Table κ ρ) : α :=
  (table.entries.map fun entry => weight entry.1 entry.2).sum

@[simp] theorem total_empty (weight : κ → ρ → α) : total weight (∅ : Table κ ρ) = 0 := rfl

/-- Where some rows weigh nothing, the total is over the others. -/
theorem total_ite
    (counted : κ → ρ → Bool)
    (weight : κ → ρ → α)
    (table : Table κ ρ) :
    total (fun key row => if counted key row then weight key row else 0) table =
      ((table.entries.filter fun entry => counted entry.1 entry.2).map
        fun entry => weight entry.1 entry.2).sum := by
  unfold total
  induction table.entries with
  | nil => rfl
  | cons entry entries inductionHypothesis =>
      rw [List.map_cons, List.sum_cons, inductionHypothesis, List.filter_cons]
      by_cases included : counted entry.1 entry.2 <;> simp [included]

/-- Rows that are deleted take their weights with them. -/
theorem total_deleteWhere
    (weight : κ → ρ → α)
    (condition : κ → ρ → Bool)
    (table : Table κ ρ) :
    total weight table = total weight (table.deleteWhere condition) +
      ((table.entries.filter fun entry => condition entry.1 entry.2).map
        fun entry => weight entry.1 entry.2).sum := by
  unfold total deleteWhere
  dsimp only
  induction table.entries with
  | nil => simp
  | cons entry entries inductionHypothesis =>
      rw [List.map_cons, List.sum_cons, inductionHypothesis, List.filter_cons, List.filter_cons]
      cases deleted : condition entry.1 entry.2
      · simp [add_assoc]
      · simp [add_left_comm]

variable [DecidableEq κ]

/-- A row that is written adds its weight to that of the others. -/
theorem total_insert
    (weight : κ → ρ → α)
    (table : Table κ ρ)
    (key : κ)
    (row : ρ) :
    total weight (table.insert key row) = weight key row + total weight (table.erase key) :=
  List.sum_cons

/-- A row that is stored is counted beside the others. -/
theorem total_of_lookup
    (weight : κ → ρ → α)
    {table : Table κ ρ}
    {key : κ}
    {row : ρ}
    (stored : table.lookup key = some row) :
    total weight table = weight key row + total weight (table.erase key) := by
  have member : key ∈ table.entries.keys :=
    AList.lookup_isSome.mp (Option.isSome_iff_exists.mpr ⟨row, stored⟩)
  obtain ⟨row', before, after, absent, split_, erased⟩ := List.exists_of_kerase member
  have same : row' = row := by
    have there : (⟨key, row'⟩ : Sigma fun _ : κ => ρ) ∈ table.entries := by
      rw [split_]
      simp
    exact Option.some.inj ((AList.mem_lookup_iff.mpr there).symm.trans stored)
  subst same
  change (table.entries.map _).sum = _ + ((List.kerase key table.entries).map _).sum
  rw [erased]
  conv_lhs => rw [split_]
  simp only [List.map_append, List.map_cons, List.sum_append, List.sum_cons]
  exact add_left_comm _ _ _

/-- Without the row of a key that is not stored the total is the same. -/
theorem total_erase_of_lookup_eq_none
    (weight : κ → ρ → α)
    {table : Table κ ρ}
    {key : κ}
    (absent : table.lookup key = none) :
    total weight (table.erase key) = total weight table := by
  rw [erase_of_lookup_eq_none absent]

/-- A row that is new is counted beside the others. -/
theorem total_insert_of_lookup_eq_none
    (weight : κ → ρ → α)
    {table : Table κ ρ}
    {key : κ}
    (row : ρ)
    (absent : table.lookup key = none) :
    total weight (table.insert key row) = weight key row + total weight table := by
  rw [total_insert, total_erase_of_lookup_eq_none weight absent]

/-- A row may be replaced by one of the same weight. -/
theorem total_insert_of_weight_eq
    (weight : κ → ρ → α)
    {table : Table κ ρ}
    {key : κ}
    {row row' : ρ}
    (stored : table.lookup key = some row)
    (same : weight key row' = weight key row) :
    total weight (table.insert key row') = total weight table := by
  rw [total_insert, total_of_lookup weight stored, same]

theorem total_congr
    {weight weight' : κ → ρ → α}
    {table : Table κ ρ}
    (same : ∀ key row, table.lookup key = some row → weight key row = weight' key row) :
    total weight table = total weight' table := by
  unfold total
  congr 1
  refine List.map_congr_left ?_
  intro entry member
  exact same entry.1 entry.2 (AList.mem_lookup_iff.mpr member)

variable [PartialOrder α] [IsOrderedAddMonoid α]

/-- Smaller weights have a smaller total. -/
theorem total_le_total
    {weight weight' : κ → ρ → α}
    {table : Table κ ρ}
    (smaller : ∀ key row, table.lookup key = some row → weight key row ≤ weight' key row) :
    total weight table ≤ total weight' table := by
  refine List.sum_le_sum ?_
  intro entry member
  exact smaller entry.1 entry.2 (AList.mem_lookup_iff.mpr member)

/-- Weights that are not negative have a total that is not. -/
theorem total_nonneg
    {weight : κ → ρ → α}
    {table : Table κ ρ}
    (nonneg : ∀ key row, table.lookup key = some row → 0 ≤ weight key row) :
    0 ≤ total weight table := by
  have zero : total (fun _ _ => (0 : α)) table = 0 := by simp [total]
  rw [← zero]
  exact total_le_total nonneg

/-- The total of fewer rows is smaller. -/
theorem total_erase_le
    {weight : κ → ρ → α}
    {table : Table κ ρ}
    (nonneg : ∀ key row, table.lookup key = some row → 0 ≤ weight key row)
    (key : κ) :
    total weight (table.erase key) ≤ total weight table := by
  cases stored : table.lookup key with
  | none => exact (total_erase_of_lookup_eq_none weight stored).le
  | some row =>
      rw [total_of_lookup weight stored]
      exact le_add_of_nonneg_left (nonneg key row stored)

end Table
