import Mathlib.Data.Set.Lattice
import Mathlib.Order.WellFounded

/-!
# Integrating operations with causal dependencies

Operations name the operations they depend on.  A replica holds a set of
operations and is offered a pool of others: it applies exactly those whose
dependencies it holds or can apply from the pool, and leaves the rest aside.

The dependencies form a directed acyclic graph over operation identifiers that
never changes, so a set of identifiers determines a set of operations.
-/

namespace CausalHistory

variable {Op : Type}

/-- Operations that can be applied by a replica that holds `held` and is
offered `pool`. -/
inductive Ready (deps : Op → Set Op) (held pool : Set Op) : Op → Prop
  | held {op} (member : op ∈ held) : Ready deps held pool op
  | apply {op}
      (offered : op ∈ pool)
      (satisfied : ∀ dependency ∈ deps op, Ready deps held pool dependency) :
      Ready deps held pool op

/-- The operations a replica holds after it was offered a pool. -/
def integrate (deps : Op → Set Op) (held pool : Set Op) : Set Op :=
  { op | Ready deps held pool op }

/-- A set that contains the dependencies of its members. -/
def Closed (deps : Op → Set Op) (ops : Set Op) : Prop :=
  ∀ op ∈ ops, deps op ⊆ ops

variable {deps : Op → Set Op} {held held' pool pool' : Set Op}

/-- Nothing that is held is lost. -/
theorem subset_integrate : held ⊆ integrate deps held pool :=
  fun _ member => .held member

/-- Only held and offered operations are applied. -/
theorem integrate_subset : integrate deps held pool ⊆ held ∪ pool := by
  intro op ready
  cases ready with
  | held member => exact Or.inl member
  | apply offered _ => exact Or.inr offered

/-- Whatever can be applied can be applied from a larger start. -/
theorem integrate_mono
    (heldSubset : held ⊆ held')
    (poolSubset : pool ⊆ pool') :
    integrate deps held pool ⊆ integrate deps held' pool' := by
  intro op ready
  induction ready with
  | held member => exact .held (heldSubset member)
  | apply offered _ inductionHypothesis =>
      exact .apply (poolSubset offered) inductionHypothesis

/-- Being offered the same operations again changes nothing. -/
theorem integrate_integrate (poolSubset : pool' ⊆ pool) :
    integrate deps (integrate deps held pool) pool' =
      integrate deps held pool := by
  apply Set.Subset.antisymm _ subset_integrate
  intro op ready
  induction ready with
  | held member => exact member
  | apply offered _ inductionHypothesis =>
      exact .apply (poolSubset offered) inductionHypothesis

/-- A replica that is closed stays closed. -/
theorem integrate_closed (closed : Closed deps held) :
    Closed deps (integrate deps held pool) := by
  intro op ready dependency needed
  cases ready with
  | held member => exact .held (closed op member needed)
  | apply _ satisfied => exact satisfied dependency needed

/-- The empty replica is closed. -/
theorem closed_empty : Closed deps ∅ :=
  fun _ member => member.elim

section Acyclic

variable (acyclic : WellFounded fun dependency op => dependency ∈ deps op)

include acyclic

/-- A pool whose dependencies are held or offered is applied as a whole. -/
theorem integrate_eq_union
    (satisfied : ∀ op ∈ pool, deps op ⊆ held ∪ pool) :
    integrate deps held pool = held ∪ pool := by
  apply Set.Subset.antisymm integrate_subset
  intro op
  induction op using acyclic.induction with
  | _ op inductionHypothesis =>
      rintro (member | offered)
      · exact .held member
      · refine .apply offered ?_
        intro dependency needed
        exact inductionHypothesis dependency needed
          (satisfied op offered needed)

/-- A closed set is applied by an empty replica. -/
theorem integrate_empty_of_closed (closed : Closed deps pool) :
    integrate deps ∅ pool = pool := by
  rw [integrate_eq_union acyclic]
  · exact Set.empty_union pool
  · intro op offered
    rw [Set.empty_union]
    exact closed op offered

/-- Offered what it lacks of a closed set, a replica holds the union. -/
theorem integrate_sdiff (closed : Closed deps pool) :
    integrate deps held (pool \ held) = held ∪ pool := by
  rw [integrate_eq_union acyclic, Set.union_sdiff_self]
  intro op offered dependency needed
  rw [Set.union_sdiff_self]
  exact Or.inr (closed op offered.1 needed)

/-- All of a pool is applied exactly when each of its dependencies is held or
offered with it. -/
theorem pool_subset_integrate_iff (closed : Closed deps held) :
    pool ⊆ integrate deps held pool ↔
      ∀ op ∈ pool, deps op ⊆ held ∪ pool := by
  constructor
  · intro applied op offered dependency needed
    exact integrate_subset
      (integrate_closed closed op (applied offered) needed)
  · intro satisfied
    rw [integrate_eq_union acyclic satisfied]
    exact Set.subset_union_right

end Acyclic

/-- An operation applied without using anything that was held is applied by an
empty replica too. -/
theorem integrate_empty_of_deps_not_held
    (untouched : ∀ op ∈ pool, ∀ dependency ∈ deps op, dependency ∉ held)
    {op : Op}
    (ready : op ∈ integrate deps held pool)
    (fresh : op ∉ held) :
    op ∈ integrate deps ∅ pool := by
  induction ready with
  | held member => exact absurd member fresh
  | @apply op offered _ inductionHypothesis =>
      refine .apply offered ?_
      intro dependency needed
      exact inductionHypothesis dependency needed
        (untouched op offered dependency needed)

/-! ## Deciding readiness

When every dependency has a smaller rank, readiness is computed by recursion on
a bound for the rank. -/

variable [DecidableEq Op]

/-- Readiness of an operation whose rank is below the first argument. -/
def readyBelow (deps : Op → List Op) (held pool : List Op) : Nat → Op → Bool
  | 0, _ => false
  | bound + 1, op =>
      decide (op ∈ held) ||
        (decide (op ∈ pool) &&
          (deps op).all (readyBelow deps held pool bound))

theorem readyBelow_iff
    {deps : Op → List Op}
    {rank : Op → Nat}
    (older : ∀ op, ∀ dependency ∈ deps op, rank dependency < rank op)
    {held pool : List Op}
    {bound : Nat}
    {op : Op}
    (below : rank op < bound) :
    readyBelow deps held pool bound op = true ↔
      Ready (fun op => { dependency | dependency ∈ deps op })
        { op | op ∈ held } { op | op ∈ pool } op := by
  induction bound generalizing op with
  | zero => omega
  | succ bound inductionHypothesis =>
      have recursive : ∀ dependency ∈ deps op,
          (readyBelow deps held pool bound dependency = true ↔
            Ready (fun op => { dependency | dependency ∈ deps op })
              { op | op ∈ held } { op | op ∈ pool } dependency) := by
        intro dependency needed
        have smaller := older op dependency needed
        exact inductionHypothesis (by omega)
      simp only [readyBelow, Bool.or_eq_true, Bool.and_eq_true,
        decide_eq_true_eq, List.all_eq_true]
      constructor
      · rintro (member | ⟨offered, satisfied⟩)
        · exact .held member
        · exact .apply offered fun dependency needed =>
            (recursive dependency needed).mp (satisfied dependency needed)
      · intro ready
        cases ready with
        | held member => exact Or.inl member
        | apply offered satisfied =>
            exact Or.inr ⟨offered, fun dependency needed =>
              (recursive dependency needed).mpr (satisfied dependency needed)⟩

end CausalHistory
