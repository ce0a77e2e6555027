import Mathlib
import VaultCrdtServer.Foundation.Interleaving

/-!
# Runs under a clock

The times at which the steps of a schedule are taken are read off its labels.
In a chronological schedule they never decrease, and what is stamped with a time
lies in the past of every later step.
-/

namespace Interleaving

namespace Machine

variable {S : Signature} {σ τ : Type} [Preorder τ] {M : Machine S σ}

/-- The times of a schedule never decrease. -/
def Chronological (time : M.Label → Option τ) (labels : List M.Label) : Prop :=
  (labels.filterMap time).Pairwise (· ≤ ·)

instance (time : M.Label → Option τ) (labels : List M.Label) [DecidableLE τ] :
    Decidable (Chronological time labels) :=
  inferInstanceAs (Decidable (List.Pairwise _ _))

/-- What holds at a time, whatever steps are taken from then on: it stays true as
time passes, and every step preserves it at its own time. -/
structure Timed
    (time : M.Label → Option τ)
    (allowed : M.Label → M.Config → Prop)
    (motive : τ → M.Config → Prop) : Prop where
  /-- Time passes. -/
  passes : ∀ {now later config}, motive now config → now ≤ later → motive later config
  /-- A step is taken at its time. -/
  step : ∀ {now label config config'}, motive now config →
    (∀ stamped, time label = some stamped → stamped = now) →
    allowed label config → Steps M label config config' → motive now config'

variable {time : M.Label → Option τ} {allowed : M.Label → M.Config → Prop}
variable {motive : τ → M.Config → Prop} {labels : List M.Label}
variable {config config' : M.Config} {now : τ}

/-- Induction over a chronological run, from a time before all its steps to a
time after them. -/
theorem Timed.run_from
    (timed : Timed time allowed motive)
    {start : τ}
    (initial : motive start config)
    (chronological : Chronological time labels)
    (admitted : Admits allowed labels config)
    (runs : M.run labels config = some config')
    (after : ∀ stamped ∈ labels.filterMap time, start ≤ stamped)
    (before : ∀ stamped ∈ labels.filterMap time, stamped ≤ now)
    (bounded : start ≤ now) :
    motive now config' := by
  induction labels generalizing config start with
  | nil =>
      simp only [run, Option.some.injEq] at runs
      exact runs ▸ timed.passes initial bounded
  | cons label labels inductionHypothesis =>
      simp only [run, Option.bind_eq_some_iff] at runs
      obtain ⟨middle, stepped, remaining⟩ := runs
      have steps := step_eq_some_iff.mp stepped
      cases stamp : time label with
      | none =>
          rw [List.filterMap_cons_none stamp] at after before
          refine inductionHypothesis ?_ ?_ (admitted.2 middle stepped) remaining after before
            bounded
          · exact timed.step initial (by simp [stamp]) admitted.1 steps
          · rwa [Chronological, List.filterMap_cons_none stamp] at chronological
      | some stamped =>
          rw [List.filterMap_cons_some stamp] at after before
          rw [Chronological, List.filterMap_cons_some stamp, List.pairwise_cons]
            at chronological
          have here : motive stamped middle :=
            timed.step (timed.passes initial (after stamped (List.mem_cons_self ..)))
              (by simp [stamp]) admitted.1 steps
          refine inductionHypothesis here chronological.2 (admitted.2 middle stepped)
            remaining chronological.1 ?_ ?_
          · exact fun other member => before other (List.mem_cons_of_mem _ member)
          · exact before stamped (List.mem_cons_self ..)

/-- What holds once the first part of a chronological schedule is over holds at
its end, at any time that is not before one of its steps. -/
theorem Timed.run_after
    (timed : Timed time allowed motive)
    {earlier : List M.Label}
    (initial : ∀ start, (∀ stamped ∈ earlier.filterMap time, stamped ≤ start) →
      motive start config)
    (chronological : Chronological time (earlier ++ labels))
    (admitted : Admits allowed labels config)
    (runs : M.run labels config = some config')
    (before : ∀ stamped ∈ (earlier ++ labels).filterMap time, stamped ≤ now) :
    motive now config' := by
  rw [List.filterMap_append] at before
  have before' : ∀ stamped ∈ labels.filterMap time, stamped ≤ now :=
    fun stamped member => before stamped (List.mem_append_right _ member)
  rw [Chronological, List.filterMap_append, List.pairwise_append] at chronological
  obtain ⟨-, ordered, across⟩ := chronological
  cases stamps : labels.filterMap time with
  | nil =>
      refine timed.run_from (initial now ?_) ordered admitted runs (by simp [stamps])
        before' le_rfl
      exact fun stamped member => before stamped (List.mem_append_left _ member)
  | cons first rest =>
      have head : first ∈ labels.filterMap time := by simp [stamps]
      refine timed.run_from (initial first ?_) ordered admitted runs ?_ before'
        (before' first head)
      · exact fun stamped member => across stamped member first head
      · intro stamped member
        rw [stamps, List.pairwise_cons] at ordered
        rw [stamps, List.mem_cons] at member
        rcases member with rfl | later
        · exact le_rfl
        · exact ordered.1 stamped later

/-- What holds at the start of a chronological run at any time holds at its
end, at any time that is not before one of its steps. -/
theorem Timed.run
    (timed : Timed time allowed motive)
    (initial : ∀ start, motive start config)
    (chronological : Chronological time labels)
    (admitted : Admits allowed labels config)
    (runs : M.run labels config = some config')
    (before : ∀ stamped ∈ labels.filterMap time, stamped ≤ now) :
    motive now config' := by
  have initial' : ∀ start,
      (∀ stamped ∈ ([] : List M.Label).filterMap time, stamped ≤ start) →
      motive start config :=
    fun start _ => initial start
  exact timed.run_after initial' chronological admitted runs before

/-- The times of the first part of a chronological schedule are not after a time
of the second. -/
theorem Chronological.before
    {first second : List M.Label}
    (chronological : Chronological time (first ++ second))
    {stamped later : τ}
    (member : stamped ∈ first.filterMap time)
    (member' : later ∈ second.filterMap time) :
    stamped ≤ later := by
  rw [Chronological, List.filterMap_append, List.pairwise_append] at chronological
  exact chronological.2.2 stamped member later member'

/-- The first part of a chronological schedule is chronological. -/
theorem Chronological.first
    {first second : List M.Label}
    (chronological : Chronological time (first ++ second)) :
    Chronological time first := by
  rw [Chronological, List.filterMap_append, List.pairwise_append] at chronological
  exact chronological.1

end Machine

end Interleaving
