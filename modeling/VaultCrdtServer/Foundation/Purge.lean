import VaultCrdtServer.Foundation.Interleaving

/-!
# Purging schedules

Steps of some kind are left out of a schedule.  Where the steps that are kept
can be matched, and those that are left out are not seen, the rest of a run is a
run, and what it leads to depends on nothing else.
-/

namespace Interleaving

namespace Machine

variable {S : Signature} {σ : Type} {M : Machine S σ}
variable {kept : M.Label → M.Config → Bool}

/-- The steps of a schedule that are kept, found by executing it. -/
def purge (kept : M.Label → M.Config → Bool) : List M.Label → M.Config → List M.Label
  | [], _ => []
  | label :: labels, config =>
      let rest := (M.step label config).elim [] (purge kept labels)
      if kept label config then label :: rest else rest

/-- Which steps of a schedule are kept. -/
def marks (kept : M.Label → M.Config → Bool) : List M.Label → M.Config → List Bool
  | [], _ => []
  | label :: labels, config =>
      kept label config :: (M.step label config).elim [] (marks kept labels)

/-- What is kept of a schedule is found from the marks alone. -/
theorem purge_eq_filterMap (labels : List M.Label) (config : M.Config) :
    purge kept labels config =
      (labels.zip (marks kept labels config)).filterMap fun (label, mark) =>
        if mark then some label else none := by
  induction labels generalizing config with
  | nil => rfl
  | cons label labels inductionHypothesis =>
      have rest : (M.step label config).elim [] (purge kept labels) =
          (labels.zip ((M.step label config).elim [] (marks kept labels))).filterMap
            fun (label, mark) => if mark then some label else none := by
        cases M.step label config with
        | none => simp
        | some config' => exact inductionHypothesis config'
      simp only [purge, marks, List.zip_cons_cons, List.filterMap_cons, rest]
      cases kept label config with
      | false => rfl
      | true => rfl

/-- How a relation between configurations survives a step of the first, and of
the second with it where the step is kept. -/
structure Unwinds
    (kept : M.Label → M.Config → Bool)
    (related : M.Config → M.Config → Prop) : Prop where
  /-- A step that is kept is enabled in both. -/
  matched : ∀ {label full full' part}, related full part →
    Steps M label full full' → kept label full = true →
      ∃ part', Steps M label part part' ∧ related full' part'
  /-- A step that is left out is not seen. -/
  unseen : ∀ {label full full' part}, related full part →
    Steps M label full full' → kept label full = false → related full' part

variable {related : M.Config → M.Config → Prop}

/-- What is kept of a run is a run. -/
theorem Unwinds.run
    (unwinds : Unwinds kept related)
    {labels : List M.Label}
    {full full' part : M.Config}
    (here : related full part)
    (runs : M.run labels full = some full') :
    ∃ part', M.run (purge kept labels full) part = some part' ∧ related full' part' := by
  induction labels generalizing full part with
  | nil =>
      simp only [Machine.run, Option.some.injEq] at runs
      exact ⟨part, rfl, runs ▸ here⟩
  | cons label labels inductionHypothesis =>
      simp only [Machine.run, Option.bind_eq_some_iff] at runs
      obtain ⟨middle, stepped, remaining⟩ := runs
      have steps := step_eq_some_iff.mp stepped
      cases keep : kept label full with
      | false =>
          have next := unwinds.unseen here steps keep
          obtain ⟨part', continued, there⟩ := inductionHypothesis next remaining
          refine ⟨part', ?_, there⟩
          simpa [purge, stepped, keep] using continued
      | true =>
          obtain ⟨next, stepped', related'⟩ := unwinds.matched here steps keep
          obtain ⟨part', continued, there⟩ := inductionHypothesis related' remaining
          refine ⟨part', ?_, there⟩
          have whole : M.step label part = some next := step_eq_some_iff.mpr stepped'
          simpa [purge, Machine.run, stepped, keep, whole] using continued

/-- Two runs of which the same is kept are related to one configuration. -/
theorem Unwinds.determines
    (unwinds : Unwinds kept related)
    {labels labels' : List M.Label}
    {first second first' second' part : M.Config}
    (runs : M.run labels first = some first')
    (runs' : M.run labels' second = some second')
    (here : related first part)
    (there : related second part)
    (same : purge kept labels first = purge kept labels' second) :
    ∃ part', M.run (purge kept labels first) part = some part' ∧
      related first' part' ∧ related second' part' := by
  obtain ⟨part₁, left, related₁⟩ := unwinds.run here runs
  obtain ⟨part₂, right, related₂⟩ := unwinds.run there runs'
  rw [← same] at right
  obtain rfl := Option.some.inj (left.symm.trans right)
  exact ⟨part₁, left, related₁, related₂⟩

end Machine

end Interleaving
