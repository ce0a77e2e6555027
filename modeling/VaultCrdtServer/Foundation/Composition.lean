import VaultCrdtServer.Foundation.Interleaving

/-!
# Disciplines on top of each other

What one discipline has established, another may rely on: it knows of every
call that it is made as the contracts of the first require, and of every
configuration that the first discipline holds there.
-/

namespace Interleaving

variable {S : Signature} {σ : Type}

/-- The contract, where calls are known to be made within another one. -/
def Contract.given (contract known : Contract S σ) : Contract S σ where
  rely := contract.rely
  pre := contract.pre
  exec := fun request state reply state' =>
    known.pre request state ∧ known.exec request state reply state' ∧
      contract.exec request state reply state'
  rely_refl := contract.rely_refl
  rely_trans := contract.rely_trans

/-- What is known besides does no harm. -/
theorem Program.Meets.given
    {α : Type}
    {contract : Contract S σ}
    {post : α → σ → Prop}
    {program : Program S α}
    {state : σ}
    (meets : program.Meets contract post state)
    (known : Contract S σ) :
    program.Meets (contract.given known) post state := by
  induction program generalizing state with
  | done value => exact meets
  | call request next inductionHypothesis =>
      intro state' tolerated
      obtain ⟨pre, continues⟩ := meets state' tolerated
      refine ⟨pre, ?_⟩
      rintro reply state'' ⟨-, -, effect⟩
      exact inductionHypothesis reply (continues reply state'' effect)

namespace Discipline

variable {M : Machine S σ}

/-- The discipline, where another one holds. -/
def given (E D : Discipline M) : Discipline M where
  contract := fun thread => (E.contract thread).given (D.contract thread)
  idle := E.idle
  post := E.post
  allowed := fun label config => D.allowed label config ∧ E.allowed label config
  invariant := fun config => D.Holds config ∧ E.invariant config

/-- The contracts of a discipline fit together where another one holds. -/
structure SoundGiven (E D : Discipline M) : Prop where
  exec : ∀ {config : M.Config} {thread choice request next reply shared},
    (E.given D).invariant config →
    E.allowed (.act thread choice) config →
    config.thread thread = some (.call request next) →
    M.exec thread request choice config.shared = some (reply, shared) →
      (E.contract thread).exec request config.shared reply shared
  exec_frame : ∀ {thread other request state reply state'},
    (E.contract thread).pre request state →
    ((E.given D).contract thread).exec request state reply state' →
    other ≠ thread → (E.contract other).rely state state'
  environment_frame : ∀ {event state state' other},
    M.environment event state = some state' →
      (E.contract other).rely state state'
  idle_stable : ∀ {thread state state'},
    E.idle thread state → (E.contract thread).rely state state' →
      E.idle thread state'
  start : ∀ {config : M.Config} {thread task program state'},
    (E.given D).invariant config →
    E.idle thread config.shared →
    M.start thread task config.shared = some (program, state') →
      program.Meets (E.contract thread) (E.post thread) state'
  start_frame : ∀ {thread other task state program state'},
    M.start thread task state = some (program, state') →
    other ≠ thread → (E.contract other).rely state state'
  finish : ∀ {thread outcome state},
    E.post thread outcome state → E.idle thread (M.finish thread outcome state)
  finish_frame : ∀ {thread other outcome state},
    other ≠ thread →
      (E.contract other).rely state (M.finish thread outcome state)
  abandon : ∀ {config : M.Config} {thread},
    E.allowed (.abandon thread) config →
      E.idle thread (M.abandon thread config.shared)
  abandon_frame : ∀ {thread other state},
    other ≠ thread → (E.contract other).rely state (M.abandon thread state)
  invariant : ∀ {label config config'},
    (E.given D).Holds config → E.allowed label config → Machine.Steps M label config config' →
      E.invariant config'

variable {D E : Discipline M}

/-- Then both hold in every run. -/
theorem SoundGiven.sound (given : E.SoundGiven D) (sound : D.Sound) : (E.given D).Sound where
  exec := fun invariant allowed current effect =>
    ⟨invariant.1.pre current, sound.exec invariant.1.invariant allowed.1 current effect,
      given.exec invariant allowed.2 current effect⟩
  exec_frame := given.exec_frame
  environment_frame := given.environment_frame
  idle_stable := given.idle_stable
  start := fun invariant idle effect => (given.start invariant idle effect).given _
  start_frame := given.start_frame
  finish := given.finish
  finish_frame := given.finish_frame
  abandon := fun allowed => given.abandon allowed.2
  abandon_frame := given.abandon_frame
  invariant := fun holds allowed stepped =>
    ⟨sound.step holds.invariant.1 allowed.1 stepped, given.invariant holds allowed.2 stepped⟩

end Discipline

/-! ## What is observed of a run -/

/-- The step changes the shared state as a relation allows. -/
def Machine.Respects
    {M : Machine S σ}
    (relation : σ → σ → Prop)
    (label : M.Label)
    (config : M.Config) : Prop :=
  match M.step label config with
  | some config' => relation config.shared config'.shared
  | none => True

/-- What a step that respects a relation has done. -/
theorem Machine.Respects.of_steps
    {M : Machine S σ}
    {relation : σ → σ → Prop}
    {label : M.Label}
    {config config' : M.Config}
    (respects : Respects relation label config)
    (stepped : Steps M label config config') :
    relation config.shared config'.shared := by
  unfold Respects at respects
  rwa [step_eq_some_iff.mpr stepped] at respects

instance
    {M : Machine S σ}
    (relation : σ → σ → Prop)
    [∀ state state', Decidable (relation state state')]
    (label : M.Label)
    (config : M.Config) :
    Decidable (Machine.Respects relation label config) := by
  unfold Machine.Respects
  split <;> infer_instance

namespace Discipline

variable {M : Machine S σ} {relation : σ → σ → Prop}

/-- Nothing is asked of the threads, and every call is known to change the state
as the relation allows. -/
def observed (M : Machine S σ) (relation : σ → σ → Prop) : Discipline M where
  contract := fun _ =>
    { rely := fun _ _ => True
      pre := fun _ _ => True
      exec := fun _ state _ state' => relation state state'
      rely_refl := fun _ => trivial
      rely_trans := fun _ _ => trivial }
  idle := fun _ _ => True
  post := fun _ _ _ => True
  allowed := Machine.Respects relation
  invariant := fun _ => True

theorem observed_meets (thread : Nat) (program : Program S M.Outcome) (state : σ) :
    program.Meets ((observed M relation).contract thread)
      ((observed M relation).post thread) state := by
  induction program generalizing state with
  | done value => exact fun _ _ => trivial
  | call request next inductionHypothesis =>
      exact fun _ _ => ⟨trivial, fun reply state' _ => inductionHypothesis reply state'⟩

/-- What is observed may be relied on wherever another discipline holds. -/
theorem observed_soundGiven (D : Discipline M) : (observed M relation).SoundGiven D where
  exec := by
    intro config thread choice request next reply shared _ allowed current effect
    simpa [observed, Machine.Respects, Machine.step, current, effect] using allowed
  exec_frame := fun _ _ _ => trivial
  environment_frame := fun _ => trivial
  idle_stable := fun _ _ => trivial
  start := fun _ _ _ => observed_meets _ _ _
  start_frame := fun _ _ => trivial
  finish := fun _ => trivial
  finish_frame := fun _ => trivial
  abandon := fun _ => trivial
  abandon_frame := fun _ => trivial
  invariant := fun _ _ _ => trivial

/-- What is observed besides holds at the start. -/
theorem Holds.observed
    {D : Discipline M}
    {config : M.Config}
    (holds : D.Holds config) :
    ((observed M relation).given D).Holds config where
  invariant := ⟨holds, trivial⟩
  threads := by
    intro thread
    cases config.thread thread with
    | none => trivial
    | some program => exact (observed_meets thread program config.shared).given _

end Discipline

end Interleaving
