import VaultCrdtServer.Foundation.Program
import Mathlib.Logic.Function.Basic

/-!
# Interleaving programs over a shared state

A machine runs any number of threads, each holding what is left of its program,
over one shared state.  A step lets one thread make its next call, lets the
environment act, or starts, finishes or abandons a thread.  Every choice is in
the step's label, so a schedule is a list of labels and a run can be evaluated.

A discipline assigns each thread a contract.  When the contracts fit together,
every run keeps every thread within its contract, and every call is made in a
state that satisfies the call's precondition.
-/

namespace Interleaving

/-- The calls' meaning, the environment, and the life cycle of a thread. -/
structure Machine (S : Signature) (σ : Type) where
  /-- What is left open when a call is executed. -/
  Choice : Type
  /-- Effect of a thread's call, or `none` while the call blocks. -/
  exec : Nat → (request : S.Call) → Choice → σ → Option (S.Reply request × σ)
  /-- What the environment may do. -/
  Event : Type
  /-- Effect of the environment, or `none` where it cannot act. -/
  environment : Event → σ → Option σ
  /-- What an idle thread may be given to do. -/
  Task : Type
  /-- Value a thread's program ends with. -/
  Outcome : Type
  /-- Program a task stands for, or `none` where it cannot start. -/
  start : Nat → Task → σ → Option (Program S Outcome × σ)
  /-- Effect of a thread whose program has ended. -/
  finish : Nat → Outcome → σ → σ
  /-- Effect of dropping a thread, whatever it was doing. -/
  abandon : Nat → σ → σ

variable {S : Signature} {σ : Type}

/-- A shared state and what is left of every thread's program. -/
structure Machine.Config (M : Machine S σ) where
  /-- State shared by the threads. -/
  shared : σ
  /-- Rest of each thread's program, `none` for an idle thread. -/
  thread : Nat → Option (Program S M.Outcome)

/-- One step of a machine, with every choice resolved. -/
inductive Machine.Label (M : Machine S σ) : Type
  | act (thread : Nat) (choice : M.Choice)
  | environment (event : M.Event)
  | start (thread : Nat) (task : M.Task)
  | finish (thread : Nat)
  | abandon (thread : Nat)

namespace Machine

variable {M : Machine S σ}

/-- The configuration with one thread's program and the shared state replaced. -/
def Config.advance
    (config : M.Config)
    (thread : Nat)
    (rest : Option (Program S M.Outcome))
    (shared : σ) : M.Config where
  shared := shared
  thread := Function.update config.thread thread rest

@[simp] theorem Config.advance_shared
    (config : M.Config)
    (thread : Nat)
    (rest : Option (Program S M.Outcome))
    (shared : σ) :
    (config.advance thread rest shared).shared = shared := rfl

@[simp] theorem Config.advance_thread_self
    (config : M.Config)
    (thread : Nat)
    (rest : Option (Program S M.Outcome))
    (shared : σ) :
    (config.advance thread rest shared).thread thread = rest :=
  Function.update_self ..

theorem Config.advance_thread_other
    (config : M.Config)
    {thread other : Nat}
    (different : other ≠ thread)
    (rest : Option (Program S M.Outcome))
    (shared : σ) :
    (config.advance thread rest shared).thread other = config.thread other :=
  Function.update_of_ne different ..

variable (M) in
/-- Execute one labelled step, or `none` where it is not enabled. -/
def step : M.Label → M.Config → Option M.Config
  | .act thread choice, config =>
      match config.thread thread with
      | some (.call request next) =>
          (M.exec thread request choice config.shared).map fun result =>
            config.advance thread (some (next result.1)) result.2
      | _ => none
  | .environment event, config =>
      (M.environment event config.shared).map fun shared =>
        { config with shared := shared }
  | .start thread task, config =>
      match config.thread thread with
      | none =>
          (M.start thread task config.shared).map fun result =>
            config.advance thread (some result.1) result.2
      | some _ => none
  | .finish thread, config =>
      match config.thread thread with
      | some (.done outcome) =>
          some (config.advance thread none
            (M.finish thread outcome config.shared))
      | _ => none
  | .abandon thread, config =>
      some (config.advance thread none (M.abandon thread config.shared))

/-- What one step can do, once for every proof about runs. -/
inductive Steps (M : Machine S σ) : M.Label → M.Config → M.Config → Prop
  | act {config : M.Config} {thread choice request next reply shared}
      (current : config.thread thread = some (.call request next))
      (effect : M.exec thread request choice config.shared =
        some (reply, shared)) :
      Steps M (.act thread choice) config
        (config.advance thread (some (next reply)) shared)
  | environment {config : M.Config} {event shared}
      (effect : M.environment event config.shared = some shared) :
      Steps M (.environment event) config { config with shared := shared }
  | start {config : M.Config} {thread task program shared}
      (current : config.thread thread = none)
      (effect : M.start thread task config.shared = some (program, shared)) :
      Steps M (.start thread task) config
        (config.advance thread (some program) shared)
  | finish {config : M.Config} {thread outcome}
      (current : config.thread thread = some (.done outcome)) :
      Steps M (.finish thread) config
        (config.advance thread none (M.finish thread outcome config.shared))
  | abandon {config : M.Config} {thread} :
      Steps M (.abandon thread) config
        (config.advance thread none (M.abandon thread config.shared))

/-- The executable step and its case analysis agree. -/
theorem step_eq_some_iff {label : M.Label} {config config' : M.Config} :
    M.step label config = some config' ↔ Steps M label config config' := by
  constructor
  · intro stepped
    cases label with
    | act thread choice =>
        cases current : config.thread thread with
        | none => simp [step, current] at stepped
        | some program =>
            cases program with
            | done value => simp [step, current] at stepped
            | call request next =>
                simp only [step, current, Option.map_eq_some_iff] at stepped
                obtain ⟨⟨reply, shared⟩, effect, rfl⟩ := stepped
                exact .act current effect
    | environment event =>
        simp only [step, Option.map_eq_some_iff] at stepped
        obtain ⟨shared, effect, rfl⟩ := stepped
        exact .environment effect
    | start thread task =>
        cases current : config.thread thread with
        | none =>
            simp only [step, current, Option.map_eq_some_iff] at stepped
            obtain ⟨⟨program, shared⟩, effect, rfl⟩ := stepped
            exact .start current effect
        | some program => simp [step, current] at stepped
    | finish thread =>
        cases current : config.thread thread with
        | none => simp [step, current] at stepped
        | some program =>
            cases program with
            | done outcome =>
                simp only [step, current, Option.some.injEq] at stepped
                subst stepped
                exact .finish current
            | call request next => simp [step, current] at stepped
    | abandon thread =>
        simp only [step, Option.some.injEq] at stepped
        subst stepped
        exact .abandon
  · intro stepped
    cases stepped with
    | act current effect => simp [step, current, effect]
    | environment effect => simp [step, effect]
    | start current effect => simp [step, current, effect]
    | finish current => simp [step, current]
    | abandon => simp [step]

variable (M) in
/-- Execute a schedule, or `none` where one of its steps is not enabled. -/
def run : List M.Label → M.Config → Option M.Config
  | [], config => some config
  | label :: labels, config => (M.step label config).bind (run labels)

/-- Every step of a schedule is taken in a configuration that allows it. -/
def Admits
    (allowed : M.Label → M.Config → Prop) :
    List M.Label → M.Config → Prop
  | [], _ => True
  | label :: labels, config =>
      allowed label config ∧
        ∀ config', M.step label config = some config' →
          Admits allowed labels config'

/-- Induction over a run: what every allowed step preserves holds at its end. -/
theorem run_induction
    {allowed : M.Label → M.Config → Prop}
    {motive : M.Config → Prop}
    (preserved : ∀ {label config config'}, motive config →
      allowed label config → Steps M label config config' →
        motive config')
    {labels : List M.Label}
    {config config' : M.Config}
    (initial : motive config)
    (admitted : Admits allowed labels config)
    (runs : M.run labels config = some config') :
    motive config' := by
  induction labels generalizing config with
  | nil =>
      simp only [run, Option.some.injEq] at runs
      exact runs ▸ initial
  | cons label labels inductionHypothesis =>
      simp only [run, Option.bind_eq_some_iff] at runs
      obtain ⟨middle, stepped, remaining⟩ := runs
      have continued : motive middle :=
        preserved initial admitted.1 (step_eq_some_iff.mp stepped)
      exact inductionHypothesis continued (admitted.2 middle stepped) remaining

/-- A schedule all of whose steps are always allowed is admitted. -/
theorem Admits.of_labels
    {allowed : M.Label → M.Config → Prop}
    {labels : List M.Label}
    (config : M.Config)
    (always : ∀ label ∈ labels, ∀ config, allowed label config) :
    Admits allowed labels config := by
  induction labels generalizing config with
  | nil => trivial
  | cons label labels inductionHypothesis =>
      exact ⟨always label List.mem_cons_self config, fun config' _ =>
        inductionHypothesis config' fun label' member =>
          always label' (List.mem_cons_of_mem label member)⟩

/-- What is always allowed is admitted. -/
theorem Admits.of_forall
    {allowed : M.Label → M.Config → Prop}
    (labels : List M.Label)
    (config : M.Config)
    (always : ∀ label config, allowed label config) :
    Admits allowed labels config :=
  .of_labels config fun label _ => always label

/-- What allows more admits more. -/
theorem Admits.mono
    {allowed allowed' : M.Label → M.Config → Prop}
    (weaker : ∀ label config, allowed label config → allowed' label config)
    {labels : List M.Label}
    {config : M.Config}
    (admitted : Admits allowed labels config) :
    Admits allowed' labels config := by
  induction labels generalizing config with
  | nil => trivial
  | cons label labels inductionHypothesis =>
      exact ⟨weaker label config admitted.1, fun config' stepped =>
        inductionHypothesis (admitted.2 config' stepped)⟩

/-- What is admitted in both ways. -/
theorem Admits.and
    {allowed allowed' : M.Label → M.Config → Prop}
    {labels : List M.Label}
    {config : M.Config}
    (admitted : Admits allowed labels config)
    (admitted' : Admits allowed' labels config) :
    Admits (fun label config => allowed label config ∧ allowed' label config) labels
      config := by
  induction labels generalizing config with
  | nil => trivial
  | cons label labels inductionHypothesis =>
      exact ⟨⟨admitted.1, admitted'.1⟩, fun config' stepped =>
        inductionHypothesis (admitted.2 config' stepped) (admitted'.2 config' stepped)⟩

/-- The first part of an admitted schedule is admitted. -/
theorem Admits.first
    {allowed : M.Label → M.Config → Prop}
    {first second : List M.Label}
    {config : M.Config}
    (admitted : Admits allowed (first ++ second) config) :
    Admits allowed first config := by
  induction first generalizing config with
  | nil => trivial
  | cons label labels inductionHypothesis =>
      exact ⟨admitted.1, fun config' stepped =>
        inductionHypothesis (admitted.2 config' stepped)⟩

/-- So is the second, where the first leads to. -/
theorem Admits.second
    {allowed : M.Label → M.Config → Prop}
    {first second : List M.Label}
    {config config' : M.Config}
    (admitted : Admits allowed (first ++ second) config)
    (runs : M.run first config = some config') :
    Admits allowed second config' := by
  induction first generalizing config with
  | nil =>
      simp only [run, Option.some.injEq] at runs
      exact runs ▸ admitted
  | cons label labels inductionHypothesis =>
      simp only [run, Option.bind_eq_some_iff] at runs
      obtain ⟨middle, stepped, remaining⟩ := runs
      exact inductionHypothesis (admitted.2 middle stepped) remaining

/-- Every step of an admitted schedule is allowed where it is taken. -/
theorem Admits.allowed
    {allowed : M.Label → M.Config → Prop}
    {first second : List M.Label}
    {label : M.Label}
    {config config' : M.Config}
    (admitted : Admits allowed (first ++ label :: second) config)
    (runs : M.run first config = some config') :
    allowed label config' :=
  (admitted.second runs).1

/-- Whether a schedule is admitted is found by executing it. -/
instance decidableAdmits
    (allowed : M.Label → M.Config → Prop)
    [∀ label config, Decidable (allowed label config)] :
    ∀ labels config, Decidable (Admits allowed labels config)
  | [], _ => isTrue trivial
  | label :: labels, config =>
      match stepped : M.step label config with
      | none => decidable_of_iff (allowed label config) (by simp [Admits, stepped])
      | some config' =>
          have := decidableAdmits allowed labels config'
          decidable_of_iff (allowed label config ∧ Admits allowed labels config')
            (by simp [Admits, stepped])

/-- A schedule splits where it is cut. -/
theorem run_append (first second : List M.Label) (config : M.Config) :
    M.run (first ++ second) config =
      (M.run first config).bind (M.run second) := by
  induction first generalizing config with
  | nil => rfl
  | cons label labels inductionHypothesis =>
      simp only [List.cons_append, run, Option.bind_assoc]
      congr 1
      funext middle
      exact inductionHypothesis middle

/-- What holds at the start of a run and not at its end lapses at one of the run's
steps. -/
theorem run_lapses
    (holds : M.Config → Prop)
    {labels : List M.Label}
    {config config' : M.Config}
    (runs : M.run labels config = some config')
    (first : holds config)
    (last : ¬ holds config') :
    ∃ earlier label later before after, labels = earlier ++ label :: later ∧
      M.run earlier config = some before ∧ Steps M label before after ∧
      holds before ∧ ¬ holds after := by
  induction labels generalizing config with
  | nil =>
      obtain rfl := Option.some.inj runs
      exact absurd first last
  | cons label labels inductionHypothesis =>
      obtain ⟨middle, stepped, rest⟩ := Option.bind_eq_some_iff.mp runs
      by_cases kept : holds middle
      · obtain ⟨earlier, lapse, later, before, after, rfl, reached, change⟩ :=
          inductionHypothesis rest kept
        refine ⟨label :: earlier, lapse, later, before, after, rfl, ?_, change⟩
        rw [run, stepped, Option.bind_some, reached]
      · exact ⟨[], label, labels, config, middle, rfl, rfl, step_eq_some_iff.mp stepped,
          first, kept⟩

end Machine

/-- A contract for every thread of a machine, what an idle thread leaves
behind, what its program ends with, which steps are considered, and what holds
of every configuration besides. -/
structure Discipline (M : Machine S σ) where
  /-- Contract of each thread. -/
  contract : Nat → Contract S σ
  /-- What holds while a thread is idle. -/
  idle : Nat → σ → Prop
  /-- What holds when a thread's program has ended. -/
  post : Nat → M.Outcome → σ → Prop
  /-- Restriction on the steps of a run. -/
  allowed : M.Label → M.Config → Prop
  /-- What holds between any two steps. -/
  invariant : M.Config → Prop

namespace Discipline

variable {M : Machine S σ}

/-- The invariant holds and every thread is within its contract. -/
structure Holds (D : Discipline M) (config : M.Config) : Prop where
  invariant : D.invariant config
  threads : ∀ thread, match config.thread thread with
    | none => D.idle thread config.shared
    | some program =>
        program.Meets (D.contract thread) (D.post thread) config.shared

/-- The contracts fit together: a thread's steps are interference the other
threads tolerate, and each stage of its life establishes the next one. -/
structure Sound (D : Discipline M) : Prop where
  exec : ∀ {config : M.Config} {thread choice request next reply shared},
    D.invariant config →
    D.allowed (.act thread choice) config →
    config.thread thread = some (.call request next) →
    M.exec thread request choice config.shared = some (reply, shared) →
      (D.contract thread).exec request config.shared reply shared
  exec_frame : ∀ {thread other request state reply state'},
    (D.contract thread).pre request state →
    (D.contract thread).exec request state reply state' →
    other ≠ thread → (D.contract other).rely state state'
  environment_frame : ∀ {event state state' other},
    M.environment event state = some state' →
      (D.contract other).rely state state'
  idle_stable : ∀ {thread state state'},
    D.idle thread state → (D.contract thread).rely state state' →
      D.idle thread state'
  start : ∀ {config : M.Config} {thread task program state'},
    D.invariant config →
    D.idle thread config.shared →
    M.start thread task config.shared = some (program, state') →
      program.Meets (D.contract thread) (D.post thread) state'
  start_frame : ∀ {thread other task state program state'},
    M.start thread task state = some (program, state') →
    other ≠ thread → (D.contract other).rely state state'
  finish : ∀ {thread outcome state},
    D.post thread outcome state → D.idle thread (M.finish thread outcome state)
  finish_frame : ∀ {thread other outcome state},
    other ≠ thread →
      (D.contract other).rely state (M.finish thread outcome state)
  abandon : ∀ {config : M.Config} {thread},
    D.allowed (.abandon thread) config →
      D.idle thread (M.abandon thread config.shared)
  abandon_frame : ∀ {thread other state},
    other ≠ thread → (D.contract other).rely state (M.abandon thread state)
  invariant : ∀ {label config config'},
    D.Holds config → D.allowed label config → Machine.Steps M label config config' →
      D.invariant config'

variable {D : Discipline M}

/-- What a configuration says about a thread that is running. -/
theorem Holds.meets
    {config : M.Config}
    {thread : Nat}
    {program : Program S M.Outcome}
    (holds : D.Holds config)
    (current : config.thread thread = some program) :
    program.Meets (D.contract thread) (D.post thread) config.shared := by
  simpa only [current] using holds.threads thread

/-- What a configuration says about an idle thread. -/
theorem Holds.idle
    {config : M.Config}
    {thread : Nat}
    (holds : D.Holds config)
    (current : config.thread thread = none) :
    D.idle thread config.shared := by
  simpa only [current] using holds.threads thread

/-- The precondition of the call a thread makes next. -/
theorem Holds.pre
    {config : M.Config}
    {thread : Nat}
    {request : S.Call}
    {next : S.Reply request → Program S M.Outcome}
    (holds : D.Holds config)
    (current : config.thread thread = some (.call request next)) :
    (D.contract thread).pre request config.shared :=
  (holds.meets current).pre

/-- The other threads stay within their contracts when the state moves along
their rely relations. -/
theorem Holds.others
    (sound : D.Sound)
    {config : M.Config}
    {thread : Nat}
    {rest : Option (Program S M.Outcome)}
    {shared : σ}
    (holds : D.Holds config)
    (tolerated : ∀ other, other ≠ thread →
      (D.contract other).rely config.shared shared)
    (stepped : match rest with
      | none => D.idle thread shared
      | some program =>
          program.Meets (D.contract thread) (D.post thread) shared)
    (preserved : D.invariant (config.advance thread rest shared)) :
    D.Holds (config.advance thread rest shared) := by
  refine ⟨preserved, ?_⟩
  intro other
  by_cases same : other = thread
  · subst same
    simpa using stepped
  · rw [config.advance_thread_other same]
    have before := holds.threads other
    cases current : config.thread other with
    | none =>
        rw [current] at before
        exact sound.idle_stable before (tolerated other same)
    | some program =>
        rw [current] at before
        exact before.stable (tolerated other same)

/-- An allowed step keeps every thread within its contract. -/
theorem Sound.step
    (sound : D.Sound)
    {label : M.Label}
    {config config' : M.Config}
    (holds : D.Holds config)
    (allowed : D.allowed label config)
    (stepped : M.Steps label config config') :
    D.Holds config' := by
  have preserved := sound.invariant holds allowed stepped
  cases stepped with
  | act current effect =>
      have executed := sound.exec holds.invariant allowed current effect
      exact holds.others sound
        (fun other different =>
          sound.exec_frame (holds.pre current) executed different)
        ((holds.meets current).next executed) preserved
  | @environment _ event shared effect =>
      refine ⟨preserved, ?_⟩
      intro thread
      have before := holds.threads thread
      have tolerated : (D.contract thread).rely config.shared shared :=
        sound.environment_frame effect
      cases current : config.thread thread with
      | none =>
          rw [current] at before
          exact sound.idle_stable before tolerated
      | some program =>
          rw [current] at before
          exact before.stable tolerated
  | start current effect =>
      exact holds.others sound
        (fun other different => sound.start_frame effect different)
        (sound.start holds.invariant (holds.idle current) effect) preserved
  | finish current =>
      exact holds.others sound
        (fun other different => sound.finish_frame different)
        (sound.finish (holds.meets current).post_of_done) preserved
  | abandon =>
      exact holds.others sound
        (fun other different => sound.abandon_frame different)
        (sound.abandon allowed) preserved

/-- Every run of allowed steps keeps every thread within its contract. -/
theorem Sound.run
    (sound : D.Sound)
    {labels : List M.Label}
    {config config' : M.Config}
    (holds : D.Holds config)
    (admitted : Machine.Admits D.allowed labels config)
    (runs : M.run labels config = some config') :
    D.Holds config' :=
  Machine.run_induction (fun holds allowed stepped =>
    sound.step holds allowed stepped) holds admitted runs

end Discipline

end Interleaving
