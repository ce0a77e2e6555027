import VaultCrdtServer.Foundation.Interleaving

/-!
# Requests

A service takes on requests, runs each of them as a program over one shared
state, and answers it with what the program ends with.  Requests are numbered
in the order in which they come, and a number is used once.

`Terms` say what a request may assume of the others, what it promises at each
of its calls and what its answer means.  Where the terms fit together, the
answers of every run mean what they should.
-/

namespace Interleaving

/-- Requests, and the calls their programs make on a shared state. -/
structure Service (S : Signature) (σ : Type) where
  /-- What is left open when a call is executed. -/
  Choice : Type
  /-- Effect of a request's call, or `none` where it cannot be made. -/
  exec : Nat → (call : S.Call) → Choice → σ → Option (S.Reply call × σ)
  /-- What happens besides the requests. -/
  Event : Type
  /-- Effect of an event, or `none` where it cannot happen. -/
  environment : Event → σ → Option σ
  /-- What a request is for. -/
  Task : Type
  /-- What a request ends with. -/
  Outcome : Type
  /-- Whether a request is taken on. -/
  accepts : Task → σ → Bool
  /-- The program of a request. -/
  program : Task → Program S Outcome

namespace Service

variable {S : Signature} {σ : Type}

/-- The shared state, and the requests and answers so far. -/
structure State (V : Service S σ) where
  shared : σ
  /-- The requests; one is known by its position. -/
  requests : List V.Task
  /-- The answers, oldest first. -/
  answers : List (Nat × V.Outcome)

/-- The service as a machine whose threads are the requests. -/
def machine (V : Service S σ) : Machine S V.State where
  Choice := V.Choice
  exec := fun request call choice state =>
    (V.exec request call choice state.shared).map fun result =>
      (result.1, { state with shared := result.2 })
  Event := V.Event
  environment := fun event state =>
    (V.environment event state.shared).map fun shared => { state with shared := shared }
  Task := V.Task
  Outcome := V.Outcome
  start := fun request task state =>
    if request = state.requests.length ∧ V.accepts task state.shared = true then
      some (V.program task, { state with requests := state.requests ++ [task] })
    else
      none
  finish := fun request outcome state =>
    { state with answers := state.answers ++ [(request, outcome)] }
  abandon := fun _ state => state

/-- No request has been made. -/
def initial (V : Service S σ) (shared : σ) : V.machine.Config where
  shared := { shared := shared, requests := [], answers := [] }
  thread := fun _ => none

/-- Some schedule leads to the configuration. -/
def Reachable (V : Service S σ) (shared : σ) (config : V.machine.Config) : Prop :=
  ∃ labels, V.machine.run labels (V.initial shared) = some config

/-- What the requests assume and promise. -/
structure Terms (V : Service S σ) where
  /-- What the others may do while a request waits. -/
  rely : Nat → σ → σ → Prop
  /-- What holds whenever a request makes a call. -/
  pre : Nat → V.Task → S.Call → σ → Prop
  /-- What the answer to a request means. -/
  post : Nat → V.Task → V.Outcome → σ → Prop
  /-- Nothing has been done for a request. -/
  fresh : Nat → σ → Prop
  /-- What holds between any two steps. -/
  invariant : σ → Prop
  rely_refl : ∀ request state, rely request state state
  rely_trans : ∀ {request first second third},
    rely request first second → rely request second third → rely request first third

namespace Terms

variable {V : Service S σ}

/-- The contract of a request. -/
def contract (terms : V.Terms) (request : Nat) (task : V.Task) : Contract S σ where
  rely := terms.rely request
  pre := terms.pre request task
  exec := fun call state reply state' => terms.invariant state ∧
    ∃ choice, V.exec request call choice state = some (reply, state')
  rely_refl := terms.rely_refl request
  rely_trans := terms.rely_trans

/-- The terms fit together. -/
structure Sound (terms : V.Terms) : Prop where
  step : ∀ {request task call choice state reply state'},
    terms.invariant state → terms.pre request task call state →
    V.exec request call choice state = some (reply, state') →
      terms.invariant state' ∧ ∀ other, other ≠ request → terms.rely other state state'
  environment : ∀ {event state state'},
    terms.invariant state → V.environment event state = some state' →
      terms.invariant state'
  environment_rely : ∀ {request event state state'},
    V.environment event state = some state' → terms.rely request state state'
  program : ∀ {request task state},
    terms.invariant state → terms.fresh request state → V.accepts task state = true →
      (V.program task).Meets (terms.contract request task) (terms.post request task) state
  post_stable : ∀ {request task outcome state state'},
    terms.post request task outcome state → terms.rely request state state' →
      terms.post request task outcome state'
  fresh_stable : ∀ {request state state'},
    terms.fresh request state → terms.rely request state state' →
      terms.fresh request state'

/-- What holds between any two steps, the requests included. -/
structure Orderly (terms : V.Terms) (config : V.machine.Config) : Prop where
  shared : terms.invariant config.shared.shared
  running : ∀ request, config.thread request ≠ none →
    request < config.shared.requests.length
  fresh : ∀ request, config.shared.requests.length ≤ request →
    terms.fresh request config.shared.shared
  /-- An answer means what it should, and its request has ended. -/
  answered : ∀ answer ∈ config.shared.answers, config.thread answer.1 = none ∧
    ∃ task, config.shared.requests[answer.1]? = some task ∧
      terms.post answer.1 task answer.2 config.shared.shared

/-- The terms of all requests, put together. -/
def discipline (terms : V.Terms) : Discipline V.machine where
  contract := fun request =>
    { rely := fun state state' => terms.rely request state.shared state'.shared ∧
        ∀ task, state.requests[request]? = some task → state'.requests[request]? = some task
      pre := fun call state => ∃ task, state.requests[request]? = some task ∧
        terms.pre request task call state.shared
      exec := fun call state reply state' => terms.invariant state.shared ∧
        ∃ choice, V.machine.exec request call choice state = some (reply, state')
      rely_refl := fun state => ⟨terms.rely_refl request state.shared, fun _ made => made⟩
      rely_trans := fun earlier later => ⟨terms.rely_trans earlier.1 later.1,
        fun task made => later.2 task (earlier.2 task made)⟩ }
  idle := fun _ _ => True
  post := fun request outcome state => ∃ task, state.requests[request]? = some task ∧
    terms.post request task outcome state.shared
  allowed := fun _ _ => True
  invariant := terms.Orderly

variable {terms : V.Terms} {config config' : V.machine.Config}

/-- What a call of the machine does. -/
theorem machine_exec_eq_some
    {request : Nat}
    {call : S.Call}
    {choice : V.Choice}
    {state state' : V.State}
    {reply : S.Reply call}
    (executed : V.machine.exec request call choice state = some (reply, state')) :
    V.exec request call choice state.shared = some (reply, state'.shared) ∧
      state'.requests = state.requests ∧ state'.answers = state.answers := by
  simp only [machine, Option.map_eq_some_iff, Prod.mk.injEq] at executed
  obtain ⟨⟨reply', shared⟩, executed, rfl, rfl⟩ := executed
  exact ⟨executed, rfl, rfl⟩

/-- What an event of the machine does. -/
theorem machine_environment_eq_some
    {event : V.Event}
    {state state' : V.State}
    (happened : V.machine.environment event state = some state') :
    V.environment event state.shared = some state'.shared ∧
      state'.requests = state.requests ∧ state'.answers = state.answers := by
  simp only [machine, Option.map_eq_some_iff] at happened
  obtain ⟨shared, happened, rfl⟩ := happened
  exact ⟨happened, rfl, rfl⟩

/-- How a request begins. -/
structure Begins
    (V : Service S σ)
    (request : Nat)
    (task : V.Task)
    (state state' : V.State) : Prop where
  number : request = state.requests.length
  accepted : V.accepts task state.shared = true
  shared : state'.shared = state.shared
  requests : state'.requests = state.requests ++ [task]
  answers : state'.answers = state.answers

theorem machine_start_eq_some
    {request : Nat}
    {task : V.Task}
    {state state' : V.State}
    {program : Program S V.Outcome}
    (started : V.machine.start request task state = some (program, state')) :
    Begins V request task state state' ∧ program = V.program task := by
  simp only [machine, Option.ite_none_right_eq_some, Option.some.injEq,
    Prod.mk.injEq] at started
  obtain ⟨⟨number, accepted⟩, rfl, rfl⟩ := started
  exact ⟨⟨number, accepted, rfl, rfl, rfl⟩, rfl⟩

theorem Begins.length
    {request : Nat}
    {task : V.Task}
    {state state' : V.State}
    (begins : Begins V request task state state') :
    state'.requests.length = state.requests.length + 1 := by
  simp [begins.requests]

theorem Begins.made
    {request : Nat}
    {task : V.Task}
    {state state' : V.State}
    (begins : Begins V request task state state') :
    state'.requests[request]? = some task := by
  simp [begins.requests, begins.number]

/-- What a program promises of the shared state it promises of the service. -/
theorem meets_of_shared
    {request : Nat}
    {task : V.Task}
    {program : Program S V.Outcome}
    {state : V.State}
    (meets : program.Meets (terms.contract request task) (terms.post request task)
      state.shared)
    (made : state.requests[request]? = some task) :
    program.Meets (terms.discipline.contract request) (terms.discipline.post request)
      state := by
  induction program generalizing state with
  | done outcome =>
      rintro state' ⟨tolerated, requests⟩
      exact ⟨task, requests task made, meets state'.shared tolerated⟩
  | call call next inductionHypothesis =>
      rintro state' ⟨tolerated, requests⟩
      obtain ⟨pre, continues⟩ := meets state'.shared tolerated
      refine ⟨⟨task, requests task made, pre⟩, ?_⟩
      rintro reply state'' ⟨invariant, choice, executed⟩
      obtain ⟨executed, same, _⟩ := machine_exec_eq_some executed
      refine inductionHypothesis reply
        (continues reply state''.shared ⟨invariant, choice, executed⟩) ?_
      rw [same]
      exact requests task made

/-- What was answered before means what it did. -/
theorem Orderly.answered_stable
    (orderly : terms.Orderly config)
    (sound : terms.Sound)
    {answer : Nat × V.Outcome}
    (member : answer ∈ config.shared.answers)
    {state : V.State}
    (tolerated : terms.rely answer.1 config.shared.shared state.shared)
    (requests : config.shared.requests <+: state.requests) :
    ∃ task, state.requests[answer.1]? = some task ∧
      terms.post answer.1 task answer.2 state.shared := by
  obtain ⟨_, task, made, post⟩ := orderly.answered answer member
  obtain ⟨later, extended⟩ := requests
  refine ⟨task, ?_, sound.post_stable post tolerated⟩
  obtain ⟨bound, _⟩ := List.getElem?_eq_some_iff.mp made
  rw [← extended, List.getElem?_append_left bound]
  exact made

/-- A step keeps the requests in order. -/
theorem Orderly.step
    (sound : terms.Sound)
    {label : V.machine.Label}
    (holds : terms.discipline.Holds config)
    (stepped : Machine.Steps _ label config config') :
    terms.Orderly config' := by
  have orderly : terms.Orderly config := holds.invariant
  cases stepped with
  | @act _ request choice call next reply state current executed =>
      obtain ⟨task, made, pre⟩ := holds.pre current
      obtain ⟨executed, requests, answers⟩ := machine_exec_eq_some executed
      obtain ⟨invariant, tolerated⟩ := sound.step orderly.shared pre executed
      have active : request < config.shared.requests.length :=
        orderly.running request (by simp [current])
      refine ⟨invariant, ?_, ?_, ?_⟩
      · intro other busy
        rw [Machine.Config.advance_shared, requests]
        by_cases same : other = request
        · rwa [same]
        · rw [config.advance_thread_other same] at busy
          exact orderly.running other busy
      · intro other unused
        rw [Machine.Config.advance_shared, requests] at unused
        exact sound.fresh_stable (orderly.fresh other unused)
          (tolerated other (by omega))
      · intro answer member
        rw [Machine.Config.advance_shared, answers] at member
        have idle := (orderly.answered answer member).1
        have different : answer.1 ≠ request := by
          intro same
          rw [same, current] at idle
          cases idle
        refine ⟨by rw [config.advance_thread_other different, idle], ?_⟩
        exact orderly.answered_stable sound member (tolerated answer.1 different)
          (requests ▸ List.prefix_refl _)
  | @environment _ event state happened =>
      obtain ⟨happened, requests, answers⟩ := machine_environment_eq_some happened
      refine ⟨sound.environment orderly.shared happened, ?_, ?_, ?_⟩
      · intro request busy
        change request < state.requests.length
        rw [requests]
        exact orderly.running request busy
      · intro request unused
        change state.requests.length ≤ request at unused
        rw [requests] at unused
        exact sound.fresh_stable (orderly.fresh request unused)
          (sound.environment_rely happened)
      · intro answer member
        change answer ∈ state.answers at member
        rw [answers] at member
        exact ⟨(orderly.answered answer member).1,
          orderly.answered_stable sound member (sound.environment_rely happened)
            (requests ▸ List.prefix_refl _)⟩
  | @start _ request task program state current started =>
      obtain ⟨begins, _⟩ := machine_start_eq_some started
      refine ⟨?_, ?_, ?_, ?_⟩
      · rw [Machine.Config.advance_shared, begins.shared]
        exact orderly.shared
      · intro other busy
        rw [Machine.Config.advance_shared, begins.length]
        by_cases same : other = request
        · rw [same, begins.number]
          omega
        · rw [config.advance_thread_other same] at busy
          have := orderly.running other busy
          omega
      · intro other unused
        rw [Machine.Config.advance_shared, begins.length] at unused
        rw [Machine.Config.advance_shared, begins.shared]
        exact orderly.fresh other (by omega)
      · intro answer member
        rw [Machine.Config.advance_shared, begins.answers] at member
        obtain ⟨idle, task', made, _⟩ := orderly.answered answer member
        have earlier := (List.getElem?_eq_some_iff.mp made).1
        have number := begins.number
        refine ⟨?_, ?_⟩
        · rw [config.advance_thread_other (by omega), idle]
        · refine orderly.answered_stable sound member ?_ ?_
          · rw [Machine.Config.advance_shared, begins.shared]
            exact terms.rely_refl _ _
          · rw [Machine.Config.advance_shared, begins.requests]
            exact List.prefix_append _ _
  | @finish _ request outcome current =>
      refine ⟨orderly.shared, ?_, orderly.fresh, ?_⟩
      · intro other busy
        by_cases same : other = request
        · simp [same] at busy
        · rw [config.advance_thread_other same] at busy
          exact orderly.running other busy
      · intro answer member
        change answer ∈ config.shared.answers ++ [@Prod.mk Nat V.Outcome request outcome]
          at member
        rw [List.mem_append, List.mem_singleton] at member
        rcases member with older | rfl
        · obtain ⟨idle, post⟩ := orderly.answered answer older
          have different : answer.1 ≠ request := by
            intro same
            rw [same, current] at idle
            cases idle
          exact ⟨by rw [config.advance_thread_other different, idle], post⟩
        · exact ⟨config.advance_thread_self _ _ _, (holds.meets current).post_of_done⟩
  | @abandon _ request =>
      refine ⟨orderly.shared, ?_, orderly.fresh, ?_⟩
      · intro other busy
        by_cases same : other = request
        · simp [same] at busy
        · rw [config.advance_thread_other same] at busy
          exact orderly.running other busy
      · intro answer member
        obtain ⟨idle, post⟩ := orderly.answered answer member
        refine ⟨?_, post⟩
        by_cases same : answer.1 = request
        · rw [same]
          exact config.advance_thread_self _ _ _
        · rw [config.advance_thread_other same, idle]

/-- Terms that fit together make a sound discipline. -/
theorem Sound.discipline (sound : terms.Sound) : terms.discipline.Sound where
  exec := fun orderly _ _ executed => ⟨orderly.shared, _, executed⟩
  exec_frame := by
    rintro request other call state reply state' ⟨task, _, pre⟩
      ⟨invariant, choice, executed⟩ different
    obtain ⟨executed, requests, _⟩ := machine_exec_eq_some executed
    refine ⟨(sound.step invariant pre executed).2 other different, ?_⟩
    rw [requests]
    exact fun _ made => made
  environment_frame := by
    intro event state state' request happened
    obtain ⟨happened, requests, _⟩ := machine_environment_eq_some happened
    refine ⟨sound.environment_rely happened, ?_⟩
    rw [requests]
    exact fun _ made => made
  idle_stable := fun _ _ => trivial
  start := by
    intro config request task program state' orderly _ started
    obtain ⟨begins, rfl⟩ := machine_start_eq_some started
    refine meets_of_shared ?_ begins.made
    rw [begins.shared]
    exact sound.program orderly.shared
      (orderly.fresh request (Nat.le_of_eq begins.number.symm)) begins.accepted
  start_frame := by
    intro request other task state program state' started different
    obtain ⟨begins, _⟩ := machine_start_eq_some started
    refine ⟨?_, ?_⟩
    · rw [begins.shared]
      exact terms.rely_refl _ _
    · intro task made
      obtain ⟨bound, _⟩ := List.getElem?_eq_some_iff.mp made
      rw [begins.requests, List.getElem?_append_left bound]
      exact made
  finish := fun _ => trivial
  finish_frame := fun _ => ⟨terms.rely_refl _ _, fun _ made => made⟩
  abandon := fun _ => trivial
  abandon_frame := fun _ => ⟨terms.rely_refl _ _, fun _ made => made⟩
  invariant := fun holds _ stepped => Orderly.step sound holds stepped

/-- A service that has just been started. -/
theorem holds_initial
    {shared : σ}
    (invariant : terms.invariant shared)
    (fresh : ∀ request, terms.fresh request shared) :
    terms.discipline.Holds (V.initial shared) where
  invariant :=
    { shared := invariant
      running := fun _ busy => absurd rfl busy
      fresh := fun request _ => fresh request
      answered := fun _ member => nomatch member }
  threads := fun _ => trivial

/-- The terms are kept in every run. -/
theorem Sound.run
    (sound : terms.Sound)
    {labels : List V.machine.Label}
    (holds : terms.discipline.Holds config)
    (runs : V.machine.run labels config = some config') :
    terms.discipline.Holds config' :=
  sound.discipline.run holds
    (Machine.Admits.of_forall labels config fun _ _ => trivial) runs

/-- What every step does to the shared state, a run does. -/
theorem Sound.run_related
    (sound : terms.Sound)
    (related : σ → σ → Prop)
    (refl : ∀ state, related state state)
    (trans : ∀ {first second third}, related first second → related second third →
      related first third)
    (acts : ∀ {request task call choice state reply state'},
      terms.invariant state → terms.pre request task call state →
      V.exec request call choice state = some (reply, state') → related state state')
    (happens : ∀ {event state state'}, V.environment event state = some state' →
      related state state')
    {labels : List V.machine.Label}
    (holds : terms.discipline.Holds config)
    (runs : V.machine.run labels config = some config') :
    related config.shared.shared config'.shared.shared := by
  have admitted : Machine.Admits (fun _ _ => True) labels config :=
    Machine.Admits.of_forall labels config fun _ _ => trivial
  have along := Machine.run_induction
    (motive := fun later => terms.discipline.Holds later ∧
      related config.shared.shared later.shared.shared) ?_ ⟨holds, refl _⟩ admitted runs
  · exact along.2
  · rintro label middle last ⟨holds, before⟩ _ stepped
    refine ⟨sound.discipline.step holds trivial stepped, trans before ?_⟩
    have orderly : terms.Orderly middle := holds.invariant
    cases stepped with
    | act current executed =>
        obtain ⟨task, _, pre⟩ := holds.pre current
        exact acts orderly.shared pre (machine_exec_eq_some executed).1
    | environment happened => exact happens (machine_environment_eq_some happened).1
    | start current started =>
        obtain ⟨begins, _⟩ := machine_start_eq_some started
        rw [Machine.Config.advance_shared, begins.shared]
        exact refl _
    | finish | abandon => exact refl _

/-- A program that has made its last call is not dropped any more. -/
def EndsAnswered (label : V.machine.Label) (config : V.machine.Config) : Prop :=
  ∀ request outcome, label = .abandon request →
    config.thread request ≠ some (.done outcome)

/-- What still holds of a request, unless it has made its last call. -/
def Unfinished
    (still : Nat → V.Task → σ → Prop)
    (config : V.machine.Config) : Prop :=
  ∀ request task, config.shared.requests[request]? = some task →
    still request task config.shared.shared ∨
      (∃ outcome, config.thread request = some (.done outcome)) ∨
      ∃ outcome, (request, outcome) ∈ config.shared.answers

/-- A request that has a call left has what holds before its calls. -/
theorem still_of_call
    {still : Nat → V.Task → σ → Prop}
    (pre : ∀ {request task call state}, terms.pre request task call state →
      still request task state)
    (holds : terms.discipline.Holds config)
    {request : Nat}
    {task : V.Task}
    {call : S.Call}
    {next : S.Reply call → Program S V.Outcome}
    (current : config.thread request = some (.call call next))
    (made : config.shared.requests[request]? = some task) :
    still request task config.shared.shared := by
  obtain ⟨task', made', promised⟩ := holds.pre current
  rw [made, Option.some.injEq] at made'
  rw [made']
  exact pre promised

/-- A step keeps what holds of the requests that have not made their last
call. -/
theorem Unfinished.step
    {still : Nat → V.Task → σ → Prop}
    (sound : terms.Sound)
    (fresh : ∀ {request task state}, terms.fresh request state → still request task state)
    (pre : ∀ {request task call state}, terms.pre request task call state →
      still request task state)
    (stable : ∀ {request task state state'}, still request task state →
      terms.rely request state state' → still request task state')
    {label : V.machine.Label}
    (holds : terms.discipline.Holds config)
    (unfinished : Unfinished still config)
    (ends : EndsAnswered label config)
    (stepped : Machine.Steps _ label config config') :
    Unfinished still config' := by
  have orderly : terms.Orderly config := holds.invariant
  have holds' := sound.discipline.step holds trivial stepped
  intro request task made
  cases current : config'.thread request with
  | some program =>
      cases program with
      | call call next => exact Or.inl (still_of_call pre holds' current made)
      | done outcome => exact Or.inr (Or.inl ⟨outcome, rfl⟩)
  | none =>
      cases stepped with
      | @act _ actor choice call next reply state running executed =>
          have different : request ≠ actor := by
            rintro rfl
            rw [Machine.Config.advance_thread_self] at current
            cases current
          rw [Machine.Config.advance_thread_other _ different] at current
          obtain ⟨_, _, promised⟩ := holds.pre running
          obtain ⟨executed, requests, answers⟩ := machine_exec_eq_some executed
          rw [Machine.Config.advance_shared, requests] at made
          rw [Machine.Config.advance_shared, answers]
          rcases unfinished request task made with kept | ended | answered
          · exact Or.inl (stable kept
              ((sound.step orderly.shared promised executed).2 request different))
          · exact Or.inr (Or.inl (current ▸ ended))
          · exact Or.inr (Or.inr answered)
      | @environment _ event state happened =>
          obtain ⟨happened, requests, answers⟩ := machine_environment_eq_some happened
          change state.requests[request]? = some task at made
          change still request task state.shared ∨ _ ∨
            ∃ outcome, (request, outcome) ∈ state.answers
          rw [requests] at made
          rw [answers]
          rcases unfinished request task made with kept | ended | answered
          · exact Or.inl (stable kept (sound.environment_rely happened))
          · exact Or.inr (Or.inl (current ▸ ended))
          · exact Or.inr (Or.inr answered)
      | @start _ starter begun program state idle started =>
          obtain ⟨begins, _⟩ := machine_start_eq_some started
          have different : request ≠ starter := by
            rintro rfl
            rw [Machine.Config.advance_thread_self] at current
            cases current
          rw [Machine.Config.advance_thread_other _ different] at current
          rw [Machine.Config.advance_shared, begins.shared, begins.answers]
          by_cases bound : request < config.shared.requests.length
          · rw [Machine.Config.advance_shared, begins.requests,
              List.getElem?_append_left bound] at made
            rcases unfinished request task made with kept | ended | answered
            · exact Or.inl kept
            · exact Or.inr (Or.inl (current ▸ ended))
            · exact Or.inr (Or.inr answered)
          · exact Or.inl (fresh (orderly.fresh request (Nat.le_of_not_lt bound)))
      | @finish _ finisher outcome ended =>
          by_cases same : request = finisher
          · rw [same]
            exact Or.inr (Or.inr ⟨outcome,
              List.mem_append_right _ (List.mem_singleton_self _)⟩)
          · rw [Machine.Config.advance_thread_other _ same] at current
            rcases unfinished request task made with kept | ended | ⟨given, answered⟩
            · exact Or.inl kept
            · exact Or.inr (Or.inl (current ▸ ended))
            · exact Or.inr (Or.inr ⟨given, List.mem_append_left _ answered⟩)
      | @abandon _ dropped =>
          rcases unfinished request task made with kept | ⟨outcome, busy⟩ | answered
          · exact Or.inl kept
          · by_cases same : request = dropped
            · rw [same] at busy
              exact absurd busy (ends dropped outcome rfl)
            · rw [Machine.Config.advance_thread_other _ same, busy] at current
              cases current
          · exact Or.inr (Or.inr answered)

/-- What holds of a request before each of its calls holds until it has made the
last of them. -/
theorem Sound.run_unfinished
    (sound : terms.Sound)
    (still : Nat → V.Task → σ → Prop)
    (fresh : ∀ {request task state}, terms.fresh request state → still request task state)
    (pre : ∀ {request task call state}, terms.pre request task call state →
      still request task state)
    (stable : ∀ {request task state state'}, still request task state →
      terms.rely request state state' → still request task state')
    {shared : σ}
    {labels : List V.machine.Label}
    (holds : terms.discipline.Holds (V.initial shared))
    (admitted : Machine.Admits EndsAnswered labels (V.initial shared))
    (runs : V.machine.run labels (V.initial shared) = some config) :
    Unfinished still config := by
  have along := Machine.run_induction
    (motive := fun later => terms.discipline.Holds later ∧ Unfinished still later) ?_
    ⟨holds, fun _ _ made => nomatch made⟩ admitted runs
  · exact along.2
  · rintro label middle last ⟨holds, unfinished⟩ ends stepped
    exact ⟨sound.discipline.step holds trivial stepped,
      unfinished.step sound fresh pre stable holds ends stepped⟩

end Terms

end Service

end Interleaving
