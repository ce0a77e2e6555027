import VaultCrdtServer.Foundation.Interleaving

/-!
# The calls a program makes

`Program.Only` bounds the calls a program makes, whatever they reply.  A program
whose calls all keep an assertion stays within its contract without further
ado.
-/

namespace Interleaving

namespace Program

variable {S : Signature} {σ α β : Type}

/-- Every call of the program satisfies a predicate. -/
def Only (permitted : S.Call → Prop) : Program S α → Prop
  | .done _ => True
  | .call request next => permitted request ∧ ∀ reply, (next reply).Only permitted

variable {permitted : S.Call → Prop}

@[simp] theorem only_done (value : α) :
    (Program.done value : Program S α).Only permitted ↔ True := Iff.rfl

@[simp] theorem only_call (request : S.Call) (next : S.Reply request → Program S α) :
    (Program.call request next).Only permitted ↔
      permitted request ∧ ∀ reply, (next reply).Only permitted := Iff.rfl

@[simp] theorem only_perform (request : S.Call) :
    (Program.perform request).Only permitted ↔ permitted request := by
  simp [Program.perform]

/-- Sequential composition. -/
theorem Only.bind
    {program : Program S α}
    {rest : α → Program S β}
    (first : program.Only permitted)
    (second : ∀ value, (rest value).Only permitted) :
    (program.bind rest).Only permitted := by
  induction program with
  | done value => exact second value
  | call request next inductionHypothesis =>
      exact ⟨first.1, fun reply => inductionHypothesis reply (first.2 reply)⟩

/-- Sequential composition of programs that may fail. -/
theorem Only.bind_fallible
    {ε : Type}
    {failing : ExceptT ε (Program S) α}
    {continuation : α → ExceptT ε (Program S) β}
    (first : failing.run.Only permitted)
    (second : ∀ value, (continuation value).run.Only permitted) :
    (failing >>= continuation).run.Only permitted := by
  rw [run_bind_fallible]
  refine first.bind ?_
  intro result
  cases result with
  | ok value => exact second value
  | error error => trivial

/-- A bound may be weakened. -/
theorem Only.mono
    {permitted' : S.Call → Prop}
    {program : Program S α}
    (only : program.Only permitted)
    (weaker : ∀ request, permitted request → permitted' request) :
    program.Only permitted' := by
  induction program with
  | done value => trivial
  | call request next inductionHypothesis =>
      exact ⟨weaker request only.1, fun reply => inductionHypothesis reply (only.2 reply)⟩

/-- A program whose calls keep an assertion, and may be made where it holds,
stays within its contract and ends with the assertion. -/
theorem Only.meets
    {contract : Contract S σ}
    {program : Program S α}
    (only : program.Only permitted)
    (assertion : σ → Prop)
    (tolerates : ∀ state state', assertion state → contract.rely state state' →
      assertion state')
    (pre : ∀ request state, permitted request → assertion state →
      contract.pre request state)
    (keeps : ∀ request state reply state', permitted request → assertion state →
      contract.exec request state reply state' → assertion state')
    {state : σ}
    (initial : assertion state) :
    program.Meets contract (fun _ => assertion) state := by
  induction program generalizing state with
  | done value =>
      intro later tolerated
      exact tolerates state later initial tolerated
  | call request next inductionHypothesis =>
      intro state' tolerated
      have here := tolerates state state' initial tolerated
      refine ⟨pre request state' only.1 here, ?_⟩
      intro reply state'' effect
      exact inductionHypothesis reply (only.2 reply)
        (keeps request state' reply state'' only.1 here effect)

/-- What interference and every call keep holds besides, whatever the program
does. -/
theorem Meets.keeps
    {contract : Contract S σ}
    {post : α → σ → Prop}
    {program : Program S α}
    {state : σ}
    (meets : program.Meets contract post state)
    (assertion : σ → Prop)
    (tolerates : ∀ state state', assertion state → contract.rely state state' →
      assertion state')
    (keeps : ∀ request state reply state', assertion state →
      contract.exec request state reply state' → assertion state')
    (initial : assertion state) :
    program.Meets contract (fun value state => post value state ∧ assertion state) state := by
  induction program generalizing state with
  | done value =>
      intro later tolerated
      exact ⟨meets later tolerated, tolerates state later initial tolerated⟩
  | call request next inductionHypothesis =>
      intro state' tolerated
      obtain ⟨pre, continues⟩ := meets state' tolerated
      refine ⟨pre, ?_⟩
      intro reply state'' effect
      exact inductionHypothesis reply (continues reply state'' effect)
        (keeps request state' reply state'' (tolerates state state' initial tolerated) effect)

/-- Whatever its calls reply, the program ends with a value of a kind. -/
def Finally (final : α → Prop) : Program S α → Prop
  | .done value => final value
  | .call _ next => ∀ reply, (next reply).Finally final

@[simp] theorem finally_done (final : α → Prop) (value : α) :
    (Program.done value : Program S α).Finally final ↔ final value := Iff.rfl

@[simp] theorem finally_call
    (final : α → Prop)
    (request : S.Call)
    (next : S.Reply request → Program S α) :
    (Program.call request next).Finally final ↔ ∀ reply, (next reply).Finally final :=
  Iff.rfl

/-- Sequential composition. -/
theorem Finally.bind
    {middle : α → Prop}
    {final : β → Prop}
    {program : Program S α}
    {rest : α → Program S β}
    (first : program.Finally middle)
    (second : ∀ value, middle value → (rest value).Finally final) :
    (program.bind rest).Finally final := by
  induction program with
  | done value => exact second value first
  | call request next inductionHypothesis =>
      exact fun reply => inductionHypothesis reply (first reply)

/-- A program ends with some value. -/
theorem Finally.anything (program : Program S α) : program.Finally fun _ => True := by
  induction program with
  | done value => trivial
  | call request next inductionHypothesis => exact fun reply => inductionHypothesis reply

/-- Sequential composition of programs that may fail. -/
theorem Finally.bind_fallible
    {ε : Type}
    {final : Except ε β → Prop}
    {failing : ExceptT ε (Program S) α}
    {continuation : α → ExceptT ε (Program S) β}
    (errors : ∀ error, final (.error error))
    (second : ∀ value, (continuation value).run.Finally final) :
    (failing >>= continuation).run.Finally final := by
  rw [run_bind_fallible]
  refine (Finally.anything failing.run).bind ?_
  intro result _
  cases result with
  | ok value => exact second value
  | error error => exact errors error

/-- What a program ends with is known besides. -/
theorem Meets.finally
    {contract : Contract S σ}
    {post : α → σ → Prop}
    {final : α → Prop}
    {program : Program S α}
    {state : σ}
    (meets : program.Meets contract post state)
    (ends : program.Finally final) :
    program.Meets contract (fun value state => post value state ∧ final value) state := by
  induction program generalizing state with
  | done value => exact fun later tolerated => ⟨meets later tolerated, ends⟩
  | call request next inductionHypothesis =>
      intro state' tolerated
      obtain ⟨pre, continues⟩ := meets state' tolerated
      refine ⟨pre, ?_⟩
      intro reply state'' effect
      exact inductionHypothesis reply (continues reply state'' effect) (ends reply)

end Program

namespace Machine

variable {S : Signature} {σ : Type} {M : Machine S σ}

/-- Every thread's program makes only permitted calls. -/
def Config.Only (permitted : S.Call → Prop) (config : M.Config) : Prop :=
  ∀ thread program, config.thread thread = some program → program.Only permitted

/-- Where every program that starts makes only permitted calls, so does every
thread at every step. -/
theorem Config.Only.step
    {permitted : S.Call → Prop}
    {label : M.Label}
    {config config' : M.Config}
    (only : config.Only permitted)
    (starts : ∀ thread task state program state',
      M.start thread task state = some (program, state') → program.Only permitted)
    (stepped : Steps M label config config') :
    config'.Only permitted := by
  have advances : ∀ {config : M.Config} {thread rest shared}, config.Only permitted →
      (∀ program, rest = some program → program.Only permitted) →
      (config.advance thread rest shared).Only permitted := by
    intro config thread rest shared only permits other program current
    by_cases same : other = thread
    · subst same
      rw [config.advance_thread_self] at current
      exact permits program current
    · rw [config.advance_thread_other same] at current
      exact only other program current
  cases stepped with
  | @act _ thread _ request next reply _ current effect =>
      refine advances only ?_
      intro program rest
      obtain rfl := Option.some.inj rest
      exact (only thread _ current).2 reply
  | environment effect => exact only
  | start current effect =>
      refine advances only ?_
      intro program rest
      obtain rfl := Option.some.inj rest
      exact starts _ _ _ _ _ effect
  | finish current => exact advances only fun _ rest => nomatch rest
  | abandon => exact advances only fun _ rest => nomatch rest

end Machine

end Interleaving
