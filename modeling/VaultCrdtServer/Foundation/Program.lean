import Mathlib.Logic.Basic

/-!
# Programs of atomic calls

A program is a finite tree of atomic calls: it has finished with a value, or it
makes one call and continues with whatever the call replies.  The calls are
first-order data, so that a schedule of several programs can name them, and
their meaning is supplied separately.

`Program.run` executes a program alone, with a total meaning for every call.
`Program.Meets` is the assertion for a program that shares its state with
others: between any two of its calls the state may move along a relation the
program must tolerate, and before each call a precondition has to hold.
-/

namespace Interleaving

/-- The atomic calls a program may make and the type of each call's reply. -/
structure Signature where
  /-- Atomic calls, with their arguments. -/
  Call : Type
  /-- The reply a call returns. -/
  Reply : Call → Type

/-- A finished program, or one call with a continuation for every reply. -/
inductive Program (S : Signature) (α : Type) : Type
  | done (value : α)
  | call (request : S.Call) (next : S.Reply request → Program S α)

namespace Program

variable {S : Signature} {α β γ : Type}

/-- A condition holds of the call that comes next, if there is one. -/
def NextCall (condition : S.Call → Prop) : Option (Program S α) → Prop
  | some (.call request _) => condition request
  | _ => True

instance (condition : S.Call → Prop) [DecidablePred condition] :
    DecidablePred (NextCall (α := α) condition)
  | some (.call request _) => inferInstanceAs (Decidable (condition request))
  | some (.done _) => isTrue trivial
  | none => isTrue trivial

/-- Sequential composition. -/
def bind : Program S α → (α → Program S β) → Program S β
  | .done value, rest => rest value
  | .call request next, rest =>
      .call request fun reply => (next reply).bind rest

instance : Monad (Program S) where
  pure := .done
  bind := bind

@[simp] theorem done_bind (value : α) (rest : α → Program S β) :
    (Program.done value : Program S α).bind rest = rest value := rfl

@[simp] theorem call_bind
    (request : S.Call)
    (next : S.Reply request → Program S α)
    (rest : α → Program S β) :
    (Program.call request next).bind rest =
      .call request fun reply => (next reply).bind rest := rfl

@[simp] theorem bind_eq_bind (program : Program S α) (rest : α → Program S β) :
    program >>= rest = program.bind rest := rfl

@[simp] theorem pure_eq_done (value : α) :
    (pure value : Program S α) = .done value := rfl

instance : LawfulMonad (Program S) :=
  LawfulMonad.mk' (Program S)
    (fun program => by
      induction program with
      | done value => rfl
      | call request next inductionHypothesis =>
          exact congrArg (Program.call request) (funext inductionHypothesis))
    (fun _ _ => rfl)
    (fun program _ _ => by
      induction program with
      | done value => rfl
      | call request next inductionHypothesis =>
          exact congrArg (Program.call request) (funext inductionHypothesis))

/-- The program that makes one call and returns its reply. -/
def perform (request : S.Call) : Program S (S.Reply request) :=
  .call request .done

/-- Execute a program alone, with a total meaning for its calls. -/
def run {σ : Type}
    (serve : (request : S.Call) → σ → S.Reply request × σ) :
    Program S α → σ → α × σ
  | .done value, state => (value, state)
  | .call request next, state =>
      (next (serve request state).1).run serve (serve request state).2

section Run

variable {σ : Type} (serve : (request : S.Call) → σ → S.Reply request × σ)

@[simp] theorem run_done (value : α) (state : σ) :
    (Program.done value : Program S α).run serve state = (value, state) := rfl

@[simp] theorem run_call
    (request : S.Call)
    (next : S.Reply request → Program S α)
    (state : σ) :
    (Program.call request next).run serve state =
      (next (serve request state).1).run serve (serve request state).2 := rfl

@[simp] theorem run_perform (request : S.Call) (state : σ) :
    (perform request).run serve state = serve request state := rfl

@[simp] theorem run_bind
    (program : Program S α)
    (rest : α → Program S β)
    (state : σ) :
    (program.bind rest).run serve state =
      (rest (program.run serve state).1).run serve
        (program.run serve state).2 := by
  induction program generalizing state with
  | done value => rfl
  | call request next inductionHypothesis =>
      exact inductionHypothesis _ _

end Run

end Program

/-- What a program running among others assumes and promises.  `rely` bounds
what the others may do between two of its calls, `pre` is what holds whenever
it makes a call, and `exec` is the effect of a call. -/
structure Contract (S : Signature) (σ : Type) where
  /-- Interference tolerated between two calls. -/
  rely : σ → σ → Prop
  /-- Precondition of each call. -/
  pre : S.Call → σ → Prop
  /-- Effect of each call. -/
  exec : (request : S.Call) → σ → S.Reply request → σ → Prop
  /-- Standing still is tolerated. -/
  rely_refl : ∀ state, rely state state
  /-- Interference accumulates. -/
  rely_trans : ∀ {first second third},
    rely first second → rely second third → rely first third

namespace Program

variable {S : Signature} {σ α β : Type}

/-- From `state` on, under the interference of the contract, every call of the
program is made in a state that satisfies the call's precondition, and a
finished program satisfies `post`. -/
def Meets (contract : Contract S σ) (post : α → σ → Prop) :
    Program S α → σ → Prop
  | .done value, state =>
      ∀ state', contract.rely state state' → post value state'
  | .call request next, state =>
      ∀ state', contract.rely state state' →
        contract.pre request state' ∧
          ∀ reply state'', contract.exec request state' reply state'' →
            (next reply).Meets contract post state''

variable {contract : Contract S σ} {post : α → σ → Prop}

/-- Interference does not invalidate the assertion. -/
theorem Meets.stable
    {program : Program S α}
    {state state' : σ}
    (meets : program.Meets contract post state)
    (interference : contract.rely state state') :
    program.Meets contract post state' := by
  cases program with
  | done value =>
      intro later tolerated
      exact meets later (contract.rely_trans interference tolerated)
  | call request next =>
      intro later tolerated
      exact meets later (contract.rely_trans interference tolerated)

/-- The precondition of a program's next call. -/
theorem Meets.pre
    {request : S.Call}
    {next : S.Reply request → Program S α}
    {state : σ}
    (meets : (Program.call request next).Meets contract post state) :
    contract.pre request state :=
  (meets state (contract.rely_refl state)).1

/-- The assertion follows the program through its next call. -/
theorem Meets.next
    {request : S.Call}
    {next : S.Reply request → Program S α}
    {state state' : σ}
    {reply : S.Reply request}
    (meets : (Program.call request next).Meets contract post state)
    (effect : contract.exec request state reply state') :
    (next reply).Meets contract post state' :=
  (meets state (contract.rely_refl state)).2 reply state' effect

/-- A finished program satisfies its postcondition. -/
theorem Meets.post_of_done
    {value : α}
    {state : σ}
    (meets : (Program.done value).Meets contract post state) :
    post value state :=
  meets state (contract.rely_refl state)

/-- Sequential composition: the second program starts where the first has
ended, and what the first established stays true. -/
theorem Meets.bind
    (middle : α → σ → Prop)
    {post : β → σ → Prop}
    {program : Program S α}
    {rest : α → Program S β}
    {state : σ}
    (first : program.Meets contract middle state)
    (second : ∀ value state',
      (Program.done value : Program S α).Meets contract middle state' →
        (rest value).Meets contract post state') :
    (program.bind rest).Meets contract post state := by
  induction program generalizing state with
  | done value =>
      exact second value state first
  | call request next inductionHypothesis =>
      intro state' tolerated
      obtain ⟨holds, continues⟩ := first state' tolerated
      refine ⟨holds, ?_⟩
      intro reply state'' effect
      exact inductionHypothesis reply (continues reply state'' effect)

/-- A single call, with interference before and after it. -/
theorem Meets.perform
    {request : S.Call}
    {post : S.Reply request → σ → Prop}
    {state : σ}
    (before : ∀ state', contract.rely state state' →
      contract.pre request state')
    (after : ∀ state' reply state'' later, contract.rely state state' →
      contract.exec request state' reply state'' →
      contract.rely state'' later → post reply later) :
    (Program.perform request).Meets contract post state := by
  intro state' tolerated
  refine ⟨before state' tolerated, ?_⟩
  intro reply state'' effect later interference
  exact after state' reply state'' later tolerated effect interference

/-- A postcondition may be weakened. -/
theorem Meets.weaken
    {weaker : α → σ → Prop}
    {program : Program S α}
    {state : σ}
    (meets : program.Meets contract post state)
    (implies : ∀ value state', post value state' → weaker value state') :
    program.Meets contract weaker state := by
  induction program generalizing state with
  | done value =>
      intro state' tolerated
      exact implies value state' (meets state' tolerated)
  | call request next inductionHypothesis =>
      intro state' tolerated
      obtain ⟨holds, continues⟩ := meets state' tolerated
      refine ⟨holds, ?_⟩
      intro reply state'' effect
      exact inductionHypothesis reply (continues reply state'' effect)

/-! ## Programs that may fail

`ExceptT` on top of a program ends with an error or a value. -/

section Fallible

variable {ε : Type} {failing : ExceptT ε (Program S) α}
variable {continuation : α → ExceptT ε (Program S) β}
variable {outcome : Except ε β → σ → Prop} {state : σ}

@[simp] theorem run_bind_fallible :
    (failing >>= continuation).run =
      failing.run.bind fun result =>
        match result with
        | .ok value => (continuation value).run
        | .error error => .done (.error error) := by
  change failing.run.bind _ = _
  congr 1
  funext result
  cases result <;> rfl

@[simp] theorem run_pure_fallible (value : α) :
    (pure value : ExceptT ε (Program S) α).run = .done (.ok value) := rfl

/-- The result is a value from which one goes on, or an error with which the
whole program ends. -/
def Reaches
    (middle : α → σ → Prop)
    (outcome : Except ε β → σ → Prop) : Except ε α → σ → Prop
  | .ok value, state => middle value state
  | .error error, state => outcome (.error error) state

/-- Sequential composition of programs that may fail. -/
theorem Meets.bind_fallible
    (middle : α → σ → Prop)
    (first : failing.run.Meets contract (Reaches middle outcome) state)
    (second : ∀ value state', middle value state' →
      (continuation value).run.Meets contract outcome state') :
    (failing >>= continuation).run.Meets contract outcome state := by
  rw [run_bind_fallible]
  apply Meets.bind _ first
  intro result state' ended
  cases result with
  | error error =>
      intro later tolerated
      exact ended later tolerated
  | ok value =>
      exact second value state' ended.post_of_done

end Fallible

end Program

end Interleaving
