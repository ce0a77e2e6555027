import VaultCrdtServer.Foundation.Program

/-!
# Executions of one program

An execution follows one program from its first call on, whatever happens to
the state between two of its calls, and may stop anywhere.  It lists the calls
that were made.  An assertion about that list is proved along the program, with
`Meets`, and holds of every execution.
-/

namespace Interleaving

/-- A call that has been made, and the states around it. -/
structure Performed (S : Signature) (σ : Type) where
  request : S.Call
  reply : S.Reply request
  before : σ
  after : σ

namespace Program

variable {S : Signature} {σ α : Type}

/-- The program has made the calls of the list and is left with the rest. -/
inductive Follows
    (effect : (request : S.Call) → σ → S.Reply request → σ → Prop)
    (program : Program S α) :
    List (Performed S σ) → Program S α → Prop
  | start : Follows effect program [] program
  | step {made request next before reply after}
      (earlier : Follows effect program made (.call request next))
      (executed : effect request before reply after) :
      Follows effect program (made ++ [⟨request, reply, before, after⟩]) (next reply)

/-- Nothing happens between two calls of the list, from one state to another. -/
def Undisturbed : List (Performed S σ) → σ → σ → Prop
  | [], first, last => first = last
  | performed :: made, first, last =>
      performed.before = first ∧ Undisturbed made performed.after last

/-- The contract of a program whose calls are recorded. -/
def recording
    (effect : (request : S.Call) → σ → S.Reply request → σ → Prop)
    (pre : S.Call → List (Performed S σ) → Prop) :
    Contract S (List (Performed S σ)) where
  rely := Eq
  pre := pre
  exec := fun request made reply made' => ∃ before after,
    effect request before reply after ∧
      made' = made ++ [⟨request, reply, before, after⟩]
  rely_refl := fun _ => rfl
  rely_trans := Eq.trans

variable {effect : (request : S.Call) → σ → S.Reply request → σ → Prop}
variable {pre : S.Call → List (Performed S σ) → Prop}
variable {post : α → List (Performed S σ) → Prop}
variable {program rest : Program S α} {made : List (Performed S σ)}

/-- An execution stays within the contract of its program. -/
theorem Follows.meets
    (follows : program.Follows effect made rest)
    (meets : program.Meets (recording effect pre) post []) :
    rest.Meets (recording effect pre) post made := by
  induction follows with
  | start => exact meets
  | step earlier executed inductionHypothesis =>
      exact inductionHypothesis.next ⟨_, _, executed, rfl⟩

/-- What every call preserves that is made where it is allowed holds of every
execution. -/
theorem Follows.preserves
    {motive : List (Performed S σ) → Prop}
    (follows : program.Follows effect made rest)
    (meets : program.Meets (recording effect pre) post [])
    (initial : motive [])
    (preserved : ∀ made request reply before after, motive made → pre request made →
      effect request before reply after →
        motive (made ++ [⟨request, reply, before, after⟩])) :
    motive made := by
  induction follows with
  | start => exact initial
  | step earlier executed inductionHypothesis =>
      exact preserved _ _ _ _ _ inductionHypothesis (earlier.meets meets).pre executed

/-- An execution may start one call earlier. -/
theorem Follows.cons
    {request : S.Call}
    {next : S.Reply request → Program S α}
    {reply : S.Reply request}
    {before after : σ}
    (executed : effect request before reply after)
    (follows : (next reply).Follows effect made rest) :
    (Program.call request next).Follows effect
      (⟨request, reply, before, after⟩ :: made) rest := by
  induction follows with
  | start => exact .step .start executed
  | step earlier executed' inductionHypothesis =>
      exact .step inductionHypothesis executed'

/-- Make all calls of a program, unless one of them blocks. -/
def trace
    (serve : (request : S.Call) → σ → Option (S.Reply request × σ)) :
    Program S α → σ → Option (List (Performed S σ) × α)
  | .done value, _ => some ([], value)
  | .call request next, state =>
      (serve request state).bind fun result =>
        ((next result.1).trace serve result.2).map fun traced =>
          (⟨request, result.1, state, result.2⟩ :: traced.1, traced.2)

/-- A traced program is executed to its end. -/
theorem follows_of_trace
    {serve : (request : S.Call) → σ → Option (S.Reply request × σ)}
    (served : ∀ request state reply state', serve request state = some (reply, state') →
      effect request state reply state')
    {state : σ}
    {value : α}
    (traced : program.trace serve state = some (made, value)) :
    program.Follows effect made (.done value) := by
  induction program generalizing state made with
  | done value' =>
      simp only [trace, Option.some.injEq, Prod.mk.injEq] at traced
      obtain ⟨rfl, rfl⟩ := traced
      exact .start
  | call request next inductionHypothesis =>
      simp only [trace, Option.bind_eq_some_iff, Option.map_eq_some_iff, Prod.mk.injEq,
        Prod.exists] at traced
      obtain ⟨reply, state', replied, made', value', traced', rfl, rfl⟩ := traced
      exact (inductionHypothesis reply traced').cons (served request state reply state' replied)

/-- Calls that keep a view of the state keep it from the first to the last. -/
theorem Undisturbed.view_eq
    {ν : Type}
    (view : σ → ν)
    {first last : σ}
    (undisturbed : Undisturbed made first last)
    (kept : ∀ performed ∈ made, view performed.after = view performed.before) :
    view last = view first := by
  induction made generalizing first with
  | nil => rw [show first = last from undisturbed]
  | cons performed made inductionHypothesis =>
      obtain ⟨rfl, undisturbed⟩ := undisturbed
      rw [inductionHypothesis undisturbed fun other member =>
        kept other (List.mem_cons_of_mem _ member)]
      exact kept performed (List.mem_cons_self ..)

end Program

end Interleaving
