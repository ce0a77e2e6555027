import VaultCrdtServer.Foundation.Footprint

/-!
# Transcripts

A program keeps a transcript of the replies it has had.  `Program.Accounts` says
of every call of a program, and of the value it ends with, how they depend on the
transcript.
-/

namespace Interleaving

namespace Program

variable {S : Signature} {Entry α β ε : Type}

/-- With the transcript so far every call is permitted, and the value at the end
is accounted for. -/
def Accounts
    (record : (request : S.Call) → S.Reply request → List Entry)
    (permitted : S.Call → List Entry → Prop)
    (post : α → List Entry → Prop) :
    Program S α → List Entry → Prop
  | .done value, transcript => post value transcript
  | .call request next, transcript =>
      permitted request transcript ∧
        ∀ reply, (next reply).Accounts record permitted post
          (transcript ++ record request reply)

variable {record : (request : S.Call) → S.Reply request → List Entry}
variable {permitted : S.Call → List Entry → Prop} {post : α → List Entry → Prop}
variable {transcript : List Entry}

/-- A program whose calls are permitted in any case. -/
theorem Accounts.of_only
    {program : Program S α}
    (only : program.Only fun request => ∀ transcript, permitted request transcript)
    (values : ∀ value transcript, post value transcript)
    (transcript : List Entry) :
    program.Accounts record permitted post transcript := by
  induction program generalizing transcript with
  | done value => exact values value transcript
  | call request next inductionHypothesis =>
      exact ⟨only.1 transcript, fun reply => inductionHypothesis reply (only.2 reply) _⟩

/-- A program that may make any call and end with any value. -/
theorem Accounts.of_forall
    (program : Program S α)
    (permits : ∀ request transcript, permitted request transcript)
    (values : ∀ value transcript, post value transcript)
    (transcript : List Entry) :
    program.Accounts record permitted post transcript := by
  induction program generalizing transcript with
  | done value => exact values value transcript
  | call request next inductionHypothesis =>
      exact ⟨permits request transcript, fun reply => inductionHypothesis reply _⟩

/-- What accounts for more accounts for less. -/
theorem Accounts.imp
    {post' : α → List Entry → Prop}
    {program : Program S α}
    (accounts : program.Accounts record permitted post transcript)
    (weaker : ∀ value transcript, post value transcript → post' value transcript) :
    program.Accounts record permitted post' transcript := by
  induction program generalizing transcript with
  | done value => exact weaker value transcript accounts
  | call request next inductionHypothesis =>
      exact ⟨accounts.1, fun reply => inductionHypothesis reply (accounts.2 reply)⟩

/-- Sequential composition. -/
theorem Accounts.bind
    {post : β → List Entry → Prop}
    {program : Program S α}
    {rest : α → Program S β}
    (first : program.Accounts record permitted
      (fun value transcript => (rest value).Accounts record permitted post transcript)
      transcript) :
    (program.bind rest).Accounts record permitted post transcript := by
  induction program generalizing transcript with
  | done value => exact first
  | call request next inductionHypothesis =>
      exact ⟨first.1, fun reply => inductionHypothesis reply (first.2 reply)⟩

/-- Sequential composition of programs that may fail. -/
theorem Accounts.bind_fallible
    {post : Except ε β → List Entry → Prop}
    {failing : ExceptT ε (Program S) α}
    {continuation : α → ExceptT ε (Program S) β}
    (first : failing.run.Accounts record permitted
      (fun result transcript =>
        match result with
        | .ok value => (continuation value).run.Accounts record permitted post transcript
        | .error error => post (.error error) transcript)
      transcript) :
    (failing >>= continuation).run.Accounts record permitted post transcript := by
  rw [run_bind_fallible]
  refine (first.imp ?_).bind
  intro result transcript reached
  cases result with
  | ok value => exact reached
  | error error => exact reached

end Program

end Interleaving
