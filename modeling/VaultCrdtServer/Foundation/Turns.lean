import VaultCrdtServer.Foundation.Interleaving

/-!
# Threads that take turns

A thread that starts only when all others are idle runs alone until it ends.
-/

namespace Interleaving

namespace Machine

variable {S : Signature} {σ : Type} {M : Machine S σ}

/-- At most one thread is active. -/
def Config.Solitary (config : M.Config) : Prop :=
  ∀ thread other, config.thread thread ≠ none → config.thread other ≠ none → thread = other

variable {config config' : M.Config}

/-- While a thread is active the others are idle. -/
theorem Config.Solitary.idle
    {thread other : Nat}
    {program : Program S M.Outcome}
    (solitary : config.Solitary)
    (current : config.thread thread = some program)
    (different : other ≠ thread) :
    config.thread other = none := by
  by_contra active
  exact different (solitary other thread active (by simp [current]))

/-- Nobody else has become active where one thread is advanced. -/
theorem Config.Solitary.advance
    {thread : Nat}
    {rest : Option (Program S M.Outcome)}
    {shared : σ}
    (idle : ∀ other, other ≠ thread → config.thread other = none) :
    (config.advance thread rest shared).Solitary := by
  have only : ∀ other, (config.advance thread rest shared).thread other ≠ none →
      other = thread := by
    intro other active
    by_contra different
    exact active ((config.advance_thread_other different rest shared).trans
      (idle other different))
  intro first second active active'
  rw [only first active, only second active']

/-- Threads that start while all others are idle take turns. -/
theorem Config.Solitary.step
    {label : M.Label}
    (solitary : config.Solitary)
    (waits : ∀ thread task, label = .start thread task →
      ∀ other, other ≠ thread → config.thread other = none)
    (stepped : Steps M label config config') :
    config'.Solitary := by
  have leaves : ∀ thread shared, (config.advance thread none shared).Solitary := by
    intro thread shared first second active active'
    have still : ∀ other, (config.advance thread none shared).thread other ≠ none →
        config.thread other ≠ none := by
      intro other active
      by_cases same : other = thread
      · rw [same, config.advance_thread_self] at active
        exact absurd rfl active
      · rwa [config.advance_thread_other same] at active
    exact solitary first second (still first active) (still second active')
  cases stepped with
  | act current effect => exact .advance fun other => solitary.idle current
  | environment effect => exact solitary
  | start current effect => exact .advance (waits _ _ rfl)
  | finish current => exact leaves _ _
  | abandon => exact leaves _ _

end Machine

end Interleaving
