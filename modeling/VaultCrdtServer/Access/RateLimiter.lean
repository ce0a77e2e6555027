import VaultCrdtServer.Foundation.FixedWindow
import Mathlib.Data.List.Infix

/-!
# Rate limiting

`src/auth.rs`: authentication requests are limited by key, whichever vault they
name.
-/

namespace VaultCrdtServer

open FixedWindow

/-- `AUTH_REQUEST_LIMIT` -/
def authRequestLimit : Nat := 10

/-- `AUTH_WINDOW_SECS` -/
def authWindowSecs : Nat := 60

/-- `AUTH_MAX_KEYS` -/
def authMaxKeys : Nat := 65536

/-- `AuthRateLimiter`: when the window of a key began, and the requests in it. -/
abbrev AuthRateLimiter := Table String Window

/-- `AuthRateLimiter::check` -/
def AuthRateLimiter.check
    (windows : AuthRateLimiter)
    (key : String)
    (nowSecs : Nat) : Bool × AuthRateLimiter :=
  let windows := windows.deleteWhere fun _ window =>
    !decide (nowSecs - window.start < authWindowSecs)
  if authMaxKeys ≤ windows.entries.length && !decide (key ∈ windows) then
    (false, windows)
  else
    let window := (windows.lookup key).getD ⟨nowSecs, 0⟩
    let windows := windows.insert key window
    if authRequestLimit ≤ window.count then
      (false, windows)
    else
      (true, windows.insert key { window with count := window.count + 1 })

/-- The calls of a limiter, one after the other, with their answers. -/
def AuthRateLimiter.checks
    (calls : List (String × Nat)) : List ((String × Nat) × Bool) × AuthRateLimiter :=
  run (fun windows call => AuthRateLimiter.check windows call.1 call.2) ∅ calls

def authLimits : Limits := ⟨authRequestLimit, authWindowSecs, authMaxKeys⟩

/-- The limiter is a fixed-window limiter. -/
theorem AuthRateLimiter.check_eq (windows : AuthRateLimiter) (call : String × Nat) :
    AuthRateLimiter.check windows call.1 call.2 = FixedWindow.check authLimits windows call := by
  have kept : ((evict authLimits call.2 windows).lookup call.1).filter
      (Window.live authLimits call.2) = (evict authLimits call.2 windows).lookup call.1 := by
    rw [lookup_evict, filter_live (Nat.le_refl call.2)]
  have evicted : (windows.deleteWhere fun _ window =>
      !decide (call.2 - window.start < authWindowSecs)) = evict authLimits call.2 windows := rfl
  unfold AuthRateLimiter.check FixedWindow.check grant
  dsimp only
  rw [kept, evicted]
  simp only [Bool.and_eq_true, decide_eq_true_eq, Bool.not_eq_true', decide_eq_false_iff_not]
  refine if_congr Iff.rfl rfl ?_
  have limit : authLimits.requests = authRequestLimit := rfl
  by_cases spent : authRequestLimit ≤
      (((evict authLimits call.2 windows).lookup call.1).getD ⟨call.2, 0⟩).count
  · rw [if_pos spent, limit, if_pos spent]
  · rw [if_neg spent, AList.insert_insert, limit, if_neg spent]

theorem AuthRateLimiter.checks_eq (calls : List (String × Nat)) :
    AuthRateLimiter.checks calls = run (FixedWindow.check authLimits) ∅ calls := by
  unfold AuthRateLimiter.checks
  exact congrArg (fun respond => run respond ∅ calls)
    (funext fun windows => funext fun call => AuthRateLimiter.check_eq windows call)

theorem authLimits_lasting : 0 < authLimits.duration := by decide

/-- How many keys are tracked. -/
theorem AuthRateLimiter.length_checks_le (calls : List (String × Nat)) :
    (AuthRateLimiter.checks calls).2.entries.length ≤ authMaxKeys := by
  rw [AuthRateLimiter.checks_eq]
  have preserves : ∀ (windows : AuthRateLimiter) (call : String × Nat),
      windows.entries.length ≤ authMaxKeys →
      (FixedWindow.check authLimits windows call).2.entries.length ≤ authMaxKeys :=
    fun windows call fits => length_check_le fits call
  have initial : (∅ : AuthRateLimiter).entries.length ≤ authMaxKeys := Nat.zero_le _
  exact run_preserves preserves initial calls

/-- What the limiter accepts, refuses and tracks. -/
theorem auth_rate_limited
    (calls : List (String × Nat))
    (ordered : (calls.map Prod.snd).Pairwise (· ≤ ·)) :
    (∀ front, front <+: calls →
      (AuthRateLimiter.checks front).2.entries.length ≤ authMaxKeys) ∧
    ∀ key,
      (∃ spans, Splits authLimits spans (accepted key (AuthRateLimiter.checks calls).1)) ∧
      (∀ start, ((accepted key (AuthRateLimiter.checks calls).1).filter fun time =>
        start ≤ time ∧ time < start + authWindowSecs).length ≤ 20) ∧
      ((∀ front call, front ++ [call] <+: calls →
          (AuthRateLimiter.checks front).2.entries.length < authMaxKeys) →
        answersTo key (AuthRateLimiter.checks calls).1 =
          (AuthRateLimiter.checks (calls.filter fun call => decide (call.1 = key))).1) := by
  refine ⟨fun front _ => AuthRateLimiter.length_checks_le front, ?_⟩
  intro key
  obtain ⟨spans, splits⟩ := accepted_splits ordered authLimits_lasting key
  rw [← AuthRateLimiter.checks_eq] at splits
  refine ⟨⟨spans, splits⟩, splits.length_period_le, ?_⟩
  intro space
  have roomy : Roomy authLimits ∅ calls := by
    intro front call begins
    rw [← AuthRateLimiter.checks_eq]
    exact space front call begins
  rw [AuthRateLimiter.checks_eq, AuthRateLimiter.checks_eq]
  exact answersTo_run ordered roomy key

/-- A window of a key that is used up, with another key beside it. -/
theorem auth_rate_limited_spent :
    answersTo "a" (AuthRateLimiter.checks
        (List.replicate 11 ("a", 100) ++ [("b", 100), ("a", 159), ("a", 160)])).1 =
      (AuthRateLimiter.checks
        (List.replicate 11 ("a", 100) ++ [("a", 159), ("a", 160)])).1 := by
  have bounded := auth_rate_limited
    (List.replicate 11 ("a", 100) ++ [("b", 100), ("a", 159), ("a", 160)]) (by decide)
  refine (bounded.2 "a").2.2 ?_
  intro front call begins
  have few : ∀ front ∈ (List.replicate 11 ("a", 100) ++
      [("b", 100), ("a", 159), ("a", 160)]).inits,
      (AuthRateLimiter.checks front).2.entries.length < authMaxKeys := by
    decide +kernel
  exact few front ((List.mem_inits ..).mpr ((List.prefix_append ..).trans begins))

end VaultCrdtServer
