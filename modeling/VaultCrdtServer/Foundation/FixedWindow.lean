import VaultCrdtServer.Foundation.Table

/-!
# Fixed-window rate limiting

Calls carry a key and a time.  The first call of a key opens a window; calls are
counted until the window is full, and refused until it has passed.  Windows that
have passed are forgotten at every call, and no more than a fixed number of keys
is tracked.
-/

namespace FixedWindow

/-- The limits of a limiter. -/
structure Limits where
  /-- How many calls of a key a window takes. -/
  requests : Nat
  /-- How long a window lasts. -/
  duration : Nat
  /-- How many keys are tracked. -/
  capacity : Nat

/-- A window that has been opened. -/
structure Window where
  start : Nat
  count : Nat
  deriving DecidableEq

/-- The window has not passed. -/
def Window.live (limits : Limits) (now : Nat) (window : Window) : Bool :=
  decide (now - window.start < limits.duration)

/-- What a call of its key makes of a window. -/
def grant (limits : Limits) (now : Nat) (window : Option Window) : Bool × Window :=
  let current := (window.filter (Window.live limits now)).getD ⟨now, 0⟩
  if limits.requests ≤ current.count then
    (false, current)
  else
    (true, { current with count := current.count + 1 })

variable {κ : Type} [DecidableEq κ] {limits : Limits}

/-- Forget the windows that have passed. -/
def evict (limits : Limits) (now : Nat) (windows : Table κ Window) : Table κ Window :=
  windows.deleteWhere fun _ window => !window.live limits now

/-- Answer a call. -/
def check
    (limits : Limits)
    (windows : Table κ Window)
    (call : κ × Nat) : Bool × Table κ Window :=
  let remaining := evict limits call.2 windows
  if limits.capacity ≤ remaining.entries.length ∧ call.1 ∉ remaining then
    (false, remaining)
  else
    let answer := grant limits call.2 (remaining.lookup call.1)
    (answer.1, remaining.insert call.1 answer.2)

/-- Answer calls one after the other. -/
def run
    {σ ι : Type}
    (respond : σ → ι → Bool × σ) : σ → List ι → List (ι × Bool) × σ
  | state, [] => ([], state)
  | state, call :: rest =>
      let (answer, next) := respond state call
      let (answers, final) := run respond next rest
      ((call, answer) :: answers, final)

/-- The times at which calls of a key were accepted. -/
def accepted (key : κ) (answers : List ((κ × Nat) × Bool)) : List Nat :=
  (answers.filter fun answer => decide (answer.1.1 = key) && answer.2).map fun answer =>
    answer.1.2

/-- The answers given to a key. -/
def answersTo (key : κ) (answers : List ((κ × Nat) × Bool)) : List ((κ × Nat) × Bool) :=
  answers.filter fun answer => decide (answer.1.1 = key)

/-! ## One call -/

theorem lookup_evict
    (now : Nat)
    (windows : Table κ Window)
    (key : κ) :
    (evict limits now windows).lookup key =
      (windows.lookup key).filter (Window.live limits now) := by
  unfold evict
  rw [Table.lookup_deleteWhere]
  simp only [Bool.not_not]

/-- A window that has passed stays so. -/
theorem filter_live
    {earlier now : Nat}
    (later : earlier ≤ now)
    (window : Option Window) :
    (window.filter (Window.live limits earlier)).filter (Window.live limits now) =
      window.filter (Window.live limits now) := by
  rw [Option.filter_filter]
  cases window with
  | none => rfl
  | some window =>
      simp only [Option.filter, Window.live, Bool.and_eq_true, decide_eq_true_eq]
      by_cases live : now - window.start < limits.duration
      · rw [if_pos live, if_pos ⟨by omega, live⟩]
      · rw [if_neg live, if_neg fun both => live both.2]

theorem admit_filter (now : Nat) (window : Option Window) :
    grant limits now (window.filter (Window.live limits now)) = grant limits now window := by
  unfold grant
  rw [filter_live (Nat.le_refl now)]

/-- Whether a call is refused for want of space. -/
def Full (limits : Limits) (windows : Table κ Window) (call : κ × Nat) : Prop :=
  limits.capacity ≤ (evict limits call.2 windows).entries.length ∧
    call.1 ∉ evict limits call.2 windows

theorem check_of_full
    {windows : Table κ Window}
    {call : κ × Nat}
    (full : Full limits windows call) :
    check limits windows call = (false, evict limits call.2 windows) := by
  unfold check
  exact if_pos full

theorem check_of_not_full
    {windows : Table κ Window}
    {call : κ × Nat}
    (space : ¬ Full limits windows call) :
    check limits windows call =
      ((grant limits call.2 (windows.lookup call.1)).1,
        (evict limits call.2 windows).insert call.1
          (grant limits call.2 (windows.lookup call.1)).2) := by
  unfold check
  rw [← admit_filter, ← lookup_evict]
  exact if_neg space

/-- Calls leave the windows of other keys alone. -/
theorem lookup_check_of_ne
    {windows : Table κ Window}
    {call : κ × Nat}
    {key : κ}
    (other : key ≠ call.1) :
    (check limits windows call).2.lookup key =
      (windows.lookup key).filter (Window.live limits call.2) := by
  by_cases full : Full limits windows call
  · rw [check_of_full full, lookup_evict]
  · rw [check_of_not_full full, AList.lookup_insert_ne other, lookup_evict]

omit [DecidableEq κ] in
theorem length_keys (windows : List (Sigma fun _ : κ => Window)) :
    windows.keys.length = windows.length :=
  List.length_map ..

theorem length_kerase (windows : List (Sigma fun _ : κ => Window)) (key : κ) :
    (windows.kerase key).length =
      if key ∈ windows.keys then windows.length - 1 else windows.length := by
  rw [← length_keys, List.keys_kerase, List.length_erase, length_keys]

/-- No more keys are tracked than there is space for. -/
theorem length_check_le
    {windows : Table κ Window}
    (fits : windows.entries.length ≤ limits.capacity)
    (call : κ × Nat) :
    (check limits windows call).2.entries.length ≤ limits.capacity := by
  have fewer : (evict limits call.2 windows).entries.length ≤ windows.entries.length :=
    List.length_filter_le ..
  by_cases full : Full limits windows call
  · rw [check_of_full full]
    exact fewer.trans fits
  · rw [check_of_not_full full, AList.entries_insert, List.length_cons, length_kerase]
    by_cases tracked : call.1 ∈ evict limits call.2 windows
    · have keys : call.1 ∈ (evict limits call.2 windows).entries.keys := tracked
      have positive : 0 < (evict limits call.2 windows).entries.length :=
        List.length_pos_of_mem (List.exists_of_mem_keys keys).choose_spec
      rw [if_pos keys]
      omega
    · have space : (evict limits call.2 windows).entries.length < limits.capacity :=
        Nat.lt_of_not_le fun reached => full ⟨reached, tracked⟩
      have keys : call.1 ∉ (evict limits call.2 windows).entries.keys := tracked
      rw [if_neg keys]
      exact space

/-! ## Runs -/

section Runs

variable {σ ι : Type} {respond : σ → ι → Bool × σ}

/-- What every call preserves holds after a run. -/
theorem run_preserves
    {invariant : σ → Prop}
    (preserves : ∀ state call, invariant state → invariant (respond state call).2)
    {state : σ}
    (holds : invariant state)
    (calls : List ι) :
    invariant (run respond state calls).2 := by
  induction calls generalizing state with
  | nil => exact holds
  | cons call rest inductionHypothesis =>
      exact inductionHypothesis (preserves state call holds)

end Runs

/-! ## Windows -/

/-- The calls that were accepted in a window. -/
structure Span where
  start : Nat
  times : List Nat

/-- A window takes so many calls while it lasts. -/
structure Span.Within (limits : Limits) (span : Span) : Prop where
  counted : span.times.length ≤ limits.requests
  during : ∀ time ∈ span.times, span.start ≤ time ∧ time < span.start + limits.duration

/-- Times that split into windows which start far enough apart. -/
structure Splits (limits : Limits) (spans : List Span) (times : List Nat) : Prop where
  all : spans.flatMap Span.times = times
  within : ∀ span ∈ spans, span.Within limits
  apart : spans.Pairwise fun first second => first.start + limits.duration ≤ second.start

/-- A window that takes calls of a period. -/
def Span.Meets (span : Span) (start stop : Nat) : Bool :=
  span.times.any fun time => decide (start ≤ time ∧ time < stop)

/-- No more than two windows meet a period as long as one. -/
theorem Splits.length_meeting_le
    {spans : List Span}
    {times : List Nat}
    (splits : Splits limits spans times)
    (start : Nat) :
    (spans.filter fun span => span.Meets start (start + limits.duration)).length ≤ 2 := by
  have apart := splits.apart.filter fun span => span.Meets start (start + limits.duration)
  have meeting : ∀ span ∈ spans.filter fun span => span.Meets start (start + limits.duration),
      start < span.start + limits.duration ∧ span.start < start + limits.duration := by
    intro span member
    obtain ⟨among, meets⟩ := List.mem_filter.mp member
    obtain ⟨time, taken, inside⟩ := List.any_eq_true.mp meets
    have during := (splits.within span among).during time taken
    have period := of_decide_eq_true inside
    omega
  generalize spans.filter (fun span => span.Meets start (start + limits.duration)) = met
    at apart meeting ⊢
  match met with
  | [] => exact Nat.zero_le 2
  | [_] => exact Nat.le_succ 1
  | [_, _] => exact Nat.le_refl 2
  | first :: second :: third :: rest =>
      have early := meeting first (by simp)
      have late := meeting third (by simp)
      have between := (List.pairwise_cons.mp apart).1 second (by simp)
      have after := (List.pairwise_cons.mp (List.pairwise_cons.mp apart).2).1 third (by simp)
      omega

/-- Two windows' worth of calls are accepted in a period as long as one. -/
theorem Splits.length_period_le
    {spans : List Span}
    {times : List Nat}
    (splits : Splits limits spans times)
    (start : Nat) :
    (times.filter fun time => start ≤ time ∧ time < start + limits.duration).length ≤
      2 * limits.requests := by
  have within := splits.within
  have bounded : (times.filter fun time =>
        start ≤ time ∧ time < start + limits.duration).length ≤
      (spans.filter fun span => span.Meets start (start + limits.duration)).length *
        limits.requests := by
    rw [← splits.all]
    clear splits
    induction spans with
    | nil => exact Nat.zero_le _
    | cons span rest inductionHypothesis =>
        have others := inductionHypothesis fun span member =>
          within span (List.mem_cons_of_mem _ member)
        have counted := (within span List.mem_cons_self).counted
        have fewer : (span.times.filter fun time =>
            start ≤ time ∧ time < start + limits.duration).length ≤ span.times.length :=
          List.length_filter_le ..
        rw [List.flatMap_cons, List.filter_append, List.length_append, List.filter_cons]
        by_cases meets : span.Meets start (start + limits.duration) = true
        · rw [if_pos meets, List.length_cons, Nat.succ_mul]
          omega
        · have none' : span.times.filter (fun time =>
              start ≤ time ∧ time < start + limits.duration) = [] := by
            refine List.filter_eq_nil_iff.mpr ?_
            intro time member inside
            exact meets (List.any_eq_true.mpr ⟨time, member, inside⟩)
          rw [if_neg meets, none', List.length_nil, Nat.zero_add]
          exact others
  exact bounded.trans (Nat.mul_le_mul_right _ (splits.length_meeting_le start))

/-- What is known of a key: the calls accepted so far split into windows, the last
of which is the one that is tracked. -/
structure Accounted
    (limits : Limits)
    (clock : Nat)
    (times : List Nat)
    (window : Option Window)
    (spans : List Span) : Prop extends Splits limits spans times where
  tracked : ∀ current, window = some current → ∃ before last,
    spans = before ++ [⟨current.start, last⟩] ∧ last.length = current.count ∧
      current.start ≤ clock
  passed : window = none → ∀ span ∈ spans, span.start + limits.duration ≤ clock

namespace Accounted

variable {clock now : Nat} {times : List Nat} {window : Option Window} {spans : List Span}

theorem initial : Accounted limits clock [] none [] where
  all := rfl
  within := nofun
  apart := .nil
  tracked := nofun
  passed := nofun

/-- A window that has passed has been followed by none. -/
theorem passed_of_filter
    (accounted : Accounted limits clock times window spans)
    (later : clock ≤ now)
    (gone : window.filter (Window.live limits now) = none) :
    ∀ span ∈ spans, span.start + limits.duration ≤ now := by
  intro span member
  cases found : window with
  | none => exact (accounted.passed found span member).trans later
  | some current =>
      obtain ⟨before, last, rfl, -, started⟩ := accounted.tracked current found
      have elapsed : current.start + limits.duration ≤ now := by
        rw [found] at gone
        simp only [Option.filter_some, ite_eq_right_iff, reduceCtorEq, imp_false, Window.live,
          decide_eq_true_eq] at gone
        omega
      rcases List.mem_append.mp member with earlier | newest
      · have apart := (List.pairwise_append.mp accounted.apart).2.2 span earlier
          ⟨current.start, last⟩ (List.mem_singleton.mpr rfl)
        dsimp only at apart
        omega
      · rw [List.mem_singleton.mp newest]
        exact elapsed

/-- Forgetting windows that have passed changes nothing. -/
theorem evicted
    (accounted : Accounted limits clock times window spans)
    (later : clock ≤ now) :
    Accounted limits now times (window.filter (Window.live limits now)) spans where
  toSplits := accounted.toSplits
  tracked := by
    intro current found
    obtain ⟨before, last, placed, counted, started⟩ :=
      accounted.tracked current (Option.filter_eq_some_iff.mp found).1
    exact ⟨before, last, placed, counted, started.trans later⟩
  passed := accounted.passed_of_filter later

/-- A call of the key is accounted for. -/
theorem admitted
    (accounted : Accounted limits clock times window spans)
    (later : clock ≤ now)
    (lasting : 0 < limits.duration) :
    ∃ spans', Accounted limits now
      (times ++ if (grant limits now window).1 then [now] else [])
      (some (grant limits now window).2) spans' := by
  unfold grant
  cases current : window.filter (Window.live limits now) with
  | some open' =>
      obtain ⟨found, live⟩ := Option.filter_eq_some_iff.mp current
      obtain ⟨before, last, rfl, counted, started⟩ := accounted.tracked open' found
      simp only [Window.live, decide_eq_true_eq] at live
      dsimp only [Option.getD_some]
      split
      · refine ⟨before ++ [⟨open'.start, last⟩], ?_⟩
        rw [if_neg Bool.false_ne_true, List.append_nil]
        exact
          { toSplits := accounted.toSplits
            tracked := by
              rintro _ ⟨⟩
              exact ⟨before, last, rfl, counted, started.trans later⟩
            passed := nofun }
      · rename_i space
        refine ⟨before ++ [⟨open'.start, last ++ [now]⟩], ?_⟩
        have within := accounted.within ⟨open'.start, last⟩ (by simp)
        have apart := List.pairwise_append.mp accounted.apart
        rw [if_pos rfl]
        exact
          { all := by simp [← accounted.all]
            within := by
              intro span member
              rcases List.mem_append.mp member with earlier | newest
              · exact accounted.within span (List.mem_append_left _ earlier)
              · rw [List.mem_singleton.mp newest]
                refine ⟨?_, ?_⟩
                · rw [List.length_append, List.length_singleton, counted]
                  omega
                · intro time taken
                  rcases List.mem_append.mp taken with before' | this
                  · exact within.during time before'
                  · rw [List.mem_singleton.mp this]
                    dsimp only
                    omega
            apart := List.pairwise_append.mpr ⟨apart.1, List.pairwise_singleton _ _, by
              intro span earlier other newest
              rw [List.mem_singleton.mp newest]
              exact apart.2.2 span earlier ⟨open'.start, last⟩ (List.mem_singleton.mpr rfl)⟩
            tracked := by
              rintro _ ⟨⟩
              exact ⟨before, last ++ [now], rfl, by simp [counted], started.trans later⟩
            passed := nofun }
  | none =>
      have elapsed := accounted.passed_of_filter later current
      have fresh : ∀ last : List Nat, last.length ≤ limits.requests →
          (∀ time ∈ last, time = now) →
          Accounted limits now (times ++ last) (some ⟨now, last.length⟩)
            (spans ++ [⟨now, last⟩]) := by
        intro last fits same
        exact
          { all := by simp [accounted.all]
            within := by
              intro span member
              rcases List.mem_append.mp member with earlier | newest
              · exact accounted.within span earlier
              · rw [List.mem_singleton.mp newest]
                refine ⟨fits, ?_⟩
                intro time taken
                rw [same time taken]
                exact ⟨Nat.le_refl _, Nat.lt_add_of_pos_right lasting⟩
            apart := List.pairwise_append.mpr ⟨accounted.apart, List.pairwise_singleton _ _, by
              intro span earlier other newest
              rw [List.mem_singleton.mp newest]
              exact elapsed span earlier⟩
            tracked := by
              rintro _ ⟨⟩
              exact ⟨spans, last, rfl, rfl, Nat.le_refl now⟩
            passed := nofun }
      dsimp only [Option.getD_none]
      split
      · exact ⟨_, fresh [] (Nat.zero_le _) nofun⟩
      · rename_i space
        exact ⟨_, fresh [now] (Nat.lt_of_not_le space) (by simp)⟩

end Accounted

/-- Every call is accounted for, for every key. -/
theorem Accounted.check
    {clock : Nat}
    {times : List Nat}
    {windows : Table κ Window}
    {key : κ}
    {spans : List Span}
    {call : κ × Nat}
    (accounted : Accounted limits clock times (windows.lookup key) spans)
    (later : clock ≤ call.2)
    (lasting : 0 < limits.duration) :
    ∃ spans', Accounted limits call.2
      (times ++ accepted key [(call, (FixedWindow.check limits windows call).1)])
      ((FixedWindow.check limits windows call).2.lookup key) spans' := by
  by_cases own : key = call.1
  · subst own
    by_cases full : Full limits windows call
    · refine ⟨spans, ?_⟩
      rw [check_of_full full, lookup_evict]
      simpa [accepted] using accounted.evicted later
    · obtain ⟨spans', after⟩ := accounted.admitted later lasting
      refine ⟨spans', ?_⟩
      rw [check_of_not_full full, AList.lookup_insert]
      cases answer : (grant limits call.2 (windows.lookup call.1)).1 <;>
        simpa [accepted, answer] using after
  · refine ⟨spans, ?_⟩
    rw [lookup_check_of_ne own]
    simpa [accepted, Ne.symm own] using accounted.evicted later

theorem accepted_append
    (key : κ)
    (first second : List ((κ × Nat) × Bool)) :
    accepted key (first ++ second) = accepted key first ++ accepted key second := by
  unfold accepted
  rw [List.filter_append, List.map_append]

/-- Calls in the order of their times are accounted for, for every key. -/
theorem Accounted.run
    {clock : Nat}
    {times : List Nat}
    {windows : Table κ Window}
    {key : κ}
    {spans : List Span}
    {calls : List (κ × Nat)}
    (accounted : Accounted limits clock times (windows.lookup key) spans)
    (ordered : (calls.map Prod.snd).Pairwise (· ≤ ·))
    (later : ∀ call ∈ calls, clock ≤ call.2)
    (lasting : 0 < limits.duration) :
    ∃ clock' spans', Accounted limits clock'
      (times ++ accepted key (FixedWindow.run (FixedWindow.check limits) windows calls).1)
      ((FixedWindow.run (FixedWindow.check limits) windows calls).2.lookup key) spans' := by
  induction calls generalizing clock times windows spans with
  | nil => exact ⟨clock, spans, by simpa [accepted, FixedWindow.run] using accounted⟩
  | cons call rest inductionHypothesis =>
      obtain ⟨following, ordered⟩ := List.pairwise_cons.mp ordered
      obtain ⟨spans', after⟩ := accounted.check (later call List.mem_cons_self) lasting
      obtain ⟨clock', spans'', final⟩ := inductionHypothesis after ordered fun next member =>
        following next.2 (List.mem_map_of_mem member)
      refine ⟨clock', spans'', ?_⟩
      rw [List.append_assoc, ← accepted_append] at final
      exact final

/-- The accepted calls of a key split into windows. -/
theorem accepted_splits
    {calls : List (κ × Nat)}
    (ordered : (calls.map Prod.snd).Pairwise (· ≤ ·))
    (lasting : 0 < limits.duration)
    (key : κ) :
    ∃ spans, Splits limits spans (accepted key (run (check limits) ∅ calls).1) := by
  have initial : Accounted limits 0 [] ((∅ : Table κ Window).lookup key) [] := .initial
  obtain ⟨_, spans, accounted⟩ := initial.run ordered (fun call _ => Nat.zero_le call.2) lasting
  exact ⟨spans, accounted.toSplits⟩

/-! ## Independence -/

/-- There has been space for every call. -/
def Roomy (limits : Limits) (windows : Table κ Window) (calls : List (κ × Nat)) : Prop :=
  ∀ front call, front ++ [call] <+: calls →
    (run (check limits) windows front).2.entries.length < limits.capacity

/-- Two limiters that give a key the same answers, one of which has seen no other
key. -/
structure Agree
    (limits : Limits)
    (clock : Nat)
    (key : κ)
    (windows alone : Table κ Window) : Prop where
  same : ∀ now, clock ≤ now →
    (windows.lookup key).filter (Window.live limits now) =
      (alone.lookup key).filter (Window.live limits now)
  only : ∀ other ∈ alone, other = key

theorem mem_evict
    {now : Nat}
    {windows : Table κ Window}
    {key : κ}
    (member : key ∈ evict limits now windows) :
    key ∈ windows := by
  rw [← AList.lookup_isSome, lookup_evict] at member
  rw [← AList.lookup_isSome]
  exact Option.isSome_of_isSome_filter _ _ member

/-- A limiter with space for other keys has space for one. -/
theorem Agree.not_full
    {clock : Nat}
    {key : κ}
    {windows alone : Table κ Window}
    (agree : Agree limits clock key windows alone)
    (some' : 0 < limits.capacity)
    (now : Nat) :
    ¬ Full limits alone (key, now) := by
  rintro ⟨reached, absent⟩
  have tracked : (evict limits now alone).entries ≠ [] := by
    intro nothing
    rw [nothing] at reached
    exact absurd some' (Nat.not_lt.mpr reached)
  obtain ⟨entry, member⟩ := List.exists_mem_of_ne_nil _ tracked
  have inside : entry.1 ∈ evict limits now alone := List.mem_keys_of_mem member
  exact absent (agree.only entry.1 (mem_evict inside) ▸ inside)

/-- The answers to a key do not depend on the calls of others while there is space. -/
theorem Agree.run
    {clock : Nat}
    {key : κ}
    {windows alone : Table κ Window}
    {calls : List (κ × Nat)}
    (agree : Agree limits clock key windows alone)
    (ordered : (calls.map Prod.snd).Pairwise (· ≤ ·))
    (later : ∀ call ∈ calls, clock ≤ call.2)
    (roomy : Roomy limits windows calls) :
    answersTo key (FixedWindow.run (FixedWindow.check limits) windows calls).1 =
      (FixedWindow.run (FixedWindow.check limits) alone
        (calls.filter fun call => decide (call.1 = key))).1 := by
  induction calls generalizing clock windows alone with
  | nil => rfl
  | cons call rest inductionHypothesis =>
      obtain ⟨following, ordered⟩ := List.pairwise_cons.mp ordered
      have space : windows.entries.length < limits.capacity := roomy [] call ⟨rest, rfl⟩
      have rest' : Roomy limits (FixedWindow.check limits windows call).2 rest := by
        intro front next begins
        exact roomy (call :: front) next (List.cons_prefix_cons.mpr ⟨rfl, begins⟩)
      have after : ∀ next ∈ rest, call.2 ≤ next.2 :=
        fun next member => following next.2 (List.mem_map_of_mem member)
      have now := later call List.mem_cons_self
      by_cases own : call.1 = key
      · have roomy' : ¬ Full limits windows call := by
          rintro ⟨reached, -⟩
          have fewer : (evict limits call.2 windows).entries.length ≤ windows.entries.length :=
            List.length_filter_le ..
          omega
        have alone' := agree.not_full (Nat.zero_lt_of_lt space) call.2
        rw [← own] at alone'
        have same : grant limits call.2 (windows.lookup call.1) =
            grant limits call.2 (alone.lookup call.1) := by
          rw [← admit_filter, own, agree.same call.2 now, admit_filter]
        have next : Agree limits call.2 key (FixedWindow.check limits windows call).2
            (FixedWindow.check limits alone call).2 := by
          rw [check_of_not_full roomy', check_of_not_full alone', same]
          refine ⟨?_, ?_⟩
          · intro now' _
            rw [← own, AList.lookup_insert, AList.lookup_insert]
          · intro other member
            rcases AList.mem_insert _ |>.mp member with rfl | before
            · exact own
            · exact agree.only other (mem_evict before)
        have answered := inductionHypothesis next ordered after rest'
        have answer : (FixedWindow.check limits windows call).1 =
            (FixedWindow.check limits alone call).1 := by
          rw [check_of_not_full roomy', check_of_not_full alone', same]
        rw [List.filter_cons_of_pos (by simpa using own)]
        simp only [FixedWindow.run]
        unfold answersTo at answered ⊢
        rw [List.filter_cons_of_pos (by simpa using own), answered, answer]
      · have next : Agree limits call.2 key (FixedWindow.check limits windows call).2 alone := by
          refine ⟨?_, agree.only⟩
          intro now' later'
          rw [lookup_check_of_ne (Ne.symm own), filter_live later']
          exact agree.same now' (now.trans later')
        have answered := inductionHypothesis next ordered after rest'
        rw [List.filter_cons_of_neg (by simpa using own), ← answered]
        simp only [FixedWindow.run]
        unfold answersTo
        rw [List.filter_cons_of_neg (by simpa using own)]

/-- With space for every call, a key gets the answers it gets on its own. -/
theorem answersTo_run
    {calls : List (κ × Nat)}
    (ordered : (calls.map Prod.snd).Pairwise (· ≤ ·))
    (roomy : Roomy limits ∅ calls)
    (key : κ) :
    answersTo key (run (check limits) ∅ calls).1 =
      (run (check limits) ∅ (calls.filter fun call => decide (call.1 = key))).1 := by
  have initial : Agree limits 0 key (∅ : Table κ Window) ∅ := ⟨fun _ _ => rfl, nofun⟩
  exact initial.run ordered (fun call _ => Nat.zero_le call.2) roomy

end FixedWindow
