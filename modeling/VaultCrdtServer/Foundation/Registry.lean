import Mathlib

/-!
# A registry of editions

Keys are live or not.  While a key is live it carries a token and a content; an
edition is the time a key is live under one token.  Tokens are drawn from
counters, one for each group of keys, and a counter never goes back.

An edition that has ended never returns, since its token is below the counter
and only fresh tokens are handed out.  Content grows as long as a key is live.
-/

namespace Registry

variable {Key Group Token Content : Type}

/-- The live editions and the next token of each group. -/
structure State (Key Group Token Content : Type) where
  /-- Token and content of each live key. -/
  live : Key → Option (Token × Content)
  /-- No token from here on has been handed out. -/
  next : Group → Token

variable [DecidableEq Key] [LinearOrder Token] [Preorder Content]

/-- What happens to a registry. -/
inductive Step (group : Key → Group) :
    State Key Group Token Content → State Key Group Token Content → Prop
  /-- Nothing. -/
  | idle {state : State Key Group Token Content} : Step group state state
  /-- A key becomes live under a fresh token, or goes on under one. -/
  | establish {state state' : State Key Group Token Content} {key : Key}
      {token : Token} {content : Content}
      (fresh : state.next (group key) ≤ token)
      (drawn : token < state'.next (group key))
      (counters : ∀ g, state.next g ≤ state'.next g)
      (grows : ∀ old content', state.live key = some (old, content') →
        content' ≤ content)
      (live : state'.live = Function.update state.live key (some (token, content))) :
      Step group state state'
  /-- A live key's content grows. -/
  | extend {state state' : State Key Group Token Content} {key : Key}
      {token : Token} {content content' : Content}
      (before : state.live key = some (token, content))
      (grows : content ≤ content')
      (counters : state'.next = state.next)
      (live : state'.live = Function.update state.live key (some (token, content'))) :
      Step group state state'
  /-- A key is no longer live. -/
  | remove {state state' : State Key Group Token Content} {key : Key}
      (counters : state'.next = state.next)
      (live : state'.live = Function.update state.live key none) :
      Step group state state'

/-- The token of a live key. -/
def State.token (state : State Key Group Token Content) (key : Key) : Option Token :=
  (state.live key).map Prod.fst

variable {group : Key → Group} {state state' : State Key Group Token Content}
variable {key : Key} {token : Token}

/-- Counters never go back. -/
theorem Step.next_le (step : Step group state state') (g : Group) :
    state.next g ≤ state'.next g := by
  cases step with
  | idle => exact le_rfl
  | establish fresh drawn counters => exact counters g
  | extend before grows counters => rw [counters]
  | remove counters => rw [counters]

/-- Every live token has been handed out. -/
def Issued (group : Key → Group) (state : State Key Group Token Content) : Prop :=
  ∀ key token, state.token key = some token → token < state.next (group key)

/-- A token that was handed out for a group and is not a key's live one. -/
def Retired (group : Key → Group) (key : Key) (token : Token)
    (state : State Key Group Token Content) : Prop :=
  token < state.next (group key) ∧ state.token key ≠ some token

/-- After a step a key has the token it had, a fresh one, or none. -/
theorem Step.token_cases
    (step : Step group state state')
    (after : state'.token key = some token) :
    state.token key = some token ∨
      state.next (group key) ≤ token ∧ token < state'.next (group key) := by
  cases step with
  | idle => exact Or.inl after
  | @establish _ other drawnToken content fresh drawn _ _ live =>
      by_cases same : key = other
      · subst same
        simp only [State.token, live, Function.update_self, Option.map_some,
          Option.some.injEq] at after
        exact Or.inr (after ▸ ⟨fresh, drawn⟩)
      · simp only [State.token, live, Function.update_of_ne same] at after
        exact Or.inl after
  | @extend _ other _ _ _ before _ _ live =>
      by_cases same : key = other
      · subst same
        simp only [State.token, live, Function.update_self, Option.map_some] at after
        exact Or.inl (by rw [State.token, before]; exact after)
      · simp only [State.token, live, Function.update_of_ne same] at after
        exact Or.inl after
  | @remove _ other _ live =>
      by_cases same : key = other
      · subst same
        simp [State.token, live] at after
      · simp only [State.token, live, Function.update_of_ne same] at after
        exact Or.inl after

/-- Live tokens stay below their counters. -/
theorem Issued.step (issued : Issued group state) (step : Step group state state') :
    Issued group state' := by
  intro key token after
  rcases step.token_cases after with before | ⟨_, drawn⟩
  · exact (issued key token before).trans_le (step.next_le _)
  · exact drawn

/-- A retired token is never a key's live token again. -/
theorem Retired.step
    (retired : Retired group key token state)
    (step : Step group state state') :
    Retired group key token state' := by
  refine ⟨retired.1.trans_le (step.next_le _), ?_⟩
  intro after
  rcases step.token_cases after with before | ⟨fresh, _⟩
  · exact retired.2 before
  · exact absurd retired.1 fresh.not_gt

/-- An edition that ends is retired. -/
theorem Issued.retired
    (issued : Issued group state)
    (before : state.token key = some token)
    (step : Step group state state')
    (after : state'.token key ≠ some token) :
    Retired group key token state' :=
  ⟨(issued key token before).trans_le (step.next_le _), after⟩

/-- Unless a key is removed its content grows. -/
theorem Step.content_le
    (step : Step group state state')
    {content : Content}
    (before : state.live key = some (token, content))
    (kept : state'.live key ≠ none) :
    ∃ token' content', state'.live key = some (token', content') ∧
      content ≤ content' := by
  cases step with
  | idle => exact ⟨token, content, before, le_rfl⟩
  | @establish _ other drawnToken newContent _ _ _ grows live =>
      by_cases same : key = other
      · subst same
        exact ⟨drawnToken, newContent, by rw [live, Function.update_self],
          grows token content before⟩
      · exact ⟨token, content, by rw [live, Function.update_of_ne same, before], le_rfl⟩
  | @extend _ other otherToken oldContent newContent old grows _ live =>
      by_cases same : key = other
      · subst same
        rw [before, Option.some.injEq, Prod.mk.injEq] at old
        exact ⟨otherToken, newContent, by rw [live, Function.update_self],
          old.2 ▸ grows⟩
      · exact ⟨token, content, by rw [live, Function.update_of_ne same, before], le_rfl⟩
  | @remove _ other _ live =>
      by_cases same : key = other
      · subst same
        exact absurd (by rw [live, Function.update_self]) kept
      · exact ⟨token, content, by rw [live, Function.update_of_ne same, before], le_rfl⟩

end Registry
