import Mathlib.Data.List.MinMax
import Mathlib.Data.List.Perm.Basic

/-!
# Last-writer-wins registers that recognise repetitions

A register holds at most one write.  A write replaces the one that is held if it
ranks above it, unless it repeats its content: then it is acknowledged without
being stored, and the rank that is held stays.

Where repetitions are recognised by content and not by rank, what a register
ends with can depend on the order of the writes.  `convergent_iff` says exactly
when it does not.
-/

namespace LastWriter

variable {ω κ γ : Type} [LinearOrder κ] [DecidableEq γ]

section Register

variable (rank : ω → κ) (content : ω → γ)

/-- Apply one write to a register. -/
def step (held : Option ω) (write : ω) : Option ω :=
  match held with
  | none => some write
  | some current =>
      if content current = content write then some current
      else if rank current < rank write then some write
      else some current

/-- Apply writes in order. -/
def run (held : Option ω) (writes : List ω) : Option ω :=
  writes.foldl (step rank content) held

/-- All orders of the writes leave the same content behind. -/
def Convergent (writes : List ω) : Prop :=
  ∀ order order' : List ω, order.Perm writes → order'.Perm writes →
    (run rank content none order).map content = (run rank content none order').map content

/-- One write outranks all writes of another content, and none of these
outranks a write of its content. -/
def Dominated (writes : List ω) : Prop :=
  writes = [] ∨
    ∃ top ∈ writes, ∀ other ∈ writes, content other ≠ content top →
      rank other < rank top ∧
        ∀ same ∈ writes, content same = content top → rank other ≤ rank same

end Register

variable {rank : ω → κ} {content : ω → γ}

@[simp] theorem run_nil (held : Option ω) : run rank content held [] = held := rfl

@[simp] theorem run_cons (held : Option ω) (write : ω) (writes : List ω) :
    run rank content held (write :: writes) =
      run rank content (step rank content held write) writes := rfl

theorem run_append (held : Option ω) (first second : List ω) :
    run rank content held (first ++ second) =
      run rank content (run rank content held first) second :=
  List.foldl_append

variable (rank content) in
/-- A register stores the write, or keeps what it holds. -/
theorem step_cases (held : Option ω) (write : ω) :
    step rank content held write = some write ∨
      ∃ current, held = some current ∧ step rank content held write = some current := by
  cases held with
  | none => exact Or.inl rfl
  | some current =>
      unfold step
      dsimp only
      split_ifs with same above
      · exact Or.inr ⟨current, rfl, rfl⟩
      · exact Or.inl rfl
      · exact Or.inr ⟨current, rfl, rfl⟩

/-- What a register holds in the end it held before, or was written. -/
theorem run_mem
    {held : Option ω}
    {writes : List ω}
    {final : ω}
    (ends : run rank content held writes = some final) :
    held = some final ∨ final ∈ writes := by
  induction writes generalizing held with
  | nil => exact Or.inl ends
  | cons write writes inductionHypothesis =>
      rcases inductionHypothesis ends with before | later
      · rcases step_cases rank content held write with
          stored | ⟨current, current', kept⟩
        · rw [stored, Option.some.injEq] at before
          exact Or.inr (by simp [before])
        · rw [kept] at before
          exact Or.inl (current'.trans before)
      · exact Or.inr (List.mem_cons_of_mem _ later)

/-- A register that has been written to is not empty. -/
theorem run_isSome
    {current : ω}
    (writes : List ω) :
    (run rank content (some current) writes).isSome = true := by
  induction writes generalizing current with
  | nil => rfl
  | cons write writes inductionHypothesis =>
      rcases step_cases rank content (some current) write with
        stored | ⟨_, -, kept⟩
      · rw [run_cons, stored]
        exact inductionHypothesis
      · rw [run_cons, kept]
        exact inductionHypothesis

/-- Writes that repeat the content that is held, or do not outrank it, change
nothing. -/
theorem run_of_not_above
    {current : ω}
    {writes : List ω}
    (below : ∀ write ∈ writes, content write ≠ content current → rank write ≤ rank current) :
    run rank content (some current) writes = some current := by
  induction writes with
  | nil => rfl
  | cons write writes inductionHypothesis =>
      have kept : step rank content (some current) write = some current := by
        unfold step
        dsimp only
        split_ifs with same above
        · rfl
        · exact absurd above
            (not_lt.mpr (below write (List.mem_cons_self ..) fun repeats => same repeats.symm))
        · rfl
      rw [run_cons, kept]
      exact inductionHypothesis fun write member =>
        below write (List.mem_cons_of_mem _ member)

/-- A write that outranks every write of another content decides, whatever the
order. -/
theorem run_content_of_dominates
    {writes order : List ω}
    {top : ω}
    (dominates : ∀ other ∈ writes, content other ≠ content top →
      rank other < rank top ∧
        ∀ same ∈ writes, content same = content top → rank other ≤ rank same)
    (within : ∀ write ∈ order, write ∈ writes)
    (member : top ∈ order) :
    (run rank content none order).map content = some (content top) := by
  obtain ⟨first, second, rfl⟩ := List.append_of_mem member
  rw [run_append, run_cons]
  -- From the top write on, a write of its content is held.
  have taken : ∃ current ∈ writes, content current = content top ∧
      step rank content (run rank content none first) top = some current := by
    cases held : run rank content none first with
    | none => exact ⟨top, within top member, rfl, rfl⟩
    | some before =>
        have earlier : before ∈ writes := by
          rcases run_mem held with impossible | written
          · cases impossible
          · exact within before (List.mem_append_left _ written)
        by_cases same : content before = content top
        · exact ⟨before, earlier, same, by simp [step, same]⟩
        · have below := (dominates before earlier same).1
          exact ⟨top, within top member, rfl, by simp [step, same, below]⟩
  obtain ⟨current, stored, same, stepped⟩ := taken
  rw [stepped, run_of_not_above, Option.map_some, same]
  intro write later differs
  have written := within write
    (List.mem_append_right _ (List.mem_cons_of_mem _ later))
  exact (dominates write written fun repeats => differs (repeats.trans same.symm)).2
    current stored same

/-- Dominated writes converge. -/
theorem Dominated.convergent
    {writes : List ω}
    (dominated : Dominated rank content writes) :
    Convergent rank content writes := by
  intro order order' arranged arranged'
  rcases dominated with rfl | ⟨top, member, dominates⟩
  · rw [List.perm_nil.mp arranged, List.perm_nil.mp arranged']
  · rw [run_content_of_dominates dominates (fun _ => arranged.mem_iff.mp)
        (arranged.mem_iff.mpr member),
      run_content_of_dominates dominates (fun _ => arranged'.mem_iff.mp)
        (arranged'.mem_iff.mpr member)]

/-- A write that no other outranks is held in the end when it comes first. -/
theorem exists_order_ending_with
    {writes : List ω}
    {top : ω}
    (member : top ∈ writes)
    (highest : ∀ write ∈ writes, rank write ≤ rank top) :
    ∃ order : List ω, order.Perm writes ∧ run rank content none order = some top := by
  obtain ⟨first, second, rfl⟩ := List.append_of_mem member
  refine ⟨top :: (first ++ second), List.perm_middle.symm, ?_⟩
  rw [run_cons]
  refine run_of_not_above ?_
  intro write later _
  refine highest write ?_
  rcases List.mem_append.mp later with before | after
  · exact List.mem_append_left _ before
  · exact List.mem_append_right _ (List.mem_cons_of_mem _ after)

/-- Where a write of another content outranks a repetition of a content, that
content is lost in some order. -/
theorem exists_order_losing
    {writes : List ω}
    {same other : ω}
    (member : same ∈ writes)
    (member' : other ∈ writes)
    (differs : content other ≠ content same)
    (above : rank same < rank other) :
    ∃ order : List ω, order.Perm writes ∧
      (run rank content none order).map content ≠ some (content same) := by
  obtain ⟨first, second, rfl⟩ := List.append_of_mem member
  let repeats := (first ++ second).filter fun write => decide (content write = content same)
  let others := (first ++ second).filter fun write => !decide (content write = content same)
  have remaining : other ∈ others := by
    have later : other ∈ first ++ second := by
      simp only [List.mem_append, List.mem_cons] at member' ⊢
      rcases member' with before | rfl | after
      · exact Or.inl before
      · exact absurd rfl differs
      · exact Or.inr after
    exact List.mem_filter.mpr ⟨later, by simp [differs]⟩
  obtain ⟨left, right, split⟩ := List.append_of_mem remaining
  refine ⟨same :: (repeats ++ other :: (left ++ right)), ?_, ?_⟩
  · have parted : (repeats ++ others).Perm (first ++ second) := List.filter_append_perm _ _
    rw [split] at parted
    have middle : (repeats ++ other :: (left ++ right)).Perm (first ++ second) :=
      ((List.perm_middle.symm).append_left repeats).trans parted
    exact (middle.cons same).trans List.perm_middle.symm
  · have kept : run rank content (some same) repeats = some same := by
      refine run_of_not_above ?_
      intro write repeating differs'
      exact absurd (of_decide_eq_true (List.mem_filter.mp repeating).2) differs'
    have lost : step rank content (some same) other = some other := by
      simp [step, Ne.symm differs, above]
    rw [run_cons, run_append, run_cons]
    change (run rank content (step rank content (run rank content (some same) repeats) other)
      (left ++ right)).map content ≠ _
    rw [kept, lost]
    have holds : (run rank content (some other) (left ++ right)).isSome = true := run_isSome _
    obtain ⟨final, ends⟩ := Option.isSome_iff_exists.mp holds
    rw [ends, Option.map_some, ne_eq, Option.some.injEq]
    rcases run_mem ends with held | written
    · rw [← Option.some.inj held]
      exact differs
    · have unrepeated : final ∈ others := by
        rw [split]
        rcases List.mem_append.mp written with before | after
        · exact List.mem_append_left _ before
        · exact List.mem_append_right _ (List.mem_cons_of_mem _ after)
      simpa using (List.mem_filter.mp unrepeated).2

/-- The content a register ends with does not depend on the order exactly if one
write outranks all writes of another content and none of these outranks a
repetition of it. -/
theorem convergent_iff {writes : List ω} :
    Convergent rank content writes ↔ Dominated rank content writes := by
  refine ⟨?_, Dominated.convergent⟩
  intro convergent
  cases chosen : writes.argmax rank with
  | none => exact Or.inl (List.argmax_eq_none.mp chosen)
  | some top =>
      have member : top ∈ writes := List.argmax_mem chosen
      have highest : ∀ write ∈ writes, rank write ≤ rank top :=
        fun write written => List.le_of_mem_argmax written chosen
      have ending : ∃ order : List ω, order.Perm writes ∧
          run rank content none order = some top :=
        exists_order_ending_with member highest
      obtain ⟨order, arranged, ends⟩ := ending
      refine Or.inr ⟨top, member, ?_⟩
      intro other written differs
      refine ⟨lt_of_le_of_ne (highest other written) ?_, ?_⟩
      · intro tied
        have ending : ∃ order' : List ω, order'.Perm writes ∧
            run rank content none order' = some other :=
          exists_order_ending_with written fun write later => tied ▸ highest write later
        obtain ⟨order', arranged', ends'⟩ := ending
        have agree := convergent order' order arranged' arranged
        rw [ends, ends', Option.map_some, Option.map_some, Option.some.injEq] at agree
        exact differs agree
      · intro same repeated repeats
        by_contra above
        have losing : ∃ order' : List ω, order'.Perm writes ∧
            (run rank content none order').map content ≠ some (content same) :=
          exists_order_losing repeated written
            (fun equal => differs (equal.trans repeats)) (not_le.mp above)
        obtain ⟨order', arranged', lost⟩ := losing
        have agree := convergent order' order arranged' arranged
        rw [ends, Option.map_some, ← repeats] at agree
        exact lost agree

end LastWriter
