import Mathlib.Data.List.Sort
import Mathlib.Data.List.TakeWhile

/-!
# Paging up to a fence

Rows carry distinct positions in a linear order.  A page holds the rows after a
position, in order, up to a number of them.  A reader takes what a page has up
to a fence and goes on from the last row it took, or stops: at a row above the
fence, at a page that is not full, or when it has reached the fence.

Whatever the rows are, what a reader has passed it has been given.
-/

namespace Paging

variable {α ι : Type} [LinearOrder ι] (position : α → ι)

/-- The rows after a position, in order, up to a number of them. -/
def page (since : ι) (limit : Nat) (rows : List α) : List α :=
  ((rows.filter fun row => decide (since < position row)).insertionSort
    fun first second => position first ≤ position second).take limit

/-- What a reader takes of a page. -/
def taken (fence : ι) (rows : List α) : List α :=
  rows.takeWhile fun row => decide (position row ≤ fence)

/-- Position of the last row taken. -/
def reached (since : ι) (rows : List α) : ι :=
  (rows.getLast?.map position).getD since

/-- The reader stops. -/
def Stops (fence since : ι) (limit : Nat) (rows : List α) : Prop :=
  (taken position fence rows).length < rows.length ∨ rows.length < limit ∨
    reached position since (taken position fence rows) = fence

variable {position}
variable {since fence : ι} {limit : Nat} {rows : List α} {row : α}

theorem mem_page (member : row ∈ page position since limit rows) :
    row ∈ rows ∧ since < position row := by
  have sorted := List.mem_of_mem_take member
  rw [List.mem_insertionSort, List.mem_filter, decide_eq_true_eq] at sorted
  exact sorted

section Distinct

variable (distinct : rows.Pairwise fun first second => position first ≠ position second)

include distinct in
/-- The rows after a position, in strict order. -/
theorem sorted_ascending :
    ((rows.filter fun row => decide (since < position row)).insertionSort
      fun first second => position first ≤ position second).Pairwise
        fun first second => position first < position second := by
  have total : Std.Total fun first second : α => position first ≤ position second :=
    ⟨fun first second => le_total (position first) (position second)⟩
  have transitive : IsTrans α fun first second : α => position first ≤ position second :=
    ⟨fun _ _ _ => le_trans⟩
  have apart : ((rows.filter fun row => decide (since < position row)).insertionSort
      fun first second => position first ≤ position second).Pairwise
        fun first second => position first ≠ position second :=
    (List.perm_insertionSort _ _).symm.pairwise (distinct.filter _) fun different => different.symm
  exact ((List.pairwise_insertionSort _ _).and apart).imp
    fun ⟨below, different⟩ => lt_of_le_of_ne below different

include distinct in
/-- A page is strictly ascending. -/
theorem page_ascending :
    (page position since limit rows).Pairwise
      fun first second => position first < position second :=
  (sorted_ascending distinct).sublist (List.take_sublist _ _)

include distinct in
/-- A row that is left out lies behind a full page. -/
theorem mem_page_or_full
    (stored : row ∈ rows)
    (after : since < position row) :
    row ∈ page position since limit rows ∨
      (page position since limit rows).length = limit ∧
        ∀ other ∈ page position since limit rows, position other < position row := by
  have ascending : ((rows.filter fun row => decide (since < position row)).insertionSort
      fun first second => position first ≤ position second).Pairwise
        fun first second => position first < position second :=
    sorted_ascending distinct
  have member : row ∈ (rows.filter fun row => decide (since < position row)).insertionSort
      fun first second => position first ≤ position second := by
    rw [List.mem_insertionSort, List.mem_filter, decide_eq_true_eq]
    exact ⟨stored, after⟩
  rw [← List.take_append_drop limit (List.insertionSort _ _), List.mem_append] at member
  rcases member with inside | outside
  · exact Or.inl inside
  · right
    rw [← List.take_append_drop limit (List.insertionSort _ _), List.pairwise_append] at ascending
    have longer : 0 < ((rows.filter fun row => decide (since < position row)).insertionSort
        fun first second => position first ≤ position second).length - limit := by
      rw [← List.length_drop]
      exact List.length_pos_of_mem outside
    exact ⟨List.length_take_of_le (by omega), fun other inside =>
      ascending.2.2 other inside row outside⟩

end Distinct

/-! ## What is taken of a page -/

theorem taken_le (member : row ∈ taken position fence rows) : position row ≤ fence := by
  unfold taken at member
  simpa using List.mem_takeWhile_imp member

theorem mem_of_mem_taken (member : row ∈ taken position fence rows) : row ∈ rows :=
  (List.takeWhile_sublist _).mem member

/-- Of ascending rows all are taken that are not above the fence. -/
theorem mem_taken
    (ascending : rows.Pairwise fun first second => position first < position second)
    (member : row ∈ rows)
    (below : position row ≤ fence) :
    row ∈ taken position fence rows := by
  unfold taken
  induction rows with
  | nil => cases member
  | cons first rest inductionHypothesis =>
      rw [List.pairwise_cons] at ascending
      have low : position first ≤ fence := by
        rcases List.mem_cons.mp member with rfl | later
        · exact below
        · exact (ascending.1 row later).le.trans below
      rw [List.takeWhile_cons, if_pos (decide_eq_true low)]
      rcases List.mem_cons.mp member with rfl | later
      · exact List.mem_cons_self
      · exact List.mem_cons_of_mem _ (inductionHypothesis ascending.2 later)

/-- Everything is taken, unless the reader stops. -/
theorem taken_eq_of_not_stops
    (continues : ¬ Stops position fence since limit rows) :
    taken position fence rows = rows := by
  have whole : ¬ (taken position fence rows).length < rows.length :=
    fun short => continues (Or.inl short)
  exact (List.takeWhile_sublist _).eq_of_length_le (Nat.not_lt.mp whole)

omit [LinearOrder ι] in
/-- The last row taken, or where the reader was. -/
theorem reached_cases (position : α → ι) (since : ι) (rows : List α) :
    (rows = [] ∧ reached position since rows = since) ∨
      ∃ row ∈ rows, reached position since rows = position row := by
  unfold reached
  cases topmost : rows.getLast? with
  | none => exact Or.inl ⟨List.getLast?_eq_none_iff.mp topmost, rfl⟩
  | some row => exact Or.inr ⟨row, List.mem_of_getLast? topmost, rfl⟩

/-- A reader that goes on has moved on, and is not yet at the fence. -/
theorem advances
    (positive : 0 < limit)
    (continues : ¬ Stops position fence since limit (page position since limit rows)) :
    since < reached position since (taken position fence (page position since limit rows)) ∧
      reached position since (taken position fence (page position since limit rows)) <
        fence := by
  have short : ¬ reached position since
      (taken position fence (page position since limit rows)) = fence :=
    fun reached => continues (Or.inr (Or.inr reached))
  have full : limit ≤ (page position since limit rows).length :=
    Nat.not_lt.mp fun partial_ => continues (Or.inr (Or.inl partial_))
  rcases reached_cases position since
    (taken position fence (page position since limit rows)) with ⟨nothing, -⟩ | ⟨row, member, last⟩
  · rw [taken_eq_of_not_stops continues] at nothing
    rw [nothing] at full
    exact absurd full (Nat.not_le.mpr positive)
  · rw [last] at short ⊢
    exact ⟨(mem_page (mem_of_mem_taken member)).2, lt_of_le_of_ne (taken_le member) short⟩

/-- What the reader has passed it has been given: up to the fence when it stops,
and up to the last row taken when it goes on. -/
theorem covered
    (distinct : rows.Pairwise fun first second => position first ≠ position second)
    (stored : row ∈ rows)
    (after : since < position row)
    (below : position row ≤ fence)
    (passed : ¬ Stops position fence since limit (page position since limit rows) →
      position row ≤
        reached position since (taken position fence (page position since limit rows))) :
    row ∈ taken position fence (page position since limit rows) := by
  have ascending : (page position since limit rows).Pairwise
      fun first second => position first < position second :=
    page_ascending distinct
  have given : row ∈ page position since limit rows ∨ _ :=
    mem_page_or_full distinct stored after
  rcases given with inside | ⟨full, before⟩
  · exact mem_taken ascending inside below
  · -- Everything on the page lies before the row, so the reader has not passed it.
    exfalso
    have notReached : ¬ position row ≤
        reached position since (taken position fence (page position since limit rows)) := by
      rcases reached_cases position since
        (taken position fence (page position since limit rows)) with
        ⟨-, none⟩ | ⟨other, member, last⟩
      · rw [none]
        exact not_le.mpr after
      · rw [last]
        exact not_le.mpr (before other (mem_of_mem_taken member))
    by_cases stops : Stops position fence since limit (page position since limit rows)
    · rcases stops with above | short | atFence
      · have whole : taken position fence (page position since limit rows) =
            page position since limit rows := by
          refine List.takeWhile_eq_self_iff.mpr ?_
          intro other member
          exact decide_eq_true ((before other member).le.trans below)
        rw [whole] at above
        exact Nat.lt_irrefl _ above
      · omega
      · rw [atFence] at notReached
        exact notReached below
    · exact notReached (passed stops)

end Paging
