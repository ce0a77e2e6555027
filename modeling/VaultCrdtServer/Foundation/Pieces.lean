import Mathlib.Data.List.Infix

/-!
# Contents received in pieces

A piece is what was received from some offset on.  Pieces tile an interval when
each of them starts where the one before it has ended, and what they assemble to
is then as long as the interval.
-/

/-- Bytes, or whatever contents consist of, with the offset of the first. -/
structure Piece (β : Type) where
  offset : Nat
  contents : List β
  deriving DecidableEq

namespace Piece

variable {β : Type}

/-- Where the next piece starts. -/
def stop (piece : Piece β) : Nat := piece.offset + piece.contents.length

/-- The pieces cover an interval in order, without gap and overlap. -/
def Tiles : Nat → List (Piece β) → Nat → Prop
  | start, [], stop => start = stop
  | start, piece :: rest, stop => piece.offset = start ∧ Tiles piece.stop rest stop

/-- What the pieces amount to. -/
def assemble (pieces : List (Piece β)) : List β := (pieces.map contents).flatten

@[simp] theorem assemble_nil : assemble ([] : List (Piece β)) = [] := rfl

@[simp] theorem assemble_append (first second : List (Piece β)) :
    assemble (first ++ second) = assemble first ++ assemble second := by
  simp [assemble]

@[simp] theorem assemble_singleton (piece : Piece β) :
    assemble [piece] = piece.contents := by
  simp [assemble]

/-- What tiles an interval is as long as the interval. -/
theorem Tiles.length
    {pieces : List (Piece β)}
    {start stop : Nat}
    (tiles : Tiles start pieces stop) :
    start + (assemble pieces).length = stop := by
  induction pieces generalizing start with
  | nil => exact tiles
  | cons piece rest inductionHypothesis =>
      obtain ⟨rfl, tiles⟩ := tiles
      have remaining := inductionHypothesis tiles
      simp only [assemble, List.map_cons, List.flatten_cons, List.length_append] at remaining ⊢
      unfold Piece.stop at remaining
      omega

/-- A piece that starts where the others have ended. -/
theorem Tiles.snoc
    {pieces : List (Piece β)}
    {piece : Piece β}
    {start : Nat}
    (tiles : Tiles start pieces piece.offset) :
    Tiles start (pieces ++ [piece]) piece.stop := by
  induction pieces generalizing start with
  | nil => exact ⟨tiles.symm, rfl⟩
  | cons head rest inductionHypothesis => exact ⟨tiles.1, inductionHypothesis tiles.2⟩

end Piece
