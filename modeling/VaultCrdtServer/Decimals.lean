import VaultCrdtServer.VvSerde

/-!
# Decimal numbers

Peer ids, offsets and sizes travel as decimal numbers.  A number that fits into
64 bits is read back as it was written, and one that does not fit is refused.
-/

namespace VaultCrdtServer

/-- Reading digits only makes a number larger. -/
theorem le_ofDigitChars (digits : List Char) (total : Nat) :
    total ≤ Nat.ofDigitChars 10 digits total := by
  rw [Nat.ofDigitChars_eq_ofDigitChars_zero]
  exact (Nat.le_mul_of_pos_left total (Nat.pow_pos (by decide))).trans (Nat.le_add_right _ _)

/-- Digits are read as long as their number fits. -/
theorem foldlM_parseDigit_of_lt
    {digits : List Char}
    {total : Nat}
    (decimal : ∀ c ∈ digits, c.isDigit = true)
    (fits : Nat.ofDigitChars 10 digits total < 2 ^ 64) :
    digits.foldlM parseDigit total = .ok (Nat.ofDigitChars 10 digits total) := by
  induction digits generalizing total with
  | nil => rfl
  | cons c rest inductionHypothesis =>
      rw [Nat.ofDigitChars_cons] at fits ⊢
      have digit := decimal c List.mem_cons_self
      have small := (le_ofDigitChars rest _).trans_lt fits
      have read : parseDigit total c = .ok (10 * total + (c.toNat - '0'.toNat)) := by
        unfold parseDigit
        rw [if_pos digit, if_pos small]
      rw [List.foldlM_cons, read]
      exact inductionHypothesis (fun c member => decimal c (List.mem_cons_of_mem _ member)) fits

theorem foldlM_parseDigit_of_le
    {digits : List Char}
    {total : Nat}
    (decimal : ∀ c ∈ digits, c.isDigit = true)
    (small : total < 2 ^ 64)
    (large : 2 ^ 64 ≤ Nat.ofDigitChars 10 digits total) :
    ∃ reason, digits.foldlM parseDigit total = .error reason := by
  induction digits generalizing total with
  | nil => exact absurd large (Nat.not_le.mpr small)
  | cons c rest inductionHypothesis =>
      rw [Nat.ofDigitChars_cons] at large
      have digit := decimal c List.mem_cons_self
      rw [List.foldlM_cons]
      unfold parseDigit
      rw [if_pos digit]
      by_cases fits : 10 * total + (c.toNat - '0'.toNat) < 2 ^ 64
      · dsimp only
        rw [if_pos fits]
        exact inductionHypothesis (fun c member => decimal c (List.mem_cons_of_mem _ member))
          fits large
      · dsimp only
        rw [if_neg fits]
        exact ⟨_, rfl⟩

theorem isDigit_of_mem_toDigits {value : Nat} {c : Char} (member : c ∈ Nat.toDigits 10 value) :
    c.isDigit = true :=
  Nat.isDigit_of_mem_toDigits (by decide) (by decide) member

/-- A decimal number has no sign. -/
theorem parseU64_toString (value : Nat) :
    parseU64 (toString value) =
      UInt64.ofNat <$> (Nat.toDigits 10 value).foldlM parseDigit 0 := by
  have chars : (toString value).toList = Nat.toDigits 10 value := Nat.toList_repr
  unfold parseU64
  rw [chars]
  obtain ⟨first, rest, digits⟩ := List.exists_cons_of_ne_nil (Nat.toDigits_ne_nil (n := value))
  have unsigned : first ≠ '+' := by
    rintro rfl
    have member : '+' ∈ Nat.toDigits 10 value := digits ▸ List.mem_cons_self
    exact absurd (isDigit_of_mem_toDigits member) (by decide)
  rw [digits]
  split
  · contradiction
  · rename_i same
    exact absurd (List.cons.inj same).1 unsigned
  · rename_i same
    exact absurd (List.cons.inj same).1 unsigned
  · rfl

/-- A number that fits is read back. -/
theorem parseU64_toString_of_lt {value : Nat} (fits : value < 2 ^ 64) :
    parseU64 (toString value) = .ok (UInt64.ofNat value) := by
  have whole : Nat.ofDigitChars 10 (Nat.toDigits 10 value) 0 = value :=
    Nat.ofDigitChars_ten_toDigits
  rw [parseU64_toString, foldlM_parseDigit_of_lt (fun _ => isDigit_of_mem_toDigits)
    (by rwa [whole]), whole]
  rfl

/-- A number that does not fit is refused. -/
theorem parseU64_toString_of_le {value : Nat} (large : 2 ^ 64 ≤ value) :
    ∃ reason, parseU64 (toString value) = .error reason := by
  have whole : Nat.ofDigitChars 10 (Nat.toDigits 10 value) 0 = value :=
    Nat.ofDigitChars_ten_toDigits
  have overflows : ∃ reason, (Nat.toDigits 10 value).foldlM parseDigit 0 = .error reason :=
    foldlM_parseDigit_of_le (fun _ => isDigit_of_mem_toDigits) (by decide) (by rwa [whole])
  obtain ⟨reason, refused⟩ := overflows
  rw [parseU64_toString, refused]
  exact ⟨reason, rfl⟩

end VaultCrdtServer
