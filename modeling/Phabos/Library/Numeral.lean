import Mathlib.Data.Nat.Digits.Lemmas

namespace Phabos.Library
open List

/-- These are the digits of a number, the most significant first. Zero has one digit. -/
def numeral (base n : ℕ) : List ℕ := if n = 0 then [0] else (Nat.digits base n).reverse

/-- This is the number that digits stand for, the most significant first. -/
def numeralValue (base : ℕ) (digits : List ℕ) : ℕ := Nat.ofDigits base digits.reverse

@[simp] theorem numeralValue_nil (base : ℕ) : numeralValue base [] = 0 := rfl

@[simp] theorem numeralValue_append_singleton (base : ℕ) (digits : List ℕ) (digit : ℕ) :
    numeralValue base (digits ++ [digit]) = numeralValue base digits * base + digit := by
  unfold numeralValue
  rw [reverse_append, reverse_singleton, singleton_append, Nat.ofDigits_cons]
  ring

theorem numeralValue_append (base : ℕ) (first last : List ℕ) :
    numeralValue base (first ++ last) = numeralValue base first * base ^ last.length + numeralValue base last := by
  unfold numeralValue
  rw [reverse_append, Nat.ofDigits_append, length_reverse]
  ring

@[simp] theorem numeralValue_numeral (base n : ℕ) : numeralValue base (numeral base n) = n := by
  unfold numeralValue numeral
  by_cases zero : n = 0
  · rw [if_pos zero, zero]
    rfl
  · rw [if_neg zero, reverse_reverse, Nat.ofDigits_digits]

section Numeral
variable {base n : ℕ}

theorem numeral_of_lt (less : n < base) : numeral base n = [n] := by
  unfold numeral
  by_cases zero : n = 0
  · rw [if_pos zero, zero]
  · rw [if_neg zero, Nat.digits_of_lt base n zero less]
    rfl

theorem numeral_of_le (two : 2 ≤ base) (le : base ≤ n) : numeral base n = numeral base (n / base) ++ [n % base] := by
  have quotient : n / base ≠ 0 := (Nat.div_pos le (by omega)).ne'
  unfold numeral
  rw [if_neg (by omega), if_neg quotient, Nat.digits_of_two_le_of_pos two (by omega), reverse_cons]

theorem numeral_ne_nil (base n : ℕ) : numeral base n ≠ [] := by
  unfold numeral
  split
  · exact cons_ne_nil 0 []
  · rename_i positive
    rw [ne_eq, reverse_eq_nil_iff]
    exact Nat.digits_ne_nil_iff_ne_zero.mpr positive

theorem numeral_length_pos (base n : ℕ) : 0 < (numeral base n).length :=
  length_pos_iff.mpr (numeral_ne_nil base n)

theorem lt_of_mem_numeral (two : 2 ≤ base) {digit : ℕ} (here : digit ∈ numeral base n) : digit < base := by
  unfold numeral at here
  split at here
  · rw [mem_singleton] at here
    omega
  · exact Nat.digits_lt_base two (mem_reverse.mp here)

theorem numeral_length_le (two : 2 ≤ base) {most : ℕ} (positive : 0 < most) (less : n < base ^ most) :
    (numeral base n).length ≤ most := by
  unfold numeral
  split
  · exact positive
  · rw [length_reverse, Nat.digits_length_le_iff two]
    exact less

/-- A positive number does not start with the digit zero. -/
theorem numeral_first_ne_zero (positive : n ≠ 0) {first : ℕ} {later : List ℕ}
    (same : numeral base n = first :: later) : first ≠ 0 := by
  unfold numeral at same
  rw [if_neg positive, reverse_eq_cons_iff] at same
  have last := Nat.getLast_digit_ne_zero base positive
  rw [getLast_congr _ (append_ne_nil_of_right_ne_nil _ (cons_ne_nil first [])) same,
    getLast_append_singleton] at last
  exact last

end Numeral

end Phabos.Library
