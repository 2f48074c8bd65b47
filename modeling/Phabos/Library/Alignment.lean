import Mathlib.Algebra.Order.Group.Nat
import Mathlib.Data.Nat.ModEq

namespace Phabos.Library

/-- The least multiple of an alignment that is not below a number. -/
def roundUp (n align : ℕ) : ℕ := n + (align - n % align) % align

section Alignment
variable {n align finer : ℕ}

theorem le_roundUp (n align : ℕ) : n ≤ roundUp n align := Nat.le_add_right ..

theorem roundUp_lt (n : ℕ) (positive : 0 < align) : roundUp n align < n + align :=
  Nat.add_lt_add_left (Nat.mod_lt _ positive) n

theorem roundUp_of_dvd (aligned : align ∣ n) : roundUp n align = n := by
  unfold roundUp
  rw [Nat.mod_eq_zero_of_dvd aligned, Nat.sub_zero, Nat.mod_self, Nat.add_zero]

/-- Above a multiple the next one is a whole alignment away. -/
theorem roundUp_of_not_dvd (positive : 0 < align) (between : 0 < n % align) :
    roundUp n align = n - n % align + align := by
  have bound := Nat.mod_lt n positive
  have below := Nat.mod_le n align
  unfold roundUp
  rw [Nat.mod_eq_of_lt (by omega)]
  omega

theorem dvd_roundUp (n : ℕ) (positive : 0 < align) : align ∣ roundUp n align := by
  rcases Nat.eq_zero_or_pos (n % align) with exact | between
  · have aligned := Nat.dvd_of_mod_eq_zero exact
    rwa [roundUp_of_dvd aligned]
  · rw [roundUp_of_not_dvd positive between]
    exact Nat.dvd_add (Nat.dvd_sub_mod n) (Nat.dvd_refl align)

/-- No smaller multiple is large enough. -/
theorem roundUp_le {bound : ℕ} (positive : 0 < align) (above : n ≤ bound) (aligned : align ∣ bound) :
    roundUp n align ≤ bound := by
  by_contra larger
  have next := roundUp_lt n positive
  have gap := Nat.sub_mod_eq_zero_of_mod_eq (m := roundUp n align) (n := bound) (k := align)
    ((Nat.mod_eq_zero_of_dvd (dvd_roundUp n positive)).trans (Nat.mod_eq_zero_of_dvd aligned).symm)
  rw [Nat.mod_eq_of_lt (by omega)] at gap
  omega

/-- Two multiples that differ are an alignment apart. -/
theorem multiples_apart {low high : ℕ} (alignedLow : align ∣ low) (alignedHigh : align ∣ high) (below : low < high) :
    low + align ≤ high := by
  obtain ⟨first, rfl⟩ := alignedLow
  obtain ⟨second, rfl⟩ := alignedHigh
  rw [← Nat.mul_succ]
  exact Nat.mul_le_mul_left align (Nat.lt_of_mul_lt_mul_left below)

/-- A finer alignment rounds up less exactly when the number lies far enough below the next coarse multiple. -/
theorem roundUp_lt_roundUp (divides : finer ∣ align) (positive : 0 < align) (positiveFiner : 0 < finer) :
    roundUp n finer < roundUp n align ↔ 0 < n % align ∧ n % align + finer ≤ align := by
  have below := Nat.mod_le n align
  constructor
  · intro less
    rcases Nat.eq_zero_or_pos (n % align) with exact | between
    · rw [roundUp_of_dvd (Nat.dvd_of_mod_eq_zero exact)] at less
      exact absurd (le_roundUp n finer) (Nat.not_le.mpr less)
    · have apart := multiples_apart (dvd_roundUp n positiveFiner)
        (Nat.dvd_trans divides (dvd_roundUp n positive)) less
      have start := le_roundUp n finer
      rw [roundUp_of_not_dvd positive between] at apart
      exact ⟨between, by omega⟩
  · rintro ⟨between, room⟩
    rw [roundUp_of_not_dvd positive between]
    have coarse : finer ∣ n - n % align := Nat.dvd_trans divides (Nat.dvd_sub_mod n)
    have bound : roundUp n finer ≤ n - n % align + (align - finer) := roundUp_le positiveFiner (by omega)
      (Nat.dvd_add coarse (Nat.dvd_sub divides (Nat.dvd_refl finer)))
    omega

/-- A coarser alignment rounds up at least as far. -/
theorem roundUp_le_roundUp (n : ℕ) (divides : finer ∣ align) (positive : 0 < align) (positiveFiner : 0 < finer) :
    roundUp n finer ≤ roundUp n align :=
  roundUp_le positiveFiner (le_roundUp n align) (Nat.dvd_trans divides (dvd_roundUp n positive))

end Alignment

end Phabos.Library
