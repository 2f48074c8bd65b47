import Mathlib.Data.List.Perm.Basic
import Mathlib.Data.Nat.Find

namespace Phabos.Library

/-- The first number with a property -/
structure First (p : ℕ → Prop) (i : ℕ) : Prop where
  here : p i
  before : ∀ j < i, ¬p j

section First
variable {p : ℕ → Prop} {i j : ℕ}

theorem First.unique (first : First p i) (other : First p j) : i = j := by
  rcases Nat.lt_trichotomy i j with less | same | more
  · exact absurd first.here (other.before i less)
  · exact same
  · exact absurd other.here (first.before j more)

theorem First.le (first : First p i) (there : p j) : i ≤ j :=
  Nat.le_of_not_lt fun less => first.before j less there

/-- Below a bound there is a first number with a property, or none has it. -/
theorem first_or_none (p : ℕ → Prop) [DecidablePred p] (bound : ℕ) :
    (∃ i < bound, First p i) ∨ ∀ i < bound, ¬p i := by
  by_cases some : ∃ i, i < bound ∧ p i
  · obtain ⟨i, less, here⟩ := some
    have any : ∃ i, p i := ⟨i, here⟩
    exact .inl ⟨Nat.find any, Nat.lt_of_le_of_lt (Nat.find_min' any here) less, Nat.find_spec any,
      fun j less => Nat.find_min any less⟩
  · exact .inr fun i less here => some ⟨i, less, here⟩

/-- A scan goes on while the numbers have not a property. The motive is about how many numbers remain and which is the
next one. -/
theorem scan {motive : ℕ → ℕ → Prop} {remaining stop : ℕ} (others : ∀ i < stop, ¬p i)
    (next : ∀ remaining i, ¬p i → motive remaining (i + 1) → motive (remaining + 1) i)
    (ends : motive remaining stop) : motive (remaining + stop) 0 := by
  induction stop generalizing remaining with
  | zero => exact ends
  | succ stop ih =>
    rw [← Nat.add_assoc, Nat.add_right_comm]
    apply ih fun i less => others i (Nat.lt_succ_of_lt less)
    exact next remaining stop (others stop (Nat.lt_succ_self stop)) ends

/-- A scan ends at the first number with the property. -/
theorem First.scan {motive : ℕ → ℕ → Prop} {size : ℕ} (first : First p i) (inside : i < size)
    (next : ∀ remaining i, ¬p i → motive remaining (i + 1) → motive (remaining + 1) i)
    (here : ∀ remaining, motive (remaining + 1) i) : motive size 0 := by
  obtain ⟨remaining, rfl⟩ := Nat.exists_eq_add_of_lt inside
  have reached := Library.scan first.before next (here remaining)
  rwa [Nat.add_right_comm, Nat.add_comm remaining] at reached

end First

variable {α : Type*} {p : α → Bool} {list other : List α}

/-- An entry that is the only one with a property is found. -/
theorem find?_of_unique {x : α} (there : x ∈ list) (holds : p x = true)
    (unique : ∀ y ∈ list, p y = true → y = x) : list.find? p = some x := by
  cases found : list.find? p with
  | none => exact absurd holds (List.find?_eq_none.mp found x there)
  | some y => rw [unique y (List.mem_of_find?_eq_some found) (List.find?_some found)]

/-- Where at most one entry has a property, it is found in any order. -/
theorem find?_perm (same : other.Perm list) (unique : ∀ x ∈ list, ∀ y ∈ list, p x = true → p y = true → x = y) :
    other.find? p = list.find? p := by
  cases found : list.find? p with
  | none =>
    refine List.find?_eq_none.mpr fun x there => ?_
    exact List.find?_eq_none.mp found x (same.mem_iff.mp there)
  | some x =>
    have there := List.mem_of_find?_eq_some found
    have holds := List.find?_some found
    exact find?_of_unique (same.mem_iff.mpr there) holds
      fun y listed has => unique y (same.mem_iff.mp listed) x there has holds

end Phabos.Library
