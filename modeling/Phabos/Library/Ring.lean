import Mathlib.Data.Nat.ModEq
import Mathlib.Tactic.Ring

namespace Phabos.Library

/-- Linear probing visits the slots of a ring until one of them stops it. -/
def probe (size : Nat) (stop : Nat → Bool) : Nat → Nat → Option Nat
  | 0, _ => none
  | fuel + 1, h => if stop h then some h else probe size stop fuel ((h + 1) % size)

/-- This slot is the one that a probe from `h` visits after `steps` steps. -/
def ringSlot (size h steps : Nat) : Nat := (h + steps) % size

@[simp] theorem ringSlot_zero {size h : Nat} (inside : h < size) : ringSlot size h 0 = h :=
  Nat.mod_eq_of_lt inside

theorem ringSlot_lt {size h : Nat} (inside : h < size) (steps : Nat) :
    ringSlot size h steps < size :=
  Nat.mod_lt _ (Nat.zero_lt_of_lt inside)

theorem ringSlot_succ (size h steps : Nat) :
    ringSlot size ((h + 1) % size) steps = ringSlot size h (steps + 1) := by
  simp only [ringSlot, Nat.mod_add_mod]
  congr 1
  ring

/-- Every slot of the ring lies less than one turn ahead. -/
theorem exists_ringSlot {size h i : Nat} (start : h < size) (inside : i < size) :
    ∃ steps < size, ringSlot size h steps = i := by
  by_cases before : h ≤ i
  · refine ⟨i - h, by omega, ?_⟩
    rw [ringSlot, Nat.add_sub_cancel' before, Nat.mod_eq_of_lt inside]
  · refine ⟨i + size - h, by omega, ?_⟩
    rw [ringSlot, show h + (i + size - h) = i + size by omega, Nat.add_mod_right,
      Nat.mod_eq_of_lt inside]

/-- A probe returns exactly the first stopping slot within its fuel. -/
theorem probe_eq_some_iff {size h i fuel : Nat} {stop : Nat → Bool} (inside : h < size) :
    probe size stop fuel h = some i ↔
      ∃ steps < fuel, ringSlot size h steps = i ∧ stop i = true ∧
        ∀ earlier < steps, stop (ringSlot size h earlier) = false := by
  induction fuel generalizing h with
  | zero => simp [probe]
  | succ fuel ih =>
    have next : (h + 1) % size < size := Nat.mod_lt _ (Nat.zero_lt_of_lt inside)
    by_cases stopped : stop h = true
    · simp only [probe, stopped, if_true, Option.some.injEq]
      constructor
      · rintro rfl
        exact ⟨0, Nat.succ_pos _, ringSlot_zero inside, stopped, by simp⟩
      · rintro ⟨steps, _, same, _, before⟩
        cases steps with
        | zero => rw [← same, ringSlot_zero inside]
        | succ steps =>
          have first := before 0 (Nat.succ_pos _)
          rw [ringSlot_zero inside, stopped] at first
          exact absurd first (by decide)
    · have running : stop h = false := by simpa using stopped
      simp only [probe, running, Bool.false_eq_true, if_false, ih next]
      constructor
      · rintro ⟨steps, bound, same, stops, before⟩
        refine ⟨steps + 1, by omega, by rw [← ringSlot_succ]; exact same, stops, ?_⟩
        intro earlier small
        cases earlier with
        | zero => rw [ringSlot_zero inside]; exact running
        | succ earlier =>
          rw [← ringSlot_succ]
          exact before earlier (by omega)
      · rintro ⟨steps, bound, same, stops, before⟩
        cases steps with
        | zero =>
          rw [ringSlot_zero inside] at same
          rw [same, stops] at running
          exact absurd running (by decide)
        | succ steps =>
          refine ⟨steps, by omega, by rw [ringSlot_succ]; exact same, stops, ?_⟩
          intro earlier small
          rw [ringSlot_succ]
          exact before (earlier + 1) (by omega)

/-- A probe stops within one turn exactly when the ring has a stopping slot. -/
theorem probe_isSome_iff {size h : Nat} {stop : Nat → Bool} (inside : h < size) :
    (∃ i, probe size stop size h = some i) ↔ ∃ i < size, stop i = true := by
  constructor
  · rintro ⟨i, found⟩
    obtain ⟨steps, _, same, stops, _⟩ := (probe_eq_some_iff inside).mp found
    exact ⟨i, same ▸ ringSlot_lt inside steps, stops⟩
  · rintro ⟨i, small, stops⟩
    obtain ⟨steps, bound, same⟩ := exists_ringSlot inside small
    have some : ∃ steps, stop (ringSlot size h steps) = true := ⟨steps, by rw [same]; exact stops⟩
    classical
    refine ⟨ringSlot size h (Nat.find some), (probe_eq_some_iff inside).mpr
      ⟨Nat.find some, ?_, rfl, Nat.find_spec some, ?_⟩⟩
    · exact lt_of_le_of_lt (Nat.find_min' some (by rw [same]; exact stops)) bound
    · intro earlier small
      simpa using Nat.find_min some small

/-- The slot that a probe returns stops it and lies in the ring. -/
theorem probe_stop {size h i fuel : Nat} {stop : Nat → Bool} (inside : h < size)
    (found : probe size stop fuel h = some i) : i < size ∧ stop i = true := by
  obtain ⟨steps, _, same, stops, _⟩ := (probe_eq_some_iff inside).mp found
  exact ⟨same ▸ ringSlot_lt inside steps, stops⟩

section Ring
variable {Item : Type*}

/-- The slots of a ring hold the items from a number on, each item in the slot of its number. -/
def InRing (slots : Nat → Item) (size taken : Nat) (items : List Item) : Prop :=
  ∀ number, taken ≤ number → ∀ inItems : number < items.length, slots (number % size) = items[number]

theorem inRing_nil (slots : Nat → Item) (size taken : Nat) : InRing slots size taken [] := by
  intro number _ inItems
  cases inItems

variable {slots : Nat → Item} {size taken : Nat} {items : List Item}

/-- The next item is in its slot. -/
theorem InRing.next (inRing : InRing slots size taken items) (more : taken < items.length) :
    slots (taken % size) = items[taken] :=
  inRing taken (Nat.le_refl taken) more

theorem InRing.take (inRing : InRing slots size taken items) : InRing slots size (taken + 1) items := by
  intro number later inItems
  exact inRing number (Nat.le_of_succ_le later) inItems

/-- Two numbers with one slot are the same if less than the size lies between them. -/
theorem eq_of_mod_eq {size first second : Nat} (same : first % size = second % size) (le : first ≤ second)
    (near : second < first + size) : first = second := by
  have apart : (second - first) % size = 0 := Nat.sub_mod_eq_zero_of_mod_eq same.symm
  rw [Nat.mod_eq_of_lt (by omega)] at apart
  omega

/-- A free slot may change. -/
theorem InRing.store (inRing : InRing slots size taken items) (room : items.length < taken + size) (item : Item) :
    InRing (Function.update slots (items.length % size) item) size taken items := by
  intro number later inItems
  rw [Function.update_of_ne ?_]
  · exact inRing number later inItems
  · intro same
    have equal := eq_of_mod_eq same (Nat.le_of_lt inItems) (by omega)
    omega

/-- An item that is in its slot belongs to the ring. -/
theorem InRing.append (inRing : InRing slots size taken items) {item : Item}
    (stored : slots (items.length % size) = item) : InRing slots size taken (items ++ [item]) := by
  intro number later inItems
  by_cases old : number < items.length
  · rw [List.getElem_append_left old]
    exact inRing number later old
  · have last : number = items.length := by
      rw [List.length_append, List.length_singleton] at inItems
      omega
    subst last
    rw [List.getElem_concat_length rfl]
    exact stored

end Ring

/-- An index that is increased and set back at the end is the one of the next number. -/
theorem wrap_succ {size : Nat} (positive : 0 < size) (number : Nat) :
    (if size ≤ number % size + 1 then 0 else number % size + 1) = (number + 1) % size := by
  have below := Nat.mod_lt number positive
  rw [← Nat.mod_add_mod]
  by_cases last : size ≤ number % size + 1
  · have full : number % size + 1 = size := by omega
    rw [if_pos last, full, Nat.mod_self]
  · rw [if_neg last, Nat.mod_eq_of_lt (Nat.lt_of_not_le last)]

end Phabos.Library
