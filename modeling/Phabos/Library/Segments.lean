import Mathlib.Data.List.Basic
import Mathlib.Data.List.Flatten
import Mathlib.Data.List.TakeDrop

namespace Phabos.Library

section Records
variable {α : Type*}

/-- The records of an input that begins with the size of its first one -/
def records (size : List α → ℕ) (input : List α) : List (List α) :=
  if 0 < size input ∧ size input ≤ input.length then
    input.take (size input) :: records size (input.drop (size input))
  else []
  termination_by input.length
  decreasing_by
    rw [List.length_drop]
    omega

variable {size : List α → ℕ}

theorem records_nil : records size [] = [] := by
  rw [records, if_neg]
  rintro ⟨positive, fits⟩
  exact Nat.not_le_of_lt positive fits

/-- A record with its own size at its front is the first record. -/
theorem records_append {record : List α} (rest : List α) (nonempty : record ≠ [])
    (own : size (record ++ rest) = record.length) : records size (record ++ rest) = record :: records size rest := by
  have positive := List.length_pos_iff.mpr nonempty
  rw [records, own, if_pos, List.take_left, List.drop_left]
  rw [List.length_append]
  omega

/-- Records with their own sizes are read back from their bytes. -/
theorem records_flatten {input : List (List α)} (nonempty : ∀ record ∈ input, record ≠ [])
    (own : ∀ record ∈ input, ∀ rest, size (record ++ rest) = record.length) : records size input.flatten = input := by
  induction input with
  | nil => exact records_nil
  | cons record input ih =>
    have later := ih (fun other there => nonempty other (List.mem_cons_of_mem _ there))
      (fun other there => own other (List.mem_cons_of_mem _ there))
    rw [List.flatten_cons, records_append _ (nonempty record List.mem_cons_self) (own record List.mem_cons_self _),
      later]

end Records

section Segments
variable {α : Type*} {segments : List (List α)} {segment : List α} {index : ℕ}

/-- What is reached of a sequence of segments with so many whole ones and so many elements of the next one. -/
def reached (segments : List (List α)) (index count : ℕ) : List α :=
  (segments.take index).flatten ++ (segments[index]?.getD []).take count

@[simp] theorem reached_zero (segments : List (List α)) : reached segments 0 0 = [] := rfl

/-- More elements of the same segment are reached. -/
theorem reached_add (here : segments[index]? = some segment) (count more : ℕ) :
    reached segments index (count + more) = reached segments index count ++ (segment.drop count).take more := by
  unfold reached
  rw [here, Option.getD_some, List.take_add, List.append_assoc]

/-- The end of a segment is the start of the next one. -/
theorem reached_length (here : segments[index]? = some segment) :
    reached segments index segment.length = reached segments (index + 1) 0 := by
  unfold reached
  rw [here, Option.getD_some, List.take_length, List.take_zero, List.append_nil, List.take_add_one, here,
    Option.toList_some, List.flatten_append, List.flatten_singleton]

/-- An empty segment is passed. -/
theorem reached_skip (here : segments[index]? = some []) :
    reached segments index 0 = reached segments (index + 1) 0 :=
  reached_length here

/-- What is reached is a prefix of the whole. -/
theorem reached_prefix (segments : List (List α)) (index count : ℕ) :
    reached segments index count <+: segments.flatten := by
  unfold reached
  cases here : segments[index]? with
  | none =>
    refine ⟨[], ?_⟩
    rw [List.append_nil, Option.getD_none, List.take_nil, List.append_nil,
      List.take_of_length_le (List.getElem?_eq_none_iff.mp here)]
  | some segment =>
    obtain ⟨inside, rfl⟩ := List.getElem?_eq_some_iff.mp here
    refine ⟨segments[index].drop count ++ (segments.drop (index + 1)).flatten, ?_⟩
    rw [Option.getD_some, List.append_assoc, ← List.append_assoc (List.take count _), List.take_append_drop,
      ← List.flatten_cons, ← List.drop_eq_getElem_cons inside, ← List.flatten_append, List.take_append_drop]

/-- After the last segment everything is reached. -/
theorem reached_all (segments : List (List α)) (count : ℕ) :
    reached segments segments.length count = segments.flatten := by
  unfold reached
  rw [List.take_length, List.getElem?_eq_none (Nat.le_refl _), Option.getD_none, List.take_nil, List.append_nil]

end Segments

end Phabos.Library
