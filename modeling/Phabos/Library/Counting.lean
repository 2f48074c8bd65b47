import Mathlib.Data.List.Nodup

namespace Phabos.Library

section Counting
variable {Index Value : Type*} [DecidableEq Index] {value : Value} {index : Index} {indices : List Index}

/-- A changed value is counted in place of the old one. -/
theorem countP_update (counted : Value → Bool) (values : Index → Value) (value : Value)
    (distinct : indices.Nodup) (member : index ∈ indices) :
    indices.countP (fun other => counted (Function.update values index value other)) +
        (if counted (values index) then 1 else 0) =
      indices.countP (fun other => counted (values other)) + (if counted value then 1 else 0) := by
  have perm := List.perm_cons_erase member
  have same : (indices.erase index).countP (fun other => counted (Function.update values index value other)) =
      (indices.erase index).countP (fun other => counted (values other)) := by
    apply List.countP_congr
    intro other there
    rw [Function.update_of_ne (distinct.mem_erase_iff.mp there).1]
  rw [perm.countP_eq, perm.countP_eq, List.countP_cons, List.countP_cons, Function.update_self, same]
  omega

end Counting

section Place
variable {Item : Type*} {items : List Item} {index : Nat} {item old : Item}

/-- What replaces an item of a list is counted in its place. -/
theorem countP_set_add (counted : Item → Bool) (new : Item) (here : items[index]? = some old) :
    (items.set index new).countP counted + (if counted old then 1 else 0) =
      items.countP counted + (if counted new then 1 else 0) := by
  obtain ⟨within, rfl⟩ := List.getElem?_eq_some_iff.mp here
  have least := @List.boole_getElem_le_countP _ counted items index within
  rw [List.countP_set within]
  omega

variable {counted : Item → Bool}

theorem countP_set_of_eq {new : Item} (here : items[index]? = some old)
    (same : counted old = counted new) : (items.set index new).countP counted = items.countP counted := by
  have count := countP_set_add counted new here
  rw [same] at count
  exact Nat.add_right_cancel count

theorem countP_set_le {new : Item} (here : items[index]? = some old)
    (less : counted new = true → counted old = true) : (items.set index new).countP counted ≤ items.countP counted := by
  have count := countP_set_add counted new here
  by_cases held : counted new = true
  · rw [if_pos held, if_pos (less held)] at count
    omega
  · rw [if_neg held] at count
    omega

/-- After the replacement of an item that is counted alone, what is there is new or not counted. -/
theorem mem_set_of_countP_le_one {new : Item} (here : items[index]? = some old)
    (single : items.countP counted ≤ 1) (held : counted old = true) (mem : item ∈ items.set index new) :
    item = new ∨ (item ∈ items ∧ counted item = false) := by
  obtain ⟨within, rfl⟩ := List.getElem?_eq_some_iff.mp here
  have whole : items = items.take index ++ items[index] :: items.drop (index + 1) := by
    rw [List.getElem_cons_drop, List.take_append_drop]
  rw [whole, List.countP_append, List.countP_cons_of_pos held] at single
  have none_before : (items.take index).countP counted = 0 := by omega
  have none_after : (items.drop (index + 1)).countP counted = 0 := by omega
  rw [List.set_eq_take_append_cons_drop, if_pos within] at mem
  cases List.mem_append.mp mem with
  | inl before =>
    have unheld := List.countP_eq_zero.mp none_before item before
    exact Or.inr ⟨List.mem_of_mem_take before, Bool.eq_false_iff.mpr unheld⟩
  | inr rest =>
    cases rest with
    | head => exact Or.inl rfl
    | tail _ after =>
      have unheld := List.countP_eq_zero.mp none_after item after
      exact Or.inr ⟨List.mem_of_mem_drop after, Bool.eq_false_iff.mpr unheld⟩

/-- An item that is counted alone is the only one that is counted. -/
theorem eq_of_countP_le_one (here : items[index]? = some old)
    (single : items.countP counted ≤ 1) (held : counted old = true) (mem : item ∈ items) (also : counted item = true) :
    item = old := by
  obtain ⟨within, same⟩ := List.getElem?_eq_some_iff.mp here
  have unchanged : items.set index old = items := by
    rw [← same, List.set_getElem_self]
  rw [← unchanged] at mem
  cases mem_set_of_countP_le_one here single held mem with
  | inl same => exact same
  | inr other => exact absurd also (other.2 ▸ Bool.false_ne_true)

end Place

/-- What a search finds is what the erasure of its first hit takes out. -/
theorem perm_of_find {Item : Type*} {items : List Item} {item : Item} {test : Item → Bool}
    (found : items.find? test = some item) : items.Perm (item :: items.eraseP test) := by
  obtain ⟨passes, front, back, rfl, fails⟩ := List.find?_eq_some_iff_append.mp found
  rw [List.eraseP_append_right, List.eraseP_cons_of_pos passes]
  · exact List.perm_middle
  · intro other there
    simpa using fails other there

end Phabos.Library
