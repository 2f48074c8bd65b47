import Mathlib.Data.List.TakeWhile

namespace Phabos.Library
open List

section Components
variable {α : Type*} [DecidableEq α] {sep : α} {path name : List α}

/-- The components of a path are its parts between the separators, but for the empty ones. -/
def components (sep : α) (path : List α) : List (List α) := (path.splitOn sep).filter (· ≠ [])

theorem components_append (sep : α) (dir path : List α) :
    components sep (dir ++ sep :: path) = components sep dir ++ components sep path := by
  unfold components
  rw [splitOn_append_cons_self, filter_append]

theorem components_nil (sep : α) : components sep [] = [] := by
  simp [components]

theorem components_cons (sep : α) (path : List α) : components sep (sep :: path) = components sep path := by
  have split := components_append sep [] path
  rwa [components_nil] at split

theorem components_dropWhile (sep : α) (path : List α) :
    components sep (path.dropWhile (· = sep)) = components sep path := by
  induction path with
  | nil => rfl
  | cons first rest ih =>
    rw [dropWhile_cons]
    split
    · rename_i same
      rw [of_decide_eq_true same, components_cons]
      exact ih
    · rfl

theorem components_name (absent : sep ∉ name) (some : name ≠ []) : components sep name = [name] := by
  unfold components
  rw [splitOn_eq_singleton absent]
  simp [some]

/-- A path of separators has no component. -/
theorem components_eq_nil (only : ∀ a ∈ path, a = sep) : components sep path = [] := by
  induction path with
  | nil => exact components_nil sep
  | cons first rest ih =>
    rw [only first mem_cons_self, components_cons]
    exact ih fun a there => only a (mem_cons_of_mem _ there)

/-- The separators at the end of a path. -/
def endSeparators (sep : α) (path : List α) : List α := (path.reverse.takeWhile (· = sep)).reverse

/-- The last component of a path. -/
def lastComponent (sep : α) (path : List α) : List α :=
  ((path.reverse.dropWhile (· = sep)).takeWhile (· ≠ sep)).reverse

/-- What a path has before its last component. -/
def beforeLast (sep : α) (path : List α) : List α :=
  ((path.reverse.dropWhile (· = sep)).dropWhile (· ≠ sep)).reverse

/-- A path is what it has before its last component, that component and the separators at its end. -/
theorem path_eq_append (sep : α) (path : List α) :
    path = beforeLast sep path ++ lastComponent sep path ++ endSeparators sep path := by
  unfold beforeLast lastComponent endSeparators
  rw [← reverse_append, takeWhile_append_dropWhile, ← reverse_append,
    takeWhile_append_dropWhile, reverse_reverse]

theorem mem_endSeparators {a : α} (there : a ∈ endSeparators sep path) : a = sep := by
  unfold endSeparators at there
  have same := mem_takeWhile_imp (mem_reverse.mp there)
  exact of_decide_eq_true same

theorem not_mem_lastComponent : sep ∉ lastComponent sep path := by
  intro there
  have differs := mem_takeWhile_imp (mem_reverse.mp there)
  exact of_decide_eq_true differs rfl

/-- The end of a path decides what separators are there. -/
theorem endSeparators_append (front : List α) (some : ∃ a ∈ path, a ≠ sep) :
    endSeparators sep (front ++ path) = endSeparators sep path := by
  obtain ⟨a, there, differs⟩ := some
  unfold endSeparators
  rw [reverse_append, takeWhile_append, if_neg]
  intro whole
  have all := takeWhile_eq_self_iff.mp (( takeWhile_prefix _).eq_of_length whole) a
    (mem_reverse.mpr there)
  exact differs (of_decide_eq_true all)

/-- A path of more than separators has a last component. -/
theorem lastComponent_ne_nil (some : ∃ a ∈ path, a ≠ sep) : lastComponent sep path ≠ [] := by
  obtain ⟨a, there, differs⟩ := some
  unfold lastComponent
  intro empty
  rw [reverse_eq_nil_iff] at empty
  cases left : path.reverse.dropWhile (· = sep) with
  | nil =>
    have all := dropWhile_eq_nil_iff.mp left a (mem_reverse.mpr there)
    exact differs (of_decide_eq_true all)
  | cons first rest =>
    have head : ¬decide (first = sep) = true := by
      have other := head?_dropWhile_not (fun a => decide (a = sep)) path.reverse
      rw [left] at other
      simpa using other
    have differs' : first ≠ sep := fun same => head (decide_eq_true same)
    rw [left, takeWhile_cons, if_pos (decide_eq_true differs')] at empty
    cases empty

/-- What a path has before its last component is empty or ends with a separator. -/
theorem beforeLast_eq (sep : α) (path : List α) :
    beforeLast sep path = [] ∨ ∃ dir, beforeLast sep path = dir ++ [sep] := by
  unfold beforeLast
  cases left : (path.reverse.dropWhile (· = sep)).dropWhile (· ≠ sep) with
  | nil => exact .inl rfl
  | cons first rest =>
    right
    refine ⟨rest.reverse, ?_⟩
    have other := head?_dropWhile_not (fun a => decide (a ≠ sep)) (path.reverse.dropWhile (· = sep))
    rw [left] at other
    have same : first = sep := by simpa using other
    rw [reverse_cons, same]

/-- The components of a path are those before the last one, and the last one. -/
theorem components_eq_append (some : ∃ a ∈ path, a ≠ sep) :
    components sep path = components sep (beforeLast sep path) ++ [lastComponent sep path] := by
  have last : components sep (lastComponent sep path ++ endSeparators sep path) = [lastComponent sep path] := by
    cases ends : endSeparators sep path with
    | nil =>
      rw [append_nil]
      exact components_name not_mem_lastComponent (lastComponent_ne_nil some)
    | cons first rest =>
      have only (a) (there : a ∈ first :: rest) : a = sep := by
        have ending : a ∈ endSeparators sep path := by
          rw [ends]
          exact there
        exact mem_endSeparators ending
      rw [only first mem_cons_self, components_append,
        components_name not_mem_lastComponent (lastComponent_ne_nil some),
        components_eq_nil fun a there => only a (mem_cons_of_mem _ there)]
      rfl
  have split := path_eq_append sep path
  rcases beforeLast_eq sep path with empty | ⟨dir, same⟩
  · rw [empty, nil_append] at split
    rw [empty, components_nil, nil_append, ← last, ← split]
  · rw [same, append_assoc, append_assoc, singleton_append] at split
    rw [same, components_append sep dir [], components_nil, append_nil, ← last, ← components_append, ← split]

end Components

end Phabos.Library
