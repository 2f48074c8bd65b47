import Mathlib.Data.List.DropRight
import Phabos.Construction.Fs.Path

namespace Phabos.Fs
open Library List

/-- The inode that a list of names leads to, from a directory to the next one. -/
def Tree.resolve (s : Tree) : ℕ → List (List UInt8) → Option ℕ
  | cwd, [] => some cwd
  | cwd, name :: rest =>
    if s.isDirectory cwd then (s.files cwd name).bind fun inode => s.resolve inode rest else none

/-- No entry is the root, and no name has a slash, but for the one that a path of slashes gives. -/
structure Tree.Grown (s : Tree) : Prop where
  root : s.isDirectory s.root = true
  low : s.root < s.next
  names : ∀ d name inode, s.files d name = some inode → slash ∈ name → name = [slash]
  targets : ∀ d name inode, s.files d name = some inode → inode < s.next ∧ inode ≠ s.root

section Walk
variable {s : Tree} {cwd d inode : ℕ} {name path : List UInt8}

theorem Tree.resolve_append (s : Tree) (cwd : ℕ) (first second : List (List UInt8)) :
    s.resolve cwd (first ++ second) = (s.resolve cwd first).bind fun inode => s.resolve inode second := by
  induction first generalizing cwd with
  | nil => rfl
  | cons name rest ih =>
    simp only [cons_append, Tree.resolve]
    split
    · rw [Option.bind_assoc]
      apply congrArg (Option.bind (s.files cwd name))
      funext inode
      exact ih inode
    · rfl

theorem Tree.Grown.resolve_lt (grown : s.Grown) {names : List (List UInt8)} (low : cwd < s.next)
    (resolved : s.resolve cwd names = some inode) : inode < s.next := by
  induction names generalizing cwd with
  | nil =>
    obtain rfl := Option.some.inj resolved
    exact low
  | cons name rest ih =>
    simp only [Tree.resolve, Option.ite_none_right_eq_some] at resolved
    obtain ⟨-, bound⟩ := resolved
    obtain ⟨next, found, later⟩ := Option.bind_eq_some_iff.mp bound
    exact ih (grown.targets cwd name next found).1 later

theorem walk_turn (some : path.dropWhile (· = slash) ≠ []) :
    ∃ name after, path.dropWhile (· = slash) = name ++ after ∧ name ≠ [] ∧ slash ∉ name ∧
      (path.dropWhile (· = slash)).takeWhile (· ≠ slash) = name ∧
      (path.dropWhile (· = slash)).dropWhile (· ≠ slash) = after ∧ (after = [] ∨ ∃ rest, after = slash :: rest) := by
  generalize same : path.dropWhile (· = slash) = left at some
  refine ⟨left.takeWhile (· ≠ slash), left.dropWhile (· ≠ slash), (takeWhile_append_dropWhile).symm, ?_, ?_,
    rfl, rfl, ?_⟩
  · intro empty
    cases left with
    | nil => exact some rfl
    | cons first rest =>
      have other := List.head?_dropWhile_not (fun a => decide (a = slash)) path
      rw [same] at other
      have differs : first ≠ slash := by simpa using other
      rw [takeWhile_cons, if_pos (decide_eq_true differs)] at empty
      cases empty
  · intro there
    have differs := mem_takeWhile_imp there
    exact of_decide_eq_true differs rfl
  · cases after : left.dropWhile (· ≠ slash) with
    | nil => exact .inl rfl
    | cons first rest =>
      right
      have other := List.head?_dropWhile_not (fun a => decide (a ≠ slash)) left
      rw [after] at other
      have equal : first = slash := by simpa using other
      exact ⟨rest, by rw [equal]⟩

theorem Tree.Grown.lookup_last (grown : s.Grown) {after : List UInt8} (some : name ≠ []) (absent : slash ∉ name)
    (ends : after = [] ∨ ∃ rest, after = slash :: rest) (only : after.dropWhile (· = slash) = []) :
    ramfsLookup s d (name ++ after) = if endSeparators slash (name ++ after) = [] then s.files d name else none := by
  rcases ends with rfl | ⟨rest, rfl⟩
  · have clean : endSeparators slash name = [] := by
      cases found : endSeparators slash name with
      | nil => rfl
      | cons first rest =>
        exfalso
        have there : first ∈ endSeparators slash name := by
          rw [found]
          exact mem_cons_self
        have inName : first ∈ name := by
          rw [path_eq_append slash name]
          exact mem_append_right _ there
        rw [mem_endSeparators there] at inName
        exact absent inName
    rw [append_nil, if_pos clean]
    rfl
  · have all := dropWhile_eq_nil_iff.mp only
    have dirty : endSeparators slash (name ++ slash :: rest) ≠ [] := by
      intro empty
      have last := getLast_mem (cons_ne_nil slash rest)
      have split := path_eq_append slash (name ++ slash :: rest)
      unfold endSeparators at empty
      rw [reverse_eq_nil_iff, reverse_append] at empty
      have first : (reverse (slash :: rest)).takeWhile (· = slash) = reverse (slash :: rest) := by
        rw [takeWhile_eq_self_iff]
        intro a there
        exact all a (mem_reverse.mp there)
      rw [takeWhile_append, if_pos (by rw [first]), append_eq_nil_iff, reverse_eq_nil_iff] at empty
      cases empty.1
    rw [if_neg dirty]
    cases found : s.files d (name ++ slash :: rest) with
    | none => exact found
    | some inode =>
      exfalso
      have same := grown.names d _ inode found (mem_append_right _ mem_cons_self)
      cases name with
      | nil => exact some rfl
      | cons first others =>
        rw [cons_append, cons.injEq] at same
        exact absent (same.1 ▸ mem_cons_self)

theorem walk_further {rest : List UInt8} (some : name ≠ []) (absent : slash ∉ name)
    (more : (slash :: rest).dropWhile (· = slash) ≠ []) :
    ∃ next, (slash :: rest).dropWhile (· = slash) = next ∧ next ≠ [] ∧ next.dropWhile (· = slash) = next ∧
      components slash (name ++ slash :: rest) = name :: components slash next ∧ components slash next ≠ [] ∧
      endSeparators slash (name ++ slash :: rest) = endSeparators slash next ∧
      next.length < (name ++ slash :: rest).length := by
  generalize same : (slash :: rest).dropWhile (· = slash) = next at more
  have differs : ∃ a ∈ next, a ≠ slash := by
    cases next with
    | nil => exact absurd rfl more
    | cons first others =>
      have other := List.head?_dropWhile_not (fun a => decide (a = slash)) (slash :: rest)
      rw [same] at other
      exact ⟨first, mem_cons_self, by simpa using other⟩
  have skipped : components slash next = components slash rest := by
    rw [← same, components_dropWhile, components_cons]
  have front : name ++ slash :: rest = (name ++ (slash :: rest).takeWhile (· = slash)) ++ next := by
    rw [append_assoc, ← same, takeWhile_append_dropWhile]
  refine ⟨next, rfl, more, ?_, ?_, ?_, ?_, ?_⟩
  · rw [← same, dropWhile_idempotent]
  · rw [components_append, components_name absent some, skipped]
    rfl
  · rw [components_eq_append differs]
    exact append_ne_nil_of_right_ne_nil _ (cons_ne_nil _ _)
  · rw [front, endSeparators_append _ differs]
  · have positive : 0 < name.length := length_pos_iff.mpr some
    rw [front, length_append, length_append]
    omega

theorem Tree.Grown.fsWalkFrom_eq (grown : s.Grown) (fuel : ℕ) (enough : path.length < fuel)
    (directory : s.isDirectory cwd = true) :
    fsWalkFrom s fuel (some cwd) path =
      if endSeparators slash path = [] ∨ components slash path = [] then
        s.resolve (if (path.dropWhile (· = slash)).length < path.length then s.root else cwd) (components slash path)
      else none := by
  induction fuel generalizing path cwd with
  | zero => exact absurd enough (Nat.not_lt_zero _)
  | succ fuel ih =>
    simp only [fsWalkFrom, directory, Bool.not_true, Bool.false_eq_true, ↓reduceIte]
    generalize start : (if (path.dropWhile (· = slash)).length < path.length then s.root else cwd) = base
    have based : s.isDirectory base = true := by
      rw [← start]
      split
      · exact grown.root
      · exact directory
    by_cases only : path.dropWhile (· = slash) = []
    · have none : components slash path = [] := by
        rw [← components_dropWhile, only, components_nil]
      rw [if_pos only, if_pos (.inr none), none]
      rfl
    · obtain ⟨name, after, split, some, absent, taken, dropped, ends⟩ := walk_turn only
      have whole : path = path.takeWhile (· = slash) ++ (name ++ after) := by
        rw [← split, takeWhile_append_dropWhile]
      have names : components slash path = components slash (name ++ after) := by
        rw [← components_dropWhile, split]
      have differs : ∃ a ∈ name ++ after, a ≠ slash := by
        obtain ⟨a, there⟩ := exists_mem_of_ne_nil name some
        exact ⟨a, mem_append_left _ there, fun same => absent (same ▸ there)⟩
      have last : endSeparators slash path = endSeparators slash (name ++ after) := by
        rw [whole, endSeparators_append _ differs]
      rw [if_neg only, taken, dropped, split, names, last]
      by_cases done : after.dropWhile (· = slash) = []
      · have single : components slash (name ++ after) = [name] := by
          rcases ends with rfl | ⟨rest, rfl⟩
          · rw [append_nil, components_name absent some]
          · have all := dropWhile_eq_nil_iff.mp done
            rw [components_append, components_name absent some, components_eq_nil, append_nil]
            intro a there
            exact of_decide_eq_true (all a (mem_cons_of_mem _ there))
        rw [if_pos done, grown.lookup_last some absent ends done, single]
        simp [Tree.resolve, based]
      · obtain ⟨rest, rfl⟩ : ∃ rest, after = slash :: rest := by
          rcases ends with rfl | found
          · exact absurd rfl done
          · exact found
        obtain ⟨next, left, ongoing, clean, parts, more, tail, less⟩ := walk_further some absent done
        have shorter : next.length < fuel := by
          have lengths := congrArg length whole
          rw [length_append] at lengths
          omega
        rw [left, if_neg ongoing, tail, parts]
        simp only [Tree.resolve, based, ↓reduceIte, cons_ne_nil, or_false, ramfsLookup]
        cases found : s.files base name with
        | none =>
          cases fuel <;> simp [fsWalkFrom]
        | some inode =>
          by_cases isDir : s.isDirectory inode = true
          · rw [ih shorter isDir, clean]
            simp [more]
          · obtain ⟨first, others, cons⟩ := exists_cons_of_ne_nil more
            have stuck : s.resolve inode (components slash next) = none := by
              rw [cons, Tree.resolve, if_neg isDir]
            cases fuel with
            | zero => exact absurd shorter (Nat.not_lt_zero _)
            | succ fuel => simp [fsWalkFrom, isDir, stuck]

/-- `fs_walk` resolves the components of a path that ends in no separator. -/
theorem Tree.Grown.fsWalk_eq (grown : s.Grown) (path : List UInt8) :
    fsWalk s s.root path =
      if endSeparators slash path = [] ∨ components slash path = [] then s.resolve s.root (components slash path)
      else none := by
  unfold fsWalk
  rw [grown.fsWalkFrom_eq _ (Nat.lt_succ_self _) grown.root, ite_self]

end Walk

section Names
variable {path : List UInt8}

theorem dropWhile_reverse_ne_nil (some : ∃ a ∈ path, a ≠ slash) : path.reverse.dropWhile (· = slash) ≠ [] := by
  obtain ⟨a, there, differs⟩ := some
  intro empty
  have all := dropWhile_eq_nil_iff.mp empty a (mem_reverse.mpr there)
  exact differs (of_decide_eq_true all)

theorem take_beforeLast (path : List UInt8) :
    path.take ((beforeLast slash path).length - 1) = (beforeLast slash path).dropLast := by
  have split := path_eq_append slash path
  rw [append_assoc] at split
  rw [dropLast_eq_take]
  calc path.take ((beforeLast slash path).length - 1)
      = (beforeLast slash path ++ (lastComponent slash path ++ endSeparators slash path)).take
          ((beforeLast slash path).length - 1) := by rw [← split]
    _ = (beforeLast slash path).take ((beforeLast slash path).length - 1) :=
        take_append_of_le_length (Nat.sub_le _ _)

theorem adirname_eq (some : ∃ a ∈ path, a ≠ slash) :
    adirname path = Option.some (if beforeLast slash path = [] then [dot]
      else if beforeLast slash path = [slash] then [slash] else (beforeLast slash path).dropLast) := by
  have given : path ≠ [] := by
    obtain ⟨a, there, -⟩ := some
    exact ne_nil_of_mem there
  have reversed : (path.reverse.dropWhile (· = slash)).dropWhile (· ≠ slash) = (beforeLast slash path).reverse := by
    unfold beforeLast
    rw [reverse_reverse]
  have single : (beforeLast slash path).reverse.length = 1 ↔ beforeLast slash path = [slash] := by
    rw [length_reverse]
    rcases beforeLast_eq slash path with empty | ⟨dir, same⟩
    · rw [empty]
      simp
    · rw [same]
      simp
  simp only [adirname, if_neg given, if_neg (dropWhile_reverse_ne_nil some), reversed, reverse_eq_nil_iff, single]
  rw [length_reverse, take_beforeLast]
  split
  · rfl
  · split
    · rfl
    · rfl

theorem abasename_eq (some : ∃ a ∈ path, a ≠ slash) : abasename path = Option.some (lastComponent slash path) := by
  have given : path ≠ [] := by
    obtain ⟨a, there, -⟩ := some
    exact ne_nil_of_mem there
  simp only [abasename, if_neg given, if_neg (dropWhile_reverse_ne_nil some)]
  rfl

end Names

end Phabos.Fs
