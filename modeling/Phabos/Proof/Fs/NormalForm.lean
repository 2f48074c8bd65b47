import Phabos.Proof.Fs.CreateOpen

namespace Phabos.Fs
open Library

/-- The type of the inode, and not only a bit of it, is the one of a directory. -/
def Tree.IsDir (s : Tree) (i : ℕ) : Prop := (s.inode i).flags &&& S_IFMT = S_IFDIR

instance (s : Tree) (i : ℕ) : Decidable (s.IsDir i) := inferInstanceAs (Decidable (_ = _))

/-- The inode that names lead to when each is looked up in a directory. -/
def Tree.follow (s : Tree) : ℕ → List (List UInt8) → Option ℕ
  | cwd, [] => some cwd
  | cwd, name :: rest => if s.IsDir cwd then (s.files cwd name).bind fun inode => s.follow inode rest else none

/-- The meaning of a path: its components one by one from the root on. -/
def Tree.normalForm (s : Tree) (path : List UInt8) : Option ℕ := s.follow s.root (components slash path)

/-- The inode that names lead to in the tables alone. -/
def Tree.find (s : Tree) : ℕ → List (List UInt8) → Option ℕ
  | cwd, [] => some cwd
  | cwd, name :: rest => (s.files cwd name).bind fun inode => s.find inode rest

/-- The inodes whose tables the names are looked up in. -/
def Tree.entered (s : Tree) : ℕ → List (List UInt8) → List ℕ
  | _, [] => []
  | cwd, name :: rest => cwd :: ((s.files cwd name).map fun inode => s.entered inode rest).getD []

/-- A path without slashes behind its last component names no inode or enters directories only, and one with them
names no inode. -/
def Tree.Walkable (s : Tree) (path : List UInt8) : Prop :=
  if endSeparators slash path = [] ∨ components slash path = [] then
    s.find s.root (components slash path) = none ∨ ∀ i ∈ s.entered s.root (components slash path), s.IsDir i
  else s.normalForm path = none

/-- Only inodes that pass for directories have entries. -/
def Tree.Searched (s : Tree) : Prop := ∀ d name inode, s.files d name = some inode → s.isDirectory d = true

section Searched
variable {s s' : Tree} {cwd : ℕ} {path : List UInt8}

/-- A walk along names finds its inode if all that it enters are directories. -/
theorem Tree.follow_eq (s : Tree) (cwd : ℕ) (names : List (List UInt8)) :
    s.follow cwd names = if ∀ i ∈ s.entered cwd names, s.IsDir i then s.find cwd names else none := by
  induction names generalizing cwd with
  | nil => simp [Tree.follow, Tree.entered, Tree.find]
  | cons name rest ih =>
    unfold Tree.follow Tree.entered Tree.find
    cases found : s.files cwd name with
    | none => simp
    | some inode => simp [ih, ← ite_and]

theorem Tree.Searched.resolve_eq (searched : s.Searched) (names : List (List UInt8)) :
    s.resolve cwd names = s.find cwd names := by
  induction names generalizing cwd with
  | nil => rfl
  | cons name rest ih =>
    unfold Tree.resolve Tree.find
    cases found : s.files cwd name with
    | none => simp
    | some inode =>
      rw [if_pos (searched cwd name inode found), Option.bind_some, Option.bind_some]
      exact ih

theorem Tree.Searched.created (searched : s.Searched) (grown : s.Grown) (created : Created s path s') :
    s'.Searched := by
  obtain ⟨d, name, inode, found, -, creatable, rfl⟩ := created
  have low := grown.parentOf_lt found
  intro cwd other i there
  by_cases here : cwd = d
  · rw [here, Tree.create_isDirectory _ _ _ _ low]
    exact creatable.1
  · by_cases new : cwd = s.next
    · simp [Tree.create, new, (Nat.ne_of_lt low).symm] at there
    · have before : s.files cwd other = some i := by simpa [Tree.create, here, new] using there
      have kept := searched cwd other i before
      simpa [Tree.isDirectory, Tree.create, new] using kept

theorem Tree.Searched.apply (searched : s.Searched) (grown : s.Grown) (call : Call) : (s.apply call).Searched := by
  rcases s.apply_cases call with same | ⟨path, created⟩ | ⟨target, -, mount⟩
  · rw [same]
    exact searched
  · exact searched.created grown created
  · exact fun d name i there => mount_isDirectory mount (searched d name i (mount_files mount there))

theorem searched_of_calls (calls : List Call) : (calls.foldl Tree.apply mounted).Searched := by
  have all (s : Tree) (grown : s.Grown) (searched : s.Searched) : (calls.foldl Tree.apply s).Searched := by
    induction calls generalizing s with
    | nil => exact searched
    | cons call rest ih => exact ih (s.apply call) (grown.apply call) (searched.apply grown call)
  exact all mounted mounted_grown fun _ _ _ found => nomatch found

end Searched

/-- On every tree, the walk of a path gives the meaning of the path exactly when the path is walkable. -/
theorem fs_walk_normal_form (calls : List Call) (path : List UInt8) :
    fsWalk (calls.foldl Tree.apply mounted) (calls.foldl Tree.apply mounted).root path =
        (calls.foldl Tree.apply mounted).normalForm path ↔
      (calls.foldl Tree.apply mounted).Walkable path := by
  have grown := grown_of_calls calls
  have searched := searched_of_calls calls
  generalize calls.foldl Tree.apply mounted = s at grown searched
  rw [grown.fsWalk_eq, Tree.Walkable]
  split
  · rw [searched.resolve_eq, Tree.normalForm, Tree.follow_eq]
    split
    · rename_i directories
      exact iff_of_true rfl (.inr directories)
    · rename_i other
      exact (or_iff_left other).symm
  · exact eq_comm

/-- The walk of "/a/" misses the directory "/a", and the walk of "/b/a" finds what was made in a block device "/b". -/
theorem fs_walk_not_normal :
    (fsWalk (mounted.apply (.sysMkdir [47, 97])) 0 [47, 97, 47] = none ∧
      (mounted.apply (.sysMkdir [47, 97])).normalForm [47, 97, 47] = some 1) ∧
    (fsWalk ([Call.sysMknod [47, 98] S_IFBLK 0, .sysMkdir [47, 98, 47, 97]].foldl Tree.apply mounted) 0
        [47, 98, 47, 97] = some 2 ∧
      ([Call.sysMknod [47, 98] S_IFBLK 0, .sysMkdir [47, 98, 47, 97]].foldl Tree.apply mounted).normalForm
        [47, 98, 47, 97] = none) := by
  decide

end Phabos.Fs
