import Phabos.Proof.Fs.CreateOpen

namespace Phabos.Fs
open Library List Option

/-- No inode has two entries. -/
def Tree.Single (s : Tree) : Prop :=
  ∀ d name e other i, s.files d name = some i → s.files e other = some i → d = e ∧ name = other

section Shape
variable {s : Tree} {i : ℕ}

theorem Tree.Single.apply (single : s.Single) (grown : s.Grown) (call : Call) : (s.apply call).Single := by
  intro d name e other i one two
  rcases s.apply_cases call with same | ⟨path, p, new, inode, -, -, -, created⟩ | ⟨target, -, mount⟩
  · rw [same] at one two
    exact single d name e other i one two
  · rw [created] at one two
    have below {d : ℕ} {name : List UInt8} (found : s.files d name = some s.next) : False :=
      Nat.lt_irrefl _ (grown.targets d name s.next found).1
    rcases Tree.create_files_cases one with ⟨rfl, rfl, rfl⟩ | one
    · rcases Tree.create_files_cases two with ⟨rfl, rfl, -⟩ | two
      · exact ⟨rfl, rfl⟩
      · exact (below two).elim
    · rcases Tree.create_files_cases two with ⟨-, -, rfl⟩ | two
      · exact (below one).elim
      · exact single d name e other i one two
  · exact single d name e other i (mount_files mount one) (mount_files mount two)

theorem single_of_calls (calls : List Call) : (calls.foldl Tree.apply mounted).Single := by
  induction calls using reverseRecOn with
  | nil => exact fun _ _ _ _ _ found => nomatch found
  | append_singleton calls call ih =>
    rw [foldl_concat]
    exact ih.apply (grown_of_calls calls) call

/-- The last step of a walk -/
theorem resolve_concat {cwd : ℕ} {names : List (List UInt8)} {name : List UInt8}
    (found : s.resolve cwd (names ++ [name]) = some i) : ∃ d, s.resolve cwd names = some d ∧ s.files d name = some i := by
  rw [Tree.resolve_append] at found
  obtain ⟨d, resolved, last⟩ := bind_eq_some_iff.mp found
  obtain ⟨-, bound⟩ := ite_none_right_eq_some.mp last
  obtain ⟨j, entry, here⟩ := bind_eq_some_iff.mp bound
  obtain rfl := some.inj here
  exact ⟨d, resolved, entry⟩

/-- Two lists of names that lead to one inode are equal. -/
theorem Tree.Single.resolve_injective (single : s.Single) (grown : s.Grown) {one other : List (List UInt8)}
    (first : s.resolve s.root one = some i) (second : s.resolve s.root other = some i) : one = other := by
  have away {names : List (List UInt8)} {name : List UInt8} (found : s.resolve s.root (names ++ [name]) = some s.root) :
      False := by
    obtain ⟨d, -, entry⟩ := resolve_concat found
    exact (grown.targets d name _ entry).2 rfl
  induction one using reverseRecOn generalizing other i with
  | nil =>
    obtain rfl := some.inj first
    induction other using reverseRecOn with
    | nil => rfl
    | append_singleton names name => exact (away second).elim
  | append_singleton names name ih =>
    obtain ⟨d, before, entry⟩ := resolve_concat first
    induction other using reverseRecOn with
    | nil =>
      obtain rfl := some.inj second
      exact (away first).elim
    | append_singleton names' name' =>
      obtain ⟨e, before', entry'⟩ := resolve_concat second
      obtain ⟨rfl, rfl⟩ := single d name e name' i entry entry'
      rw [ih before before']

end Shape

/-- Whatever has been made and mounted, two paths lead to one inode only if they have the same components. -/
theorem paths_are_unique (calls : List Call) (one other : List UInt8) (i : ℕ)
    (first : fsWalk (calls.foldl Tree.apply mounted) (calls.foldl Tree.apply mounted).root one = some i)
    (second : fsWalk (calls.foldl Tree.apply mounted) (calls.foldl Tree.apply mounted).root other = some i) :
    components slash one = components slash other := by
  have grown := grown_of_calls calls
  rw [grown.fsWalk_eq] at first second
  exact (single_of_calls calls).resolve_injective grown (ite_none_right_eq_some.mp first).2
    (ite_none_right_eq_some.mp second).2

/-- "/a/b" and "//a/b" in a tree with both directories -/
theorem paths_are_unique_slashes : components slash [47, 97, 47, 98] = components slash [47, 47, 97, 47, 98] :=
  paths_are_unique [.sysMkdir [47, 97], .sysMkdir [47, 97, 47, 98]] _ _ 2 (by decide) (by decide)

/-- What a path leads to, it leads to for ever, whatever is made later, unless something is mounted. -/
theorem paths_stay (calls later : List Call) (path : List UInt8) (i : ℕ)
    (unmounted : ∀ target, .sysMount target ∉ later)
    (found : fsWalk (calls.foldl Tree.apply mounted) (calls.foldl Tree.apply mounted).root path = some i) :
    fsWalk ((calls ++ later).foldl Tree.apply mounted) ((calls ++ later).foldl Tree.apply mounted).root path = some i := by
  induction later using reverseRecOn with
  | nil => rwa [append_nil]
  | append_singleton later call ih =>
    have before := ih fun target there => unmounted target (mem_append_left _ there)
    have grown := grown_of_calls (calls ++ later)
    have after := grown.apply call
    rw [← append_assoc, foldl_concat]
    rw [grown.fsWalk_eq, ite_none_right_eq_some] at before
    rw [after.fsWalk_eq, if_pos before.1]
    rcases Tree.apply_cases _ call with same | ⟨_, d, name, inode, -, -, creatable, created⟩ | ⟨target, rfl, -⟩
    · rw [same]
      exact before.2
    · rw [created]
      exact grown.resolve_create creatable.2 grown.low before.2
    · exact (unmounted target (mem_append_right _ mem_cons_self)).elim

theorem paths_stay_after_mkdir :
    fsWalk ([Call.sysMkdir [47, 97], .sysMkdir [47, 98]].foldl Tree.apply mounted) 0 [47, 97] = some 1 :=
  paths_stay [.sysMkdir [47, 97]] [.sysMkdir [47, 98]] [47, 97] 1 (by simp) (by decide)

end Phabos.Fs
