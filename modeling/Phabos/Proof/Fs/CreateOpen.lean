import Phabos.Proof.Fs.PathWalk

namespace Phabos.Fs
open Library Option

/-- A directory takes a node of a new name. -/
def Creatable (s : Tree) (d : ℕ) (name : List UInt8) : Prop := s.isDirectory d = true ∧ s.files d name = none

/-- Where `sys_mkdir` and `sys_mknod` make the node of a path -/
def Tree.parentOf (s : Tree) (path : List UInt8) : Option ℕ := (adirname path).bind fun dir => fsWalk s s.root dir

section Create
variable {s s' : Tree} {cwd d : ℕ} {name path : List UInt8} {inode : Inode}

section
variable (s : Tree) (d : ℕ) (name : List UInt8) (inode : Inode)

theorem Tree.create_isDirectory (made : cwd < s.next) :
    (s.create d name inode).isDirectory cwd = s.isDirectory cwd := by
  simp [Tree.isDirectory, Tree.create, Function.update_of_ne (Nat.ne_of_lt made)]

theorem Tree.create_files_self : (s.create d name inode).files d name = some s.next := by
  simp [Tree.create]

theorem Tree.create_files {other : List UInt8} (made : cwd < s.next) (differs : ¬(cwd = d ∧ other = name)) :
    (s.create d name inode).files cwd other = s.files cwd other := by
  by_cases same : cwd = d
  · subst same
    have renamed : other ≠ name := fun equal => differs ⟨rfl, equal⟩
    simp [Tree.create, renamed]
  · simp [Tree.create, same, Nat.ne_of_lt made]

end

theorem Tree.create_files_cases {other : List UInt8} {i : ℕ}
    (found : (s.create d name inode).files cwd other = some i) :
    (cwd = d ∧ other = name ∧ i = s.next) ∨ s.files cwd other = some i := by
  by_cases same : cwd = d
  · subst same
    by_cases equal : other = name
    · subst equal
      rw [Tree.create_files_self] at found
      exact .inl ⟨rfl, rfl, (Option.some.inj found).symm⟩
    · right
      simpa [Tree.create, equal] using found
  · right
    by_cases new : cwd = s.next
    · subst new
      simp [Tree.create, same] at found
    · simpa [Tree.create, same, new] using found

theorem Tree.Grown.create (grown : s.Grown) (clean : slash ∈ name → name = [slash]) :
    (s.create d name inode).Grown where
  root := by
    change (s.create d name inode).isDirectory s.root = true
    rw [Tree.create_isDirectory _ _ _ _ grown.low]
    exact grown.root
  low := Nat.lt_succ_of_lt grown.low
  names := by
    intro cwd other i found there
    rcases Tree.create_files_cases found with ⟨-, rfl, -⟩ | before
    · exact clean there
    · exact grown.names cwd other i before there
  targets := by
    intro cwd other i found
    rcases Tree.create_files_cases found with ⟨-, -, rfl⟩ | before
    · exact ⟨Nat.lt_succ_self _, (Nat.ne_of_lt grown.low).symm⟩
    · have target := grown.targets cwd other i before
      exact ⟨Nat.lt_succ_of_lt target.1, target.2⟩

/-- A path that was resolved stays resolved when an entry is made. -/
theorem Tree.Grown.resolve_create (grown : s.Grown) (free : s.files d name = none) {names : List (List UInt8)}
    {i : ℕ} (made : cwd < s.next) (resolved : s.resolve cwd names = some i) :
    (s.create d name inode).resolve cwd names = some i := by
  induction names generalizing cwd with
  | nil => exact resolved
  | cons first rest ih =>
    simp only [Tree.resolve, ite_none_right_eq_some] at resolved
    obtain ⟨directory, bound⟩ := resolved
    obtain ⟨next, found, later⟩ := bind_eq_some_iff.mp bound
    have kept : ¬(cwd = d ∧ first = name) := by
      rintro ⟨rfl, rfl⟩
      rw [free] at found
      cases found
    rw [Tree.resolve, Tree.create_isDirectory _ _ _ _ made, if_pos directory,
      Tree.create_files _ _ _ _ made kept, found, bind_some]
    exact ih (grown.targets cwd first next found).1 later

theorem Tree.Grown.fsWalk_lt (grown : s.Grown) {i : ℕ} (walked : fsWalk s s.root path = some i) : i < s.next := by
  rw [grown.fsWalk_eq, ite_none_right_eq_some] at walked
  exact grown.resolve_lt grown.low walked.2

theorem Tree.Grown.parentOf_lt (grown : s.Grown) (found : s.parentOf path = some d) : d < s.next := by
  obtain ⟨dir, -, walked⟩ := bind_eq_some_iff.mp found
  exact grown.fsWalk_lt walked

end Create

section Calls
variable {s s' : Tree} {d : ℕ} {name path : List UInt8} {mode dev : ℕ}

theorem adirname_isSome (given : path ≠ []) : ∃ dir, adirname path = some dir := by
  simp only [adirname, if_neg given]
  split
  · exact ⟨_, rfl⟩
  · split
    · exact ⟨_, rfl⟩
    · split
      · exact ⟨_, rfl⟩
      · exact ⟨_, rfl⟩

theorem abasename_clean (named : abasename path = some name) : slash ∈ name → name = [slash] := by
  simp only [abasename] at named
  split at named
  · cases named
  · split at named
    · intro
      exact (Option.some.inj named).symm
    · intro there
      have same := Option.some.inj named
      have absent : slash ∉ lastComponent slash path := not_mem_lastComponent
      rw [← same] at there
      exact absurd there absent

/-- What a successful `sys_mkdir` or `sys_mknod` does -/
def Created (s : Tree) (path : List UInt8) (s' : Tree) : Prop :=
  ∃ d name inode, s.parentOf path = some d ∧ abasename path = some name ∧ Creatable s d name ∧
    s' = s.create d name inode

theorem sysMkdir_ok (made : sysMkdir s path = .ok s') : Created s path s' := by
  unfold sysMkdir at made
  split at made
  · rename_i dir name directory named
    split at made
    · cases made
    · rename_i d walked
      split at made
      · cases made
      · unfold ramfsMkdir at made
        split at made
        · cases made
        · rename_i isDirectory
          split at made
          · cases made
          · rename_i free
            refine ⟨d, name, _, ?_, named, ⟨?_, ?_⟩, (Except.ok.inj made).symm⟩
            · rw [Tree.parentOf, directory, bind_some, walked]
            · simpa using isDirectory
            · simpa using free
  · cases made

theorem sysMknod_ok (made : sysMknod s path mode dev = .ok s') : Created s path s' := by
  unfold sysMknod at made
  split at made
  · rename_i name dir named directory
    split at made
    · cases made
    · rename_i d walked
      have found : s.parentOf path = some d := by
        rw [Tree.parentOf, directory, bind_some, walked]
      unfold ramfsMknod at made
      split at made
      · cases made
      · rename_i isDirectory
        split at made
        · cases made
        · rename_i free
          have creatable : Creatable s d name := ⟨by simpa using isDirectory, by simpa using free⟩
          split at made
          · exact ⟨d, name, _, found, named, creatable, (Except.ok.inj made).symm⟩
          · split at made
            · exact ⟨d, name, _, found, named, creatable, (Except.ok.inj made).symm⟩
            · split at made
              · exact ⟨d, name, _, found, named, creatable, (Except.ok.inj made).symm⟩
              · cases made
  · cases made

theorem sysMkdir_of_creatable (found : s.parentOf path = some d) (named : abasename path = some name)
    (creatable : Creatable s d name) : sysMkdir s path = .ok (s.create d name ⟨S_IFDIR, 0⟩) := by
  obtain ⟨dir, directory, walked⟩ := bind_eq_some_iff.mp found
  simp [sysMkdir, directory, named, walked, ramfsLookup, ramfsMkdir, creatable.1, creatable.2]

theorem sysMkdir_noent (given : path ≠ []) (named : abasename path = some name) :
    sysMkdir s path = .error .ENOENT ↔ s.parentOf path = none := by
  obtain ⟨dir, directory⟩ := adirname_isSome given
  simp only [sysMkdir, directory, named, Tree.parentOf, bind_some, ramfsMkdir]
  cases fsWalk s s.root dir with
  | none => simp
  | some d => grind

theorem sysMknod_noent (given : path ≠ []) (named : abasename path = some name) :
    sysMknod s path mode dev = .error .ENOENT ↔ s.parentOf path = none := by
  obtain ⟨dir, directory⟩ := adirname_isSome given
  simp only [sysMknod, directory, named, Tree.parentOf, bind_some, ramfsMknod]
  cases fsWalk s s.root dir with
  | none => simp
  | some d => grind

end Calls

section Reachable
variable {s s' : Tree} {path : List UInt8}

theorem Tree.Grown.created (grown : s.Grown) (created : Created s path s') : s'.Grown := by
  obtain ⟨d, name, inode, -, named, -, rfl⟩ := created
  exact grown.create (abasename_clean named)

theorem mount_files (mount : sysMount s path = .ok s') {d i : ℕ} {name : List UInt8} (found : s'.files d name = some i) :
    s.files d name = some i := by
  unfold sysMount at mount
  repeat' split at mount
  all_goals cases mount
  rename_i cwd _ _ _
  dsimp only at found
  by_cases same : d = cwd
  · rw [same, Function.update_self] at found
    cases found
  · rwa [Function.update_of_ne same] at found

theorem mount_isDirectory (mount : sysMount s path = .ok s') {d : ℕ} (directory : s.isDirectory d = true) :
    s'.isDirectory d = true := by
  unfold sysMount at mount
  repeat' split at mount
  all_goals cases mount
  rename_i cwd _ _ _
  by_cases same : d = cwd
  · simp [Tree.isDirectory, same, S_IFDIR]
  · simpa [Tree.isDirectory, same] using directory

theorem Tree.Grown.mount (grown : s.Grown) (mount : sysMount s path = .ok s') : s'.Grown := by
  have places : s'.root = s.root ∧ s'.next = s.next := by
    unfold sysMount at mount
    repeat' split at mount
    all_goals cases mount
    exact ⟨rfl, rfl⟩
  refine ⟨?_, ?_, fun d name inode found => grown.names d name inode (mount_files mount found),
    fun d name inode found => ?_⟩
  · rw [places.1]
    exact mount_isDirectory mount grown.root
  · rw [places.1, places.2]
    exact grown.low
  · rw [places.1, places.2]
    exact grown.targets d name inode (mount_files mount found)

/-- A call leaves the tree alone, makes one node, or is a mount. -/
theorem Tree.apply_cases (s : Tree) (call : Call) : s.apply call = s ∨ (∃ path, Created s path (s.apply call)) ∨
    ∃ target, call = .sysMount target ∧ sysMount s target = .ok (s.apply call) := by
  cases call with
  | sysMount target =>
    simp only [Tree.apply]
    cases mount : sysMount s target with
    | error => exact .inl rfl
    | ok s' => exact .inr (.inr ⟨target, rfl, mount⟩)
  | sysMkdir pathname =>
    simp only [Tree.apply]
    cases made : sysMkdir s pathname with
    | error => exact .inl rfl
    | ok s' => exact .inr (.inl ⟨pathname, sysMkdir_ok made⟩)
  | sysMknod pathname mode dev =>
    simp only [Tree.apply]
    cases made : sysMknod s pathname mode dev with
    | error => exact .inl rfl
    | ok s' => exact .inr (.inl ⟨pathname, sysMknod_ok made⟩)
  | sysOpen pathname flags mode fdnum deviceOpen =>
    simp only [Tree.apply, sysOpen]
    split
    · exact .inl rfl
    · split
      · exact .inl rfl
      · rename_i s' made
        have left : s' = s ∨ Created s pathname s' := by
          split at made
          · exact .inr (sysMknod_ok made)
          · exact .inl (Except.ok.inj made).symm
        split <;> exact left.imp id fun created => .inl ⟨pathname, created⟩

/-- A call keeps the tree grown. -/
theorem Tree.Grown.apply (grown : s.Grown) (call : Call) : (s.apply call).Grown := by
  rcases s.apply_cases call with same | ⟨path, created⟩ | ⟨target, -, mount⟩
  · rw [same]
    exact grown
  · exact grown.created created
  · exact grown.mount mount

theorem mounted_grown : mounted.Grown where
  root := by decide
  low := by decide
  names := fun _ _ _ found => nomatch found
  targets := fun _ _ _ found => nomatch found

theorem grown_of_calls (calls : List Call) : (calls.foldl Tree.apply mounted).Grown := by
  have all (s : Tree) (grown : s.Grown) : (calls.foldl Tree.apply s).Grown := by
    induction calls generalizing s with
    | nil => exact grown
    | cons call rest ih => exact ih (s.apply call) (grown.apply call)
  exact all mounted mounted_grown

end Reachable

section Agreement
variable {s : Tree} {path : List UInt8}

/-- The path with its last component removed leads to the directory of its other components. -/
def Tree.parent (s : Tree) (path : List UInt8) : Option ℕ := s.resolve s.root (components slash path).dropLast

/-- What the calls promise about a path: the node that they make is the one that a walk of the path finds, a missing
parent is the answer only where there is none, and an open file is the node that was made for it. -/
structure CreateThenOpen (s : Tree) (path : List UInt8) : Prop where
  walks : ∀ s', (sysMkdir s path = .ok s' ∨ ∃ mode dev, sysMknod s path mode dev = .ok s') →
    fsWalk s' s'.root path = some s.next
  missing : (sysMkdir s path = .error .ENOENT ∨ ∃ mode dev, sysMknod s path mode dev = .error .ENOENT) →
    s.parent path = none
  opens : ∀ flags mode fdnum deviceOpen inode, flags &&& O_CREAT ≠ 0 → fsWalk s s.root path = none →
    (sysOpen s path flags mode fdnum deviceOpen).2 = .ok inode → inode = s.next

/-- A path where the two ways to read it agree: one without a slash before its last component needs an entry "." of
the root that takes no such node, one with doubled slashes there must have no parent, and one with slashes at its
end must have no place for its node. -/
def Agreeable (s : Tree) (path : List UInt8) : Prop :=
  if beforeLast slash path = [] then
    ∃ entry, s.files s.root [dot] = some entry ∧ ¬Creatable s entry (lastComponent slash path)
  else if endSeparators slash (beforeLast slash path).dropLast ≠ [] ∧ components slash (beforeLast slash path) ≠ [] then
    s.parent path = none
  else endSeparators slash path = [] ∨ ∀ d, s.parent path = some d → ¬Creatable s d (lastComponent slash path)

theorem parent_eq (some : ∃ a ∈ path, a ≠ slash) :
    s.parent path = s.resolve s.root (components slash (beforeLast slash path)) := by
  rw [Tree.parent, components_eq_append some, List.dropLast_concat]

theorem components_dropLast_beforeLast (some : beforeLast slash path ≠ []) :
    components slash (beforeLast slash path).dropLast = components slash (beforeLast slash path) := by
  rcases beforeLast_eq slash path with empty | ⟨dir, same⟩
  · exact absurd empty some
  · rw [same, List.dropLast_concat, components_append, components_nil, List.append_nil]

theorem components_dot : components slash [dot] = [[dot]] :=
  components_name (by decide) (List.cons_ne_nil _ _)

section
variable (grown : s.Grown) (some : ∃ a ∈ path, a ≠ slash)
include grown some

theorem Tree.Grown.parentOf_of_name (plain : beforeLast slash path = []) : s.parentOf path = s.files s.root [dot] := by
  rw [Tree.parentOf, adirname_eq some, if_pos plain, bind_some, grown.fsWalk_eq, components_dot,
    if_pos (.inl (by decide)), Tree.resolve, if_pos grown.root]
  simp [Tree.resolve]

/-- The walk to the directory part of a path finds its parent, unless separators end that part. -/
theorem Tree.Grown.parentOf_eq (plain : beforeLast slash path ≠ []) :
    s.parentOf path =
      if endSeparators slash (beforeLast slash path).dropLast ≠ [] ∧ components slash (beforeLast slash path) ≠ []
      then none else s.parent path := by
  rw [Tree.parentOf, adirname_eq some, if_neg plain, bind_some, parent_eq some]
  by_cases single : beforeLast slash path = [slash]
  · have none : components slash [slash] = [] := by
      rw [components_cons, components_nil]
    rw [if_pos single, grown.fsWalk_eq, single, none, if_pos (.inr rfl), if_neg fun both => both.2 rfl]
  · rw [if_neg single, grown.fsWalk_eq, components_dropLast_beforeLast plain]
    by_cases clean : endSeparators slash (beforeLast slash path).dropLast = []
    · rw [if_pos (.inl clean), if_neg fun both => both.1 clean]
    · by_cases none : components slash (beforeLast slash path) = []
      · rw [if_pos (.inr none), if_neg fun both => both.2 none]
      · rw [if_neg fun either => either.elim clean none, if_pos ⟨clean, none⟩]

/-- A walk of a path finds the node that was made for it when the path has a slash before its last component and
none at its end. -/
theorem Tree.Grown.fsWalk_create {d : ℕ} {inode : Inode} (found : s.parentOf path = Option.some d)
    (creatable : Creatable s d (lastComponent slash path)) :
    fsWalk (s.create d (lastComponent slash path) inode) s.root path =
      if beforeLast slash path = [] then fsWalk s s.root path
      else if endSeparators slash path = [] then Option.some s.next else none := by
  have grown' : (s.create d (lastComponent slash path) inode).Grown := grown.create (abasename_clean (abasename_eq some))
  have walked := grown'.fsWalk_eq path
  have root : (s.create d (lastComponent slash path) inode).root = s.root := rfl
  rw [root] at walked
  have parts := components_eq_append some
  have more : components slash path ≠ [] := by
    rw [parts]
    exact List.append_ne_nil_of_right_ne_nil _ (List.cons_ne_nil _ _)
  rw [walked]
  by_cases plain : beforeLast slash path = []
  · rw [grown.parentOf_of_name some plain] at found
    have other : ¬(s.root = d ∧ lastComponent slash path = lastComponent slash path) := by
      rintro ⟨same, -⟩
      exact (grown.targets _ _ _ found).2 same.symm
    have single : components slash path = [lastComponent slash path] := by
      rw [parts, plain, components_nil, List.nil_append]
    have same : (s.create d (lastComponent slash path) inode).resolve s.root (components slash path) =
        s.resolve s.root (components slash path) := by
      rw [single, Tree.resolve, Tree.resolve, Tree.create_isDirectory _ _ _ _ grown.low,
        Tree.create_files _ _ _ _ grown.low other]
      rfl
    rw [same, if_pos plain, grown.fsWalk_eq]
  · have low := grown.parentOf_lt found
    rw [grown.parentOf_eq some plain, Option.ite_none_left_eq_some, parent_eq some] at found
    have last : (s.create d (lastComponent slash path) inode).resolve d [lastComponent slash path] =
        Option.some s.next := by
      rw [Tree.resolve, Tree.create_isDirectory _ _ _ _ low, if_pos creatable.1, Tree.create_files_self]
      rfl
    rw [parts, Tree.resolve_append, grown.resolve_create creatable.2 grown.low found.2, bind_some, last, if_neg plain, ← parts]
    simp [more]

end

theorem openInode_ok {s : Tree} {i j : ℕ} {fdnum : Except Errno ℕ} {deviceOpen : ℕ → Option Errno}
    (opened : openInode s i fdnum deviceOpen = .ok j) : j = i := by
  unfold openInode at opened
  cases fdnum with
  | error => cases opened
  | ok number =>
    change (if s.isCharDevice i then _ else _) = _ at opened
    split at opened
    · split at opened
      · cases opened
      · exact (Except.ok.inj opened).symm
    · exact (Except.ok.inj opened).symm

theorem Tree.Grown.sysOpen_ok (grown : s.Grown) {flags mode : ℕ} {fdnum : Except Errno ℕ}
    {deviceOpen : ℕ → Option Errno} {inode : ℕ} (create : flags &&& O_CREAT ≠ 0) (absent : fsWalk s s.root path = none)
    (opened : (sysOpen s path flags mode fdnum deviceOpen).2 = .ok inode) : inode = s.next := by
  have some : ∃ a ∈ path, a ≠ slash := by
    by_contra only
    have all (a : UInt8) (there : a ∈ path) : a = slash := by
      by_contra differs
      exact only ⟨a, there, differs⟩
    rw [grown.fsWalk_eq, components_eq_nil all, if_pos (.inr rfl)] at absent
    cases absent
  simp only [sysOpen, absent, Option.isSome_none, Bool.false_eq_true, false_and, ↓reduceIte, true_and, create,
    ne_eq, not_false_eq_true] at opened
  split at opened
  · cases opened
  · rename_i s' made
    obtain ⟨d, name, node, found, named, creatable, rfl⟩ := sysMknod_ok made
    rw [abasename_eq some] at named
    obtain rfl := Option.some.inj named
    split at opened
    · cases opened
    · rename_i i walk
      rw [openInode_ok opened]
      change fsWalk _ s.root path = _ at walk
      rw [grown.fsWalk_create some found creatable, absent] at walk
      split at walk
      · cases walk
      · split at walk
        · exact (Option.some.inj walk).symm
        · cases walk

/-- When the creation of a path and its opening agree. -/
theorem Tree.Grown.createThenOpen_iff (grown : s.Grown) (some : ∃ a ∈ path, a ≠ slash) :
    CreateThenOpen s path ↔
      (∀ d, s.parentOf path = Option.some d → Creatable s d (lastComponent slash path) →
        beforeLast slash path ≠ [] ∧ endSeparators slash path = []) ∧
      (s.parentOf path = none → s.parent path = none) := by
  have given : path ≠ [] := by
    obtain ⟨a, there, -⟩ := some
    exact List.ne_nil_of_mem there
  have named : abasename path = Option.some (lastComponent slash path) := abasename_eq some
  constructor
  · intro promise
    constructor
    · intro d found creatable
      have walk := promise.walks _ (.inl (sysMkdir_of_creatable found named creatable))
      change fsWalk _ s.root path = _ at walk
      rw [grown.fsWalk_create some found creatable] at walk
      split at walk
      · exact absurd (grown.fsWalk_lt walk) (Nat.lt_irrefl _)
      · rename_i plain
        refine ⟨plain, ?_⟩
        by_contra ends
        rw [if_neg ends] at walk
        cases walk
    · intro missing
      exact promise.missing (.inl ((sysMkdir_noent given named).mpr missing))
  · rintro ⟨places, missing⟩
    have walks (s' : Tree) (created : Created s path s') : fsWalk s' s'.root path = Option.some s.next := by
      obtain ⟨d, name, node, found, same, creatable, rfl⟩ := created
      obtain rfl := Option.some.inj (named.symm.trans same)
      obtain ⟨plain, clean⟩ := places d found creatable
      change fsWalk _ s.root path = _
      rw [grown.fsWalk_create some found creatable, if_neg plain, if_pos clean]
    refine ⟨?_, ?_, fun _ _ _ _ _ create absent opened => grown.sysOpen_ok create absent opened⟩
    · rintro s' (made | ⟨mode, dev, made⟩)
      · exact walks s' (sysMkdir_ok made)
      · exact walks s' (sysMknod_ok made)
    · rintro (failed | ⟨mode, dev, failed⟩)
      · exact missing ((sysMkdir_noent given named).mp failed)
      · exact missing ((sysMknod_noent given named).mp failed)

end Agreement

/-- The calls keep their promise about a path exactly when the two ways to read the path agree. -/
theorem sys_mkdir_then_open (calls : List Call) (path : List UInt8) (some : ∃ a ∈ path, a ≠ slash) :
    CreateThenOpen (calls.foldl Tree.apply mounted) path ↔ Agreeable (calls.foldl Tree.apply mounted) path := by
  have grown := grown_of_calls calls
  generalize calls.foldl Tree.apply mounted = s at grown
  rw [grown.createThenOpen_iff some, Agreeable]
  split
  · rename_i plain
    have root : s.parent path = Option.some s.root := by
      rw [parent_eq some, plain, components_nil, Tree.resolve]
    rw [grown.parentOf_of_name some plain, root]
    constructor
    · rintro ⟨places, missing⟩
      cases found : s.files s.root [dot] with
      | none => cases missing found
      | some entry => exact ⟨entry, rfl, fun creatable => (places entry found creatable).1 plain⟩
    · rintro ⟨entry, found, taken⟩
      constructor
      · intro d same creatable
        rw [found] at same
        obtain rfl := Option.some.inj same
        exact absurd creatable taken
      · intro missing
        rw [found] at missing
        cases missing
  · rename_i plain
    rw [grown.parentOf_eq some plain]
    split
    · constructor
      · intro promise
        exact promise.2 rfl
      · intro missing
        refine ⟨?_, fun _ => missing⟩
        intro d found
        cases found
    · constructor
      · rintro ⟨places, -⟩
        by_cases clean : endSeparators slash path = []
        · exact .inl clean
        · exact .inr fun d found creatable => clean (places d found creatable).2
      · intro clean
        refine ⟨fun d found creatable => ⟨plain, ?_⟩, id⟩
        exact clean.resolve_right fun taken => taken d found creatable

/-- "/a" in a tree with a directory "/b" -/
theorem sys_mkdir_then_open_plain :
    CreateThenOpen ([Call.sysMkdir [47, 98]].foldl Tree.apply mounted) [47, 97] :=
  (sys_mkdir_then_open [.sysMkdir [47, 98]] [47, 97] ⟨97, by decide, by decide⟩).mpr (by
    rw [Agreeable, if_neg (by decide), if_neg (by decide)]
    exact .inl (by decide))

/-- `sys_mkdir` of "/a/" makes a node that a walk of "/a/" misses, `sys_mkdir` of "a" finds no parent although the
root is there, and `sys_mkdir` of "/a//b" finds none although "/a" is there. -/
theorem sys_mkdir_then_open_disagrees :
    ¬CreateThenOpen mounted [47, 97, 47] ∧ ¬CreateThenOpen mounted [97] ∧
      ¬CreateThenOpen (mounted.apply (.sysMkdir [47, 97])) [47, 97, 47, 47, 98] := by
  refine ⟨fun promise => ?_, fun promise => ?_, fun promise => ?_⟩
  · have walk := promise.walks (mounted.create 0 [97] ⟨S_IFDIR, 0⟩) (.inl rfl)
    revert walk
    decide
  · have missing := promise.missing (.inl rfl)
    revert missing
    decide
  · have missing := promise.missing (.inl rfl)
    revert missing
    decide

end Phabos.Fs
