import Phabos.Construction.Fs.Descriptor
import Phabos.Library.Run

namespace Phabos.Fd
open Library Function Option
open Fs (S_IFDIR)

/-- A descriptor of a task is an open file of an inode, once `sys_open` has its dlock. -/
def IsOpen (s : Machine) (inode task fdnum : ℕ) : Prop :=
  s.fd task fdnum = some inode ∧ s.activity task ≠ .opening fdnum

/-- A directory has at most one open file, and its dlock is available exactly when it has none. -/
structure Exclusive (s : Machine) : Prop where
  one : ∀ inode, (s.inode inode).isDirectory = true → ∀ task fdnum task' fdnum',
    IsOpen s inode task fdnum → IsOpen s inode task' fdnum' → task = task' ∧ fdnum = fdnum'
  available : ∀ inode, (s.inode inode).isDirectory = true →
    (0 < (s.inode inode).dlock ↔ ∀ task fdnum, ¬IsOpen s inode task fdnum)

/-- The dlock of a directory has its one permit, or its one open file has it. -/
def Held (s : Machine) (inode : ℕ) : Prop :=
  ((s.inode inode).dlock = 1 ∧ ∀ task fdnum, ¬IsOpen s inode task fdnum) ∨
    ((s.inode inode).dlock = 0 ∧ ∃ task fdnum, IsOpen s inode task fdnum ∧
      ∀ task' fdnum', IsOpen s inode task' fdnum' → task' = task ∧ fdnum' = fdnum)

/-- What holds between the calls: a directory whose mount may still fail keeps a copy with a free dlock. -/
structure Locked (s : Machine) : Prop where
  opening : ∀ task fdnum, s.activity task = .opening fdnum → ∃ inode, s.fd task fdnum = some inode
  mounting : ∀ task cwd, s.activity task = .mounting cwd →
    ∃ inode, s.mountedInode cwd = some inode ∧ inode.dlock = 1 ∧ inode.isDirectory = true
  once : ∀ task task' cwd, s.activity task = .mounting cwd → s.activity task' = .mounting cwd → task = task'
  held : ∀ inode, (s.inode inode).isDirectory = true → Held s inode

section Lock
variable {s s' : Machine} {inode task fdnum cwd : ℕ}

/-- A directory has one opener at a time. -/
theorem Locked.exclusive (locked : Locked s) : Exclusive s where
  one := by
    intro inode directory task fdnum task' fdnum' first second
    rcases locked.held inode directory with ⟨-, none⟩ | ⟨-, owner, number, -, only⟩
    · exact absurd first (none task fdnum)
    · obtain ⟨rfl, rfl⟩ := only task fdnum first
      obtain ⟨rfl, rfl⟩ := only task' fdnum' second
      exact ⟨rfl, rfl⟩
  available := by
    intro inode directory
    rcases locked.held inode directory with ⟨free, none⟩ | ⟨taken, owner, number, isOpen, -⟩
    · rw [free]
      exact ⟨fun _ => none, fun _ => Nat.one_pos⟩
    · rw [taken]
      exact ⟨fun positive => absurd positive (Nat.lt_irrefl 0), fun none => absurd isOpen (none owner number)⟩

/-- Nothing is locked or open at first. -/
theorem initial_locked (flags : ℕ → ℕ) : Locked (.initial flags) where
  opening := fun _ _ found => nomatch found
  mounting := fun _ _ found => nomatch found
  once := fun _ _ _ found => nomatch found
  held := fun _ _ => .inl ⟨rfl, fun _ _ isOpen => nomatch isOpen.1⟩

theorem Held.congr (held : Held s inode) (count : (s'.inode inode).dlock = (s.inode inode).dlock)
    (same : ∀ task fdnum, IsOpen s' inode task fdnum ↔ IsOpen s inode task fdnum) : Held s' inode := by
  simp only [Held, count, same]
  exact held

theorem update_descriptor (fd : ℕ → ℕ → Option ℕ) (task fdnum : ℕ) (value : Option ℕ) (t n : ℕ) :
    update fd task (update (fd task) fdnum value) t n =
      if t = task ∧ n = fdnum then value else fd t n := by
  by_cases same : t = task
  · subst same
    by_cases number : n = fdnum
    · simp [number]
    · simp [number]
  · simp [same]

theorem taskFreeFdnum_activity (s : Machine) (task fdnum : ℕ) :
    (taskFreeFdnum s task fdnum).activity = s.activity := by
  unfold taskFreeFdnum
  split
  · rfl
  · rfl

theorem taskFreeFdnum_mountedInode (s : Machine) (task fdnum : ℕ) :
    (taskFreeFdnum s task fdnum).mountedInode = s.mountedInode := by
  unfold taskFreeFdnum
  split
  · rfl
  · rfl

theorem taskFreeFdnum_fd (s : Machine) (task fdnum t n : ℕ) :
    (taskFreeFdnum s task fdnum).fd t n = if t = task ∧ n = fdnum then none else s.fd t n := by
  unfold taskFreeFdnum
  split
  · rename_i missing
    split
    · rename_i same
      rw [same.1, same.2, missing]
    · rfl
  · exact update_descriptor s.fd task fdnum none t n

theorem taskFreeFdnum_inode (s : Machine) (task fdnum d : ℕ) :
    (taskFreeFdnum s task fdnum).inode d =
      if s.fd task fdnum = some d ∧ (s.inode d).isDirectory = true then (s.inode d).mutexUnlock else s.inode d := by
  unfold taskFreeFdnum
  split
  · rename_i missing
    simp [missing]
  · rename_i i found
    simp only [found, some.injEq]
    by_cases same : i = d
    · subst same
      by_cases directory : (s.inode i).isDirectory = true
      · simp [directory]
      · simp [directory]
    · by_cases directory : (s.inode i).isDirectory = true
      · simp [directory, same, Ne.symm same]
      · simp [directory, same]

theorem Locked.taskFreeFdnum (locked : Locked s) (complete : s.activity task ≠ .opening fdnum) :
    Locked (taskFreeFdnum s task fdnum) where
  opening := by
    intro t n isOpening
    rw [taskFreeFdnum_activity] at isOpening
    have other : ¬(t = task ∧ n = fdnum) := by
      rintro ⟨rfl, rfl⟩
      exact complete isOpening
    rw [taskFreeFdnum_fd, if_neg other]
    exact locked.opening t n isOpening
  mounting := by
    rw [taskFreeFdnum_activity, taskFreeFdnum_mountedInode]
    exact locked.mounting
  once := by
    rw [taskFreeFdnum_activity]
    exact locked.once
  held := by
    intro d directory
    have before : (s.inode d).isDirectory = true := by
      rw [taskFreeFdnum_inode] at directory
      split at directory
      · exact directory
      · exact directory
    have open_iff (t n : ℕ) : IsOpen (Fd.taskFreeFdnum s task fdnum) d t n ↔
        ¬(t = task ∧ n = fdnum) ∧ IsOpen s d t n := by
      rw [IsOpen, IsOpen, taskFreeFdnum_activity, taskFreeFdnum_fd, ite_none_left_eq_some, and_assoc]
    by_cases found : s.fd task fdnum = some d
    · have isOpen : IsOpen s d task fdnum := ⟨found, complete⟩
      rcases locked.held d before with ⟨-, none⟩ | ⟨taken, owner, number, -, only⟩
      · exact absurd isOpen (none task fdnum)
      · left
        rw [taskFreeFdnum_inode, if_pos ⟨found, before⟩]
        refine ⟨by rw [Inode.mutexUnlock, taken], fun t n other => ?_⟩
        rw [open_iff] at other
        obtain ⟨rfl, rfl⟩ := only task fdnum isOpen
        exact other.1 (only t n other.2)
    · refine (locked.held d before).congr ?_ fun t n => ?_
      · rw [taskFreeFdnum_inode, if_neg fun both => found both.1]
      · rw [open_iff, and_iff_right_iff_imp]
        rintro isOpen ⟨rfl, rfl⟩
        exact found isOpen.1

theorem Locked.taskDestroy (locked : Locked s) (outside : ∀ fdnum, s.activity task ≠ .opening fdnum) :
    Locked (taskDestroy s task) := by
  have all (numbers : List ℕ) (s : Machine) (locked : Locked s)
      (outside : ∀ fdnum, s.activity task ≠ .opening fdnum) :
      Locked (numbers.foldl (fun s fdnum => Fd.taskFreeFdnum s task fdnum) s) := by
    induction numbers generalizing s with
    | nil => exact locked
    | cons fdnum rest ih =>
      refine ih (Fd.taskFreeFdnum s task fdnum) (locked.taskFreeFdnum (outside fdnum)) fun number => ?_
      rw [taskFreeFdnum_activity]
      exact outside number
  exact all _ s locked outside

theorem update_activity {activity : ℕ → Activity} {a b : Activity} {t : ℕ}
    (now : update activity task a t = b) : (t = task ∧ a = b) ∨ (t ≠ task ∧ activity t = b) := by
  by_cases same : t = task
  · subst same
    rw [update_self] at now
    exact .inl ⟨rfl, now⟩
  · rw [update_of_ne same] at now
    exact .inr ⟨same, now⟩

theorem Locked.opening_update (locked : Locked s) {a : Activity} (elsewhere : ∀ fdnum, a ≠ .opening fdnum) (t n : ℕ)
    (opening : update s.activity task a t = .opening n) : ∃ d, s.fd t n = some d := by
  rcases update_activity opening with ⟨-, same⟩ | ⟨-, before⟩
  · exact absurd same (elsewhere n)
  · exact locked.opening t n before

theorem Locked.mounting_update (locked : Locked s) {a : Activity} (elsewhere : ∀ cwd, a ≠ .mounting cwd) (t cwd : ℕ)
    (mounting : update s.activity task a t = .mounting cwd) :
    ∃ inode, s.mountedInode cwd = some inode ∧ inode.dlock = 1 ∧ inode.isDirectory = true := by
  rcases update_activity mounting with ⟨-, same⟩ | ⟨-, before⟩
  · exact absurd same (elsewhere cwd)
  · exact locked.mounting t cwd before

theorem Locked.once_update (locked : Locked s) {a : Activity} (elsewhere : ∀ cwd, a ≠ .mounting cwd) (t t' cwd : ℕ)
    (first : update s.activity task a t = .mounting cwd)
    (second : update s.activity task a t' = .mounting cwd) : t = t' := by
  rcases update_activity first with ⟨-, same⟩ | ⟨-, before⟩
  · exact absurd same (elsewhere cwd)
  · rcases update_activity second with ⟨-, same⟩ | ⟨-, before'⟩
    · exact absurd same (elsewhere cwd)
    · exact locked.once t t' cwd before before'

theorem ne_opening_update {activity : ℕ → Activity} {a : Activity} (before : ∀ n, activity task ≠ .opening n)
    (after : ∀ n, a ≠ .opening n) (t n : ℕ) :
    update activity task a t ≠ .opening n ↔ activity t ≠ .opening n := by
  by_cases same : t = task
  · subst same
    rw [update_self]
    exact ⟨fun _ => before n, fun _ => after n⟩
  · rw [update_of_ne same]

theorem allocateFdnum_free (found : allocateFdnum s task = some fdnum) : s.fd task fdnum = none := by
  have free := List.find?_some found
  exact isNone_iff_eq_none.mp free

section
variable (locked : Locked s)
include locked

theorem Locked.openFile (program : s.activity task = .program) (inode : ℕ) : Locked (openFile s task inode) := by
  unfold Fd.openFile
  split
  · exact locked
  · rename_i fdnum found
    have free := allocateFdnum_free found
    refine ⟨?_, locked.mounting_update nofun, locked.once_update nofun, ?_⟩
    · intro t n isOpening
      change ∃ d, update s.fd task _ t n = some d
      rw [update_descriptor]
      split
      · exact ⟨inode, rfl⟩
      · rename_i differs
        rcases update_activity isOpening with ⟨rfl, same⟩ | ⟨-, before⟩
        · exact absurd ⟨rfl, (Activity.opening.inj same).symm⟩ differs
        · exact locked.opening t n before
    · intro d directory
      refine (locked.held d directory).congr rfl fun t n => ?_
      change (update s.fd task _ t n = some d ∧ update s.activity task _ t ≠ .opening n) ↔ _ ∧ _
      rw [update_descriptor]
      by_cases equal : t = task
      · subst equal
        rw [update_self, program]
        by_cases number : n = fdnum
        · subst number
          simp [free]
        · simp [number, Ne.symm number]
      · rw [update_of_ne equal, if_neg fun both => equal both.1]

theorem Locked.lockDirectory (isOpening : s.activity task = .opening fdnum) {i : ℕ} (found : s.fd task fdnum = some i)
    (locking : lockDirectory { s with activity := update s.activity task .program } i = some s') :
    Locked s' ∧ s'.activity task = .program := by
  have open_iff (d t n : ℕ) :
      (s.fd t n = some d ∧ update s.activity task .program t ≠ .opening n) ↔
        (d = i ∧ t = task ∧ n = fdnum) ∨ IsOpen s d t n := by
    unfold IsOpen
    by_cases equal : t = task
    · subst equal
      rw [update_self, isOpening]
      by_cases number : n = fdnum
      · subst number
        simp [found, eq_comm]
      · simp [number, Ne.symm number]
    · rw [update_of_ne equal]
      simp [equal]
  unfold Fd.lockDirectory at locking
  split at locking
  · rename_i directory
    obtain ⟨positive, rfl⟩ := ite_some_none_eq_some.mp locking
    refine ⟨⟨locked.opening_update nofun, locked.mounting_update nofun, locked.once_update nofun, ?_⟩, update_self ..⟩
    intro d isDirectory
    by_cases same : d = i
    · subst same
      rcases locked.held d directory with ⟨free, none⟩ | ⟨taken, -⟩
      · refine .inr ⟨?_, task, fdnum, (open_iff d task fdnum).mpr (.inl ⟨rfl, rfl, rfl⟩), fun t n isOpen => ?_⟩
        · simp [free]
        · rcases (open_iff d t n).mp isOpen with ⟨-, rfl, rfl⟩ | before
          · exact ⟨rfl, rfl⟩
          · exact absurd before (none t n)
      · exact absurd positive (by simp [taken])
    · have before : (s.inode d).isDirectory = true := by
        simpa [same] using isDirectory
      refine (locked.held d before).congr (by simp [same]) fun t n => ?_
      exact (open_iff d t n).trans (or_iff_right fun all => same all.1)
  · rename_i other
    obtain rfl := some.inj locking
    refine ⟨⟨locked.opening_update nofun, locked.mounting_update nofun, locked.once_update nofun, ?_⟩, update_self ..⟩
    intro d isDirectory
    refine (locked.held d isDirectory).congr rfl fun t n => ?_
    refine (open_iff d t n).trans (or_iff_right ?_)
    rintro ⟨rfl, -⟩
    exact other isDirectory

theorem Locked.lockFile (isOpening : s.activity task = .opening fdnum) {refused : Bool}
    (stepped : lockFile s task fdnum refused = some s') : Locked s' := by
  obtain ⟨i, found, stepped⟩ := bind_eq_some_iff.mp stepped
  obtain ⟨s₁, locking, same⟩ := map_eq_some_iff.mp stepped
  obtain ⟨locked₁, program⟩ := locked.lockDirectory isOpening found locking
  rw [← same]
  split
  · refine locked₁.taskFreeFdnum ?_
    rw [program]
    nofun
  · exact locked₁

theorem Locked.mountBegin (program : s.activity task = .program)
    (closed : (s.inode cwd).isDirectory = true → s.mountedInode cwd = none → ∀ t n, ¬IsOpen s cwd t n) :
    Locked (mountBegin s task cwd) := by
  unfold Fd.mountBegin
  split
  · exact locked
  · rename_i isDirectory
    have directory : (s.inode cwd).isDirectory = true := by
      simpa using isDirectory
    split
    · exact locked
    · rename_i isMounted
      have unmounted : s.mountedInode cwd = none := by
        simpa using isMounted
      have none := closed directory unmounted
      have outside (n : ℕ) : s.activity task ≠ .opening n := by
        rw [program]
        nofun
      have others (t d : ℕ) (mounting : s.activity t = .mounting d) : d ≠ cwd := by
        rintro rfl
        obtain ⟨saved, there, -⟩ := locked.mounting t d mounting
        rw [unmounted] at there
        cases there
      have free : (s.inode cwd).dlock = 1 := by
        rcases locked.held cwd directory with ⟨free, -⟩ | ⟨-, owner, number, isOpen, -⟩
        · exact free
        · exact absurd isOpen (none owner number)
      refine ⟨locked.opening_update nofun, ?_, ?_, ?_⟩
      · intro t d now
        rcases update_activity now with ⟨-, same⟩ | ⟨-, before⟩
        · obtain rfl := Activity.mounting.inj same
          exact ⟨s.inode cwd, update_self .., free, directory⟩
        · change ∃ saved, update s.mountedInode cwd _ d = some saved ∧ _
          rw [update_of_ne (others t d before)]
          exact locked.mounting t d before
      · intro t t' d first second
        rcases update_activity first with ⟨rfl, same⟩ | ⟨-, before⟩
        · rcases update_activity second with ⟨rfl, -⟩ | ⟨-, before'⟩
          · rfl
          · exact absurd (Activity.mounting.inj same).symm (others t' d before')
        · rcases update_activity second with ⟨-, same⟩ | ⟨-, before'⟩
          · exact absurd (Activity.mounting.inj same).symm (others t d before)
          · exact locked.once t t' d before before'
      · intro d now
        have open_iff (t n : ℕ) :
            (s.fd t n = some d ∧ update s.activity task (.mounting cwd) t ≠ .opening n) ↔ IsOpen s d t n :=
          and_congr_right' (ne_opening_update (a := .mounting cwd) outside nofun t n)
        by_cases same : d = cwd
        · subst same
          refine .inl ⟨?_, fun t n isOpen => none t n ((open_iff t n).mp isOpen)⟩
          simp [inodeInit]
        · have before : (s.inode d).isDirectory = true := by
            simpa [same] using now
          exact (locked.held d before).congr (by simp [same]) open_iff

theorem Locked.mountEnd (mounting : s.activity task = .mounting cwd) {failed : Bool}
    (closed : failed = true → ∀ t n, ¬IsOpen s cwd t n) : Locked (mountEnd s task cwd failed) := by
  have outside (n : ℕ) : s.activity task ≠ .opening n := by
    rw [mounting]
    nofun
  have open_iff (d t n : ℕ) :
      (s.fd t n = some d ∧ update s.activity task .program t ≠ .opening n) ↔ IsOpen s d t n :=
    and_congr_right' (ne_opening_update (a := .program) outside nofun t n)
  obtain ⟨saved, there, free, directory⟩ := locked.mounting task cwd mounting
  cases failed with
  | false =>
    refine ⟨locked.opening_update nofun, locked.mounting_update nofun, locked.once_update nofun, ?_⟩
    intro d isDirectory
    exact (locked.held d isDirectory).congr rfl (open_iff d)
  | true =>
    simp only [Fd.mountEnd, errorMount, there, ↓reduceIte]
    refine ⟨locked.opening_update nofun, ?_, locked.once_update nofun, ?_⟩
    · intro t d now
      rcases update_activity now with ⟨-, same⟩ | ⟨differs, before⟩
      · cases same
      · have other : d ≠ cwd := by
          rintro rfl
          exact differs (locked.once t task d before mounting)
        change ∃ saved, update s.mountedInode cwd _ d = some saved ∧ _
        rw [update_of_ne other]
        exact locked.mounting t d before
    · intro d now
      by_cases same : d = cwd
      · subst same
        refine .inl ⟨?_, fun t n isOpen => closed rfl t n ((open_iff d t n).mp isOpen)⟩
        simp [free]
      · have before : (s.inode d).isDirectory = true := by
          simpa [same] using now
        exact (locked.held d before).congr (by simp [same]) (open_iff d)

theorem Locked.terminate
    (safe : ∀ n i, s.activity task = .opening n → s.fd task n = some i → (s.inode i).isDirectory = false) :
    Locked (Fd.taskDestroy { s with activity := update s.activity task .destroyed } task) := by
  refine Locked.taskDestroy
    ⟨locked.opening_update nofun, locked.mounting_update nofun, locked.once_update nofun, ?_⟩ ?_
  · intro d directory
    refine (locked.held d directory).congr rfl fun t n => ?_
    refine and_congr_right fun found => ?_
    change update s.activity task .destroyed t ≠ .opening n ↔ s.activity t ≠ .opening n
    by_cases same : t = task
    · subst same
      rw [update_self]
      refine ⟨fun _ isOpening => ?_, fun _ => nofun⟩
      have other := safe n d isOpening found
      rw [directory] at other
      cases other
    · rw [update_of_ne same]
  · intro n
    change update s.activity task .destroyed task ≠ _
    rw [update_self]
    nofun

end

end Lock

/-- A mount starts on no directory with an open file and fails on none, and no task is destroyed that is in the
`sys_open` of a directory without its dlock. -/
def Harmless (s : Machine) : Step → Prop
  | .sysMount _ target => (s.inode target).isDirectory = true → s.mountedInode target = none →
      ∀ task fdnum, ¬IsOpen s target task fdnum
  | .mountReturns task failed => ∀ cwd, s.activity task = .mounting cwd → failed = true →
      ∀ task fdnum, ¬IsOpen s cwd task fdnum
  | .terminate task => ∀ fdnum inode, s.activity task = .opening fdnum → s.fd task fdnum = some inode →
      (s.inode inode).isDirectory = false
  | _ => True

/-- A harmless step keeps the lock of each directory with the task that has it open. -/
theorem Locked.step {s s' : Machine} {action : Step} (locked : Locked s) (harmless : Harmless s action)
    (stepped : step s action = some s') : Locked s' := by
  cases action with
  | sysOpen task inode =>
    obtain ⟨program, rfl⟩ := ite_some_none_eq_some.mp stepped
    exact locked.openFile program inode
  | mutexLock task refused =>
    simp only [Fd.step] at stepped
    split at stepped
    · rename_i fdnum isOpening
      exact locked.lockFile isOpening stepped
    · cases stepped
  | sysClose task fdnum =>
    obtain ⟨program, rfl⟩ := ite_some_none_eq_some.mp stepped
    refine locked.taskFreeFdnum ?_
    rw [program]
    nofun
  | sysMount task target =>
    obtain ⟨program, rfl⟩ := ite_some_none_eq_some.mp stepped
    exact locked.mountBegin program harmless
  | mountReturns task failed =>
    simp only [Fd.step] at stepped
    split at stepped
    · rename_i cwd mounting
      obtain rfl := some.inj stepped
      exact locked.mountEnd mounting (harmless cwd mounting)
    · cases stepped
  | terminate task =>
    obtain ⟨-, same⟩ := ite_none_left_eq_some.mp stepped
    obtain rfl := some.inj same
    exact locked.terminate harmless

/-- In every run of harmless steps a directory has at most one open file, and its dlock is available exactly when it
has none. -/
theorem sys_open_excludes (flags : ℕ → ℕ) (actions : List Step) (final : Machine)
    (harmless : Guarded step Harmless (.initial flags) actions)
    (ran : run step (.initial flags) actions = some final) : Exclusive final := by
  have locked : Locked final := run_invariant_of_guarded Locked (initial_locked flags) harmless ran fun locked =>
    locked.step
  exact locked.exclusive

/-- A mount that fails, two tasks that open a directory one after the other, and the end of the second one -/
theorem sys_open_excludes_second :
    ∃ final, run step (.initial fun _ => S_IFDIR) [.sysMount 0 1, .mountReturns 0 true, .sysOpen 0 1,
      .mutexLock 0 false, .sysOpen 1 1, .sysClose 0 0, .mutexLock 1 false, .terminate 1] = some final ∧
      Exclusive final := by
  refine ⟨_, rfl, sys_open_excludes (fun _ => S_IFDIR) [.sysMount 0 1, .mountReturns 0 true, .sysOpen 0 1,
    .mutexLock 0 false, .sysOpen 1 1, .sysClose 0 0, .mutexLock 1 false, .terminate 1] _ ?_ rfl⟩
  refine Guarded.cons (fun _ _ _ _ isOpen => nomatch isOpen.1) rfl ?_
  refine Guarded.cons (fun _ _ _ _ _ isOpen => nomatch isOpen.1) rfl ?_
  refine Guarded.cons trivial rfl (Guarded.cons trivial rfl (Guarded.cons trivial rfl ?_))
  refine Guarded.cons trivial rfl (Guarded.cons trivial rfl ?_)
  exact Guarded.cons (fun _ _ isOpening => nomatch isOpening) rfl trivial

/-- A mount on a directory with an open file lets a second task open it, and the end of a task that waits for the
dlock makes the dlock available while another task has the directory open. -/
theorem sys_mount_unlocks_open_directory :
    (∃ final, run step (.initial fun _ => S_IFDIR) [.sysOpen 0 1, .mutexLock 0 false, .sysMount 1 1,
      .mountReturns 1 false, .sysOpen 2 1, .mutexLock 2 false] = some final ∧
      IsOpen final 1 0 0 ∧ IsOpen final 1 2 0 ∧ ¬Exclusive final) ∧
    ∃ final, run step (.initial fun _ => S_IFDIR) [.sysOpen 0 1, .mutexLock 0 false, .sysOpen 1 1,
      .terminate 1] = some final ∧ IsOpen final 1 0 0 ∧ ¬Exclusive final := by
  constructor
  · refine ⟨_, rfl, ⟨rfl, nofun⟩, ⟨rfl, nofun⟩, fun exclusive => ?_⟩
    have same := exclusive.one 1 rfl 0 0 2 0 ⟨rfl, nofun⟩ ⟨rfl, nofun⟩
    exact absurd same.1 (by decide)
  · refine ⟨_, rfl, ⟨rfl, nofun⟩, fun exclusive => ?_⟩
    exact (exclusive.available 1 rfl).mp (by decide) 0 0 ⟨rfl, nofun⟩

end Phabos.Fd
