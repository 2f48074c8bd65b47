import Phabos.Construction.Lib.Semaphore
import Phabos.Library.Counting
import Phabos.Library.Run

namespace Phabos.Sem
open Library Function Option List

/-- The count is what was given, increased by the increments and decreased by the successful calls; it is not
negative, and no interrupted call changed it. -/
structure Semaphore.Conserves (val : BitVec 32) (s : Semaphore) : Prop where
  permits : s.count.toInt = val.toNat + s.unlocks - s.successes
  nonnegative : 0 ≤ s.count.toInt
  unchanged : ∀ counts ∈ s.interrupted, counts.1 = counts.2

/-- No waiter is interrupted, and no increment passes the largest `int`. -/
def Semaphore.Undisturbed (s : Semaphore) : Action → Prop
  | .interrupt _ _ => False
  | .unlock _ => s.count.toNat + 1 < 2 ^ 31
  | _ => True

instance (s : Semaphore) : ∀ action, Decidable (s.Undisturbed action)
  | .interrupt _ _ => inferInstanceAs (Decidable False)
  | .unlock _ => inferInstanceAs (Decidable (_ < _))
  | .enter _ _ | .down _ | .trylock _ | .test _ | .first _ | .remove _ | .add _ =>
    inferInstanceAs (Decidable True)

/-- The permits are conserved, and no task has been interrupted. -/
structure Semaphore.Kept (val : BitVec 32) (s : Semaphore) : Prop where
  permits : s.count.toNat + s.successes = val.toNat + s.unlocks
  small : s.count.toNat < 2 ^ 31
  quiet : ∀ t, (s.task t).lockInterrupted = false
  none : s.interrupted = []

section Kept
variable {val : BitVec 32} {s next : Semaphore} {t : ℕ}

theorem setTask_task (s : Semaphore) (t : ℕ) (task : Task) :
    (s.setTask t task).task = update s.task t task := rfl

theorem Semaphore.Kept.setTask (kept : s.Kept val) (t : ℕ) (task : Task) (quiet : task.lockInterrupted = false) :
    (s.setTask t task).Kept val := by
  refine { kept with quiet := fun other => ?_ }
  rw [setTask_task]
  by_cases same : other = t
  · rw [same, update_self]
    exact quiet
  · rw [update_of_ne same]
    exact kept.quiet other

theorem count_taken {count : BitVec 32} (some : count ≠ 0) : 0 < count.toNat ∧ (count - 1).toNat = count.toNat - 1 := by
  have positive : 0 < count.toNat := by
    apply Nat.pos_of_ne_zero
    exact fun zero => some (BitVec.eq_of_toNat_eq zero)
  refine ⟨positive, ?_⟩
  have bound := count.isLt
  rw [BitVec.toNat_sub]
  change (2 ^ 32 - 1 + count.toNat) % 2 ^ 32 = count.toNat - 1
  omega

theorem Semaphore.Kept.down (kept : s.Kept val) (interruptible : Bool) :
    (semaphoreDown s t interruptible).Kept val := by
  unfold semaphoreDown
  split
  · have listed := kept.setTask t { s.task t with
      phase := .sleeping interruptible, runnable := false, unlock := interruptible } (kept.quiet t)
    exact { listed with }
  · rename_i free
    have some : s.count ≠ 0 := by
      intro zero
      exact free ⟨zero, by rw [kept.quiet t]; decide⟩
    obtain ⟨positive, less⟩ := count_taken some
    have left := kept.setTask t { s.task t with
      phase := .idle, lockInterrupted := false, unlock := false } rfl
    have permits := kept.permits
    have small := kept.small
    simp only [kept.quiet t]
    refine ⟨?_, ?_, left.quiet, left.none⟩
    · change (s.count - 1).toNat + (s.successes + 1) = val.toNat + s.unlocks
      omega
    · change (s.count - 1).toNat < 2 ^ 31
      omega

/-- An undisturbed step keeps the number of permits. -/
theorem Semaphore.Kept.step {action : Action} (kept : s.Kept val) (undisturbed : s.Undisturbed action)
    (stepped : step s action = some next) : next.Kept val := by
  obtain ⟨-, acted⟩ := ite_none_right_eq_some.mp stepped
  cases action with
  | enter t interruptible =>
    obtain ⟨-, rfl⟩ := ite_some_none_eq_some.mp acted
    exact kept.setTask _ _ rfl
  | down t =>
    simp only [act] at acted
    split at acted
    · obtain rfl := some.inj acted
      exact kept.down _
    · obtain rfl := some.inj acted
      exact kept.down _
    · cases acted
  | trylock t =>
    simp only [act] at acted
    split at acted
    · cases acted
    · split at acted
      · obtain rfl := some.inj acted
        exact kept
      · obtain rfl := some.inj acted
        exact (kept.setTask _ _ rfl).down _
  | unlock t =>
    obtain ⟨-, rfl⟩ := ite_some_none_eq_some.mp acted
    have changed := kept.setTask t { s.task t with phase := .incremented } (kept.quiet t)
    have more : (s.count + 1).toNat = s.count.toNat + 1 := by
      have bound : s.count.toNat + 1 < 2 ^ 31 := undisturbed
      rw [BitVec.toNat_add]
      change (s.count.toNat + 1) % 2 ^ 32 = s.count.toNat + 1
      omega
    have permits := kept.permits
    refine ⟨?_, ?_, changed.quiet, changed.none⟩
    · change (s.count + 1).toNat + s.successes = val.toNat + (s.unlocks + 1)
      omega
    · change (s.count + 1).toNat < 2 ^ 31
      rw [more]
      exact undisturbed
  | test t =>
    obtain ⟨-, rfl⟩ := ite_some_none_eq_some.mp acted
    exact kept.setTask _ _ (kept.quiet t)
  | first t =>
    simp only [act] at acted
    split at acted
    · cases acted
    · split at acted
      · obtain rfl := some.inj acted
        exact { kept with }
      · obtain rfl := some.inj acted
        exact kept.setTask _ _ (kept.quiet t)
  | interrupt t task => exact undisturbed.elim
  | remove t =>
    simp only [act] at acted
    split at acted
    · rename_i target _
      obtain rfl := some.inj acted
      have first := kept.setTask t { s.task t with phase := .adding target } (kept.quiet t)
      have second := first.setTask target
        { (s.setTask t { s.task t with phase := .adding target }).task target with runnable := false }
        (first.quiet target)
      exact { second with }
    · cases acted
  | add t =>
    simp only [act] at acted
    split at acted
    · obtain rfl := some.inj acted
      have first := kept.setTask t { s.task t with phase := .idle } (kept.quiet t)
      exact first.setTask _ _ (first.quiet _)
    · cases acted

end Kept

/-- A semaphore whose waiters are not interrupted and whose count stays in the range of `int` conserves its
permits in every interleaving. -/
theorem semaphore_conserves_permits (val : BitVec 32) (tasks : List ℕ) (actions : List Action) (s : Semaphore)
    (fits : val.toNat < 2 ^ 31) (undisturbed : Guarded step Semaphore.Undisturbed (semaphoreInit val tasks) actions)
    (ran : run step (semaphoreInit val tasks) actions = some s) : s.Conserves val := by
  have start : (semaphoreInit val tasks).Kept val := ⟨rfl, fits, fun _ => rfl, rfl⟩
  have kept := run_invariant_of_guarded (Semaphore.Kept val) start undisturbed ran fun kept => kept.step
  have signed : s.count.toInt = s.count.toNat := by
    rw [BitVec.toInt_eq_toNat_cond, if_pos]
    have small := kept.small
    omega
  have permits := kept.permits
  refine ⟨?_, ?_, ?_⟩
  · rw [signed]
    omega
  · rw [signed]
    exact Int.natCast_nonneg _
  · rw [kept.none]
    exact fun counts none => absurd none not_mem_nil

/-- One task waits for the permit that another one gives. -/
theorem semaphore_conserves_permits_handover :
    ∃ s, run step (semaphoreInit 0 [0, 1])
        [.enter 0 true, .down 0, .unlock 1, .test 1, .first 1, .remove 1, .add 1, .down 0] = some s ∧
      s.Conserves 0 :=
  ⟨_, rfl, semaphore_conserves_permits 0 [0, 1]
    [.enter 0 true, .down 0, .unlock 1, .test 1, .first 1, .remove 1, .add 1, .down 0] _ (by decide)
    (by decide +kernel) rfl⟩

/-- An interrupted waiter takes a permit that is not there, and then the next task gets through. -/
theorem semaphore_down_interrupted_takes_permit :
    ∃ s, run step (semaphoreInit 0 [0, 1, 2])
        [.enter 0 true, .down 0, .interrupt 1 0, .remove 1, .add 1, .down 0, .enter 2 false, .down 2] = some s ∧
      ¬s.Conserves 0 ∧ s.interrupted = [(0, -1)] ∧ s.count.toInt = -2 ∧ s.unlocks = 0 ∧ s.successes = 1 := by
  refine ⟨_, rfl, fun conserves => ?_, by decide +kernel, by decide +kernel, by decide +kernel, by decide +kernel⟩
  exact absurd conserves.nonnegative (by decide +kernel)

/-- A task is in the loop of a down call. -/
def Task.asleep (task : Task) : Bool :=
  match task.phase with
  | .sleeping _ => true
  | _ => false

/-- A task was taken off the wait list, is runnable and has not tested the count again. -/
def Task.woken (task : Task) : Bool := task.asleep && task.runnable

/-- A task has incremented the count in an unlock that has not ended. -/
def Task.unlocking (task : Task) : Bool :=
  match task.phase with
  | .incremented | .found | .removing _ | .adding _ => true
  | _ => false

/-- The number of tasks that were woken and have still to run. -/
def Semaphore.woken (s : Semaphore) : ℕ := s.tasks.countP fun t => (s.task t).woken

/-- The number of unlocks in progress. -/
def Semaphore.unlocking (s : Semaphore) : ℕ := s.tasks.countP fun t => (s.task t).unlocking

/-- While a task waits, each permit has a woken task or an unlock in progress. When no unlock is in progress, as
many tasks are woken as there are permits or waiters, and no permit is left with a waiter and nobody woken. -/
structure Semaphore.Alert (s : Semaphore) : Prop where
  enough : s.waitList ≠ [] → s.count.toNat ≤ s.woken + s.unlocking
  settled : s.unlocking = 0 → s.waitList ≠ [] → min s.count.toNat s.waitList.length ≤ s.woken
  found : ¬(0 < s.count.toNat ∧ s.waitList ≠ [] ∧ s.woken = 0 ∧ s.unlocking = 0)

/-- No waiter is interrupted, and an unlock finds the task on the wait list that it takes off. -/
def Semaphore.Orderly (s : Semaphore) : Action → Prop
  | .interrupt _ _ => False
  | .first _ => s.waitList ≠ []
  | .remove t => ∀ task, (s.task t).phase = .removing task → task ∈ s.waitList
  | _ => True

/-- Listed tasks sleep, and so do those that an unlock has taken off, each by itself; while a task waits, each
permit has a woken task or an unlock in progress. -/
structure Semaphore.Balanced (s : Semaphore) : Prop where
  distinct : s.tasks.Nodup
  nodup : s.waitList.Nodup
  listed : ∀ t ∈ s.waitList, t ∈ s.tasks ∧ (s.task t).asleep = true ∧ (s.task t).runnable = false
  moved : ∀ u t, (s.task u).phase = .adding t →
    t ∈ s.tasks ∧ t ∉ s.waitList ∧ (s.task t).asleep = true ∧ (s.task t).runnable = false
  once : ∀ u other t, (s.task u).phase = .adding t → (s.task other).phase = .adding t → u = other
  quiet : ∀ t, (s.task t).lockInterrupted = false
  enough : s.waitList ≠ [] → s.count.toNat ≤ s.woken + s.unlocking

section Balanced
variable {s next : Semaphore} {t : ℕ} {task : Task}

theorem task_setTask_self : (s.setTask t task).task t = task := update_self ..

theorem task_setTask_of_ne {u : ℕ} (differs : u ≠ t) : (s.setTask t task).task u = s.task u :=
  update_of_ne differs ..

theorem counts_setTask (distinct : s.tasks.Nodup) (member : t ∈ s.tasks) (task : Task) :
    (s.setTask t task).woken + (if (s.task t).woken then 1 else 0) = s.woken + (if task.woken then 1 else 0) ∧
      (s.setTask t task).unlocking + (if (s.task t).unlocking then 1 else 0) =
        s.unlocking + (if task.unlocking then 1 else 0) :=
  ⟨countP_update Task.woken s.task task distinct member,
    countP_update Task.unlocking s.task task distinct member⟩

theorem Semaphore.Balanced.runnable (balanced : s.Balanced) (runs : (s.task t).runnable = true) :
    t ∉ s.waitList ∧ ∀ u, (s.task u).phase ≠ .adding t := by
  constructor
  · intro there
    rw [(balanced.listed t there).2.2] at runs
    cases runs
  · intro u moves
    rw [(balanced.moved u t moves).2.2.2] at runs
    cases runs

theorem adding_setTask {u target : ℕ} (moves : ((s.setTask t task).task u).phase = .adding target) :
    u = t ∧ task.phase = .adding target ∨ u ≠ t ∧ (s.task u).phase = .adding target := by
  by_cases same : u = t
  · rw [same, task_setTask_self] at moves
    exact .inl ⟨same, moves⟩
  · rw [task_setTask_of_ne same] at moves
    exact .inr ⟨same, moves⟩

theorem Semaphore.Balanced.listed_setTask (balanced : s.Balanced) (runs : (s.task t).runnable = true) {u : ℕ}
    (there : u ∈ s.waitList) : u ≠ t ∧ u ∈ s.tasks ∧ ((s.setTask t task).task u).asleep = true ∧
      ((s.setTask t task).task u).runnable = false := by
  have differs : u ≠ t := fun same => (balanced.runnable runs).1 (same ▸ there)
  rw [task_setTask_of_ne differs]
  exact ⟨differs, balanced.listed u there⟩

theorem Semaphore.Balanced.moved_setTask (balanced : s.Balanced) (runs : (s.task t).runnable = true) {u target : ℕ}
    (moves : (s.task u).phase = .adding target) : target ≠ t ∧ target ∈ s.tasks ∧ target ∉ s.waitList ∧
      ((s.setTask t task).task target).asleep = true ∧ ((s.setTask t task).task target).runnable = false := by
  have differs : target ≠ t := by
    rintro rfl
    exact (balanced.runnable runs).2 u moves
  rw [task_setTask_of_ne differs]
  exact ⟨differs, balanced.moved u target moves⟩

theorem quiet_setTask (quiet : ∀ u, (s.task u).lockInterrupted = false) (still : task.lockInterrupted = false) (u : ℕ) :
    ((s.setTask t task).task u).lockInterrupted = false := by
  by_cases same : u = t
  · rw [same, task_setTask_self]
    exact still
  · rw [task_setTask_of_ne same]
    exact quiet u

theorem Semaphore.Balanced.setTask (balanced : s.Balanced) (runs : (s.task t).runnable = true)
    (settled : ∀ target, task.phase ≠ .adding target) (quiet : task.lockInterrupted = false) {count : BitVec 32}
    (enough : s.waitList ≠ [] → count.toNat ≤ (s.setTask t task).woken + (s.setTask t task).unlocking)
    (unlocks successes : ℕ) :
    Semaphore.Balanced { s.setTask t task with count := count, unlocks := unlocks, successes := successes } := by
  have elsewhere (u target) (moves : ((s.setTask t task).task u).phase = .adding target) :
      (s.task u).phase = .adding target := by
    rcases adding_setTask moves with ⟨-, new⟩ | ⟨-, before⟩
    · exact absurd new (settled target)
    · exact before
  refine ⟨balanced.distinct, balanced.nodup, fun u there => ?_, fun u target moves => ?_,
    fun u v target first second => ?_, quiet_setTask balanced.quiet quiet, enough⟩
  · exact (balanced.listed_setTask runs there).2
  · exact (balanced.moved_setTask runs (elsewhere u target moves)).2
  · exact balanced.once u v target (elsewhere u target first) (elsewhere v target second)

theorem Semaphore.Balanced.wait (balanced : s.Balanced) (member : t ∈ s.tasks)
    (runs : (s.task t).runnable = true) (interruptible : Bool) (zero : s.count = 0) :
    Semaphore.Balanced { s.setTask t { s.task t with
      phase := .sleeping interruptible, runnable := false, unlock := interruptible } with
      waitList := s.waitList.erase t ++ [t] } := by
  obtain ⟨unlisted, -⟩ := balanced.runnable runs
  rw [erase_of_not_mem unlisted]
  have elsewhere (u target) (moves : ((s.setTask t { s.task t with
      phase := .sleeping interruptible, runnable := false, unlock := interruptible }).task u).phase =
        .adding target) : (s.task u).phase = .adding target := by
    rcases adding_setTask moves with ⟨-, new⟩ | ⟨-, before⟩
    · cases new
    · exact before
  refine ⟨balanced.distinct, ?_, fun u there => ?_, fun u target moves => ?_,
    fun u v target first second => ?_, quiet_setTask balanced.quiet (balanced.quiet t), fun _ => ?_⟩
  · refine nodup_append.mpr ⟨balanced.nodup, nodup_singleton _, ?_⟩
    intro u there v new equal
    rw [mem_singleton.mp new] at equal
    exact unlisted (equal ▸ there)
  · rcases mem_append.mp there with before | new
    · exact (balanced.listed_setTask runs before).2
    · obtain rfl := mem_singleton.mp new
      change u ∈ s.tasks ∧ ((s.setTask u _).task u).asleep = true ∧ ((s.setTask u _).task u).runnable = false
      rw [task_setTask_self]
      exact ⟨member, rfl, rfl⟩
  · obtain ⟨differs, known, absent, sleeps⟩ := balanced.moved_setTask runs (elsewhere u target moves)
    refine ⟨known, fun there => ?_, sleeps⟩
    rcases mem_append.mp there with early | new
    · exact absent early
    · exact differs (mem_singleton.mp new)
  · exact balanced.once u v target (elsewhere u target first) (elsewhere v target second)
  · change s.count.toNat ≤ _
    rw [zero]
    exact Nat.zero_le _

theorem Semaphore.Balanced.down (balanced : s.Balanced) (member : t ∈ s.tasks)
    (runs : (s.task t).runnable = true) (outside : (s.task t).unlocking = false) (interruptible : Bool) :
    (semaphoreDown s t interruptible).Balanced := by
  unfold semaphoreDown
  split
  · rename_i blocked
    exact balanced.wait member runs interruptible blocked.1
  · rename_i free
    simp only [balanced.quiet t]
    refine balanced.setTask runs (fun target moves => by cases moves) rfl (fun waiting => ?_) _ _
    generalize same : { s.task t with phase := Phase.idle, lockInterrupted := false, unlock := false } = idle
    obtain ⟨woken, unlocking⟩ := counts_setTask balanced.distinct member idle
    have ended : idle.woken = false ∧ idle.unlocking = false := by
      rw [← same]
      exact ⟨rfl, rfl⟩
    have once : (if (s.task t).woken then 1 else 0) ≤ 1 := by split <;> decide
    rw [ended.1] at woken
    rw [ended.2, outside] at unlocking
    have enough := balanced.enough waiting
    have some : s.count ≠ 0 := by
      intro zero
      exact free ⟨zero, by rw [balanced.quiet t]; decide⟩
    obtain ⟨positive, less⟩ := count_taken some
    rw [less]
    simp only [Bool.false_eq_true, ↓reduceIte] at woken unlocking
    omega

theorem Semaphore.Balanced.remove {target : ℕ} (balanced : s.Balanced) (member : t ∈ s.tasks)
    (runs : (s.task t).runnable = true) (phase : (s.task t).phase = .removing target)
    (there : target ∈ s.waitList) : Semaphore.Balanced { s.setTask t { s.task t with phase := .adding target } with
      waitList := s.waitList.erase target } := by
  generalize same : { s.task t with phase := Phase.adding target } = task
  have kept (u) (inside : u ∈ s.waitList.erase target) : u ≠ target ∧ u ∈ s.waitList :=
    balanced.nodup.mem_erase_iff.mp inside
  have elsewhere (u target') (moves : ((s.setTask t task).task u).phase = .adding target') :
      u = t ∧ target' = target ∨ (s.task u).phase = .adding target' := by
    rcases adding_setTask moves with ⟨here, new⟩ | ⟨-, before⟩
    · rw [← same] at new
      exact .inl ⟨here, (Phase.adding.inj new).symm⟩
    · exact .inr before
  have quiet : task.lockInterrupted = false := by
    rw [← same]
    exact balanced.quiet t
  refine ⟨balanced.distinct, balanced.nodup.erase _, fun u inside => (balanced.listed_setTask runs (kept u inside).2).2,
    fun u target' moves => ?_, fun u v target' first second => ?_, quiet_setTask balanced.quiet quiet, fun waiting => ?_⟩
  · rcases elsewhere u target' moves with ⟨-, rfl⟩ | before
    · obtain ⟨-, known, sleeps⟩ := balanced.listed_setTask runs there
      exact ⟨known, fun inside => (kept target' inside).1 rfl, sleeps⟩
    · obtain ⟨-, known, absent, sleeps⟩ := balanced.moved_setTask runs before
      exact ⟨known, fun inside => absent (kept target' inside).2, sleeps⟩
  · rcases elsewhere u target' first with ⟨rfl, rfl⟩ | one
    · rcases elsewhere v target' second with ⟨rfl, -⟩ | two
      · rfl
      · exact absurd there (balanced.moved v target' two).2.1
    · rcases elsewhere v target' second with ⟨rfl, rfl⟩ | two
      · exact absurd there (balanced.moved u target' one).2.1
      · exact balanced.once u v target' one two
  · have before : s.waitList ≠ [] := ne_nil_of_mem there
    have enough := balanced.enough before
    obtain ⟨woken, unlocking⟩ := counts_setTask balanced.distinct member task
    have asleep : (s.task t).woken = false ∧ (s.task t).unlocking = true := by
      unfold Task.woken Task.asleep Task.unlocking
      rw [phase]
      exact ⟨rfl, rfl⟩
    have after : task.woken = false ∧ task.unlocking = true := by
      rw [← same]
      exact ⟨rfl, rfl⟩
    rw [asleep.1, after.1] at woken
    rw [asleep.2, after.2] at unlocking
    change s.count.toNat ≤ (s.setTask t task).woken + (s.setTask t task).unlocking
    omega

theorem Semaphore.Balanced.add {target : ℕ} (balanced : s.Balanced) (member : t ∈ s.tasks)
    (runs : (s.task t).runnable = true) (phase : (s.task t).phase = .adding target) :
    ((s.setTask t { s.task t with phase := .idle }).setTask target
      { s.task target with runnable := true }).Balanced := by
  obtain ⟨known, absent, asleep, off⟩ := balanced.moved t target phase
  have apart : target ≠ t := by
    rintro rfl
    rw [runs] at off
    cases off
  generalize sameIdle : { s.task t with phase := Phase.idle } = idle
  generalize sameAwake : { s.task target with runnable := true } = awake
  have elsewhere (u x) (moves : (((s.setTask t idle).setTask target awake).task u).phase = .adding x) :
      (s.task u).phase = .adding x ∧ x ≠ target := by
    rcases adding_setTask moves with ⟨-, new⟩ | ⟨-, moves⟩
    · rw [← sameAwake] at new
      unfold Task.asleep at asleep
      rw [show (s.task target).phase = .adding x from new] at asleep
      cases asleep
    rcases adding_setTask moves with ⟨-, new⟩ | ⟨notActor, before⟩
    · rw [← sameIdle] at new
      cases new
    · refine ⟨before, ?_⟩
      rintro rfl
      exact notActor (balanced.once u t x before phase)
  have quiet : idle.lockInterrupted = false ∧ awake.lockInterrupted = false := by
    rw [← sameIdle, ← sameAwake]
    exact ⟨balanced.quiet t, balanced.quiet target⟩
  refine ⟨balanced.distinct, balanced.nodup, fun u inside => ?_, fun u x moves => ?_,
    fun u v x first second => ?_, quiet_setTask (quiet_setTask balanced.quiet quiet.1) quiet.2, fun waiting => ?_⟩
  · have notTarget : u ≠ target := fun equal => absent (equal ▸ inside)
    rw [task_setTask_of_ne notTarget]
    exact (balanced.listed_setTask runs inside).2
  · obtain ⟨before, notTarget⟩ := elsewhere u x moves
    rw [task_setTask_of_ne notTarget]
    exact (balanced.moved_setTask runs before).2
  · exact balanced.once u v x (elsewhere u x first).1 (elsewhere v x second).1
  · have enough := balanced.enough waiting
    obtain ⟨firstWoken, firstUnlocking⟩ := counts_setTask balanced.distinct member idle
    obtain ⟨secondWoken, secondUnlocking⟩ :=
      counts_setTask (s := s.setTask t idle) balanced.distinct known awake
    have unchanged : (s.setTask t idle).task target = s.task target := update_of_ne apart _ _
    have actor : (s.task t).woken = false ∧ (s.task t).unlocking = true := by
      unfold Task.woken Task.asleep Task.unlocking
      rw [phase]
      exact ⟨rfl, rfl⟩
    have ended : idle.woken = false ∧ idle.unlocking = false := by
      rw [← sameIdle]
      exact ⟨rfl, rfl⟩
    have sleeper : (s.task target).woken = false := by
      unfold Task.woken
      rw [asleep, off]
      rfl
    have risen : awake.woken = true ∧ awake.unlocking = (s.task target).unlocking := by
      rw [← sameAwake]
      refine ⟨?_, rfl⟩
      unfold Task.woken
      rw [show Task.asleep { s.task target with runnable := true } = true from asleep]
      rfl
    rw [actor.1, ended.1] at firstWoken
    rw [actor.2, ended.2] at firstUnlocking
    rw [unchanged, sleeper, risen.1] at secondWoken
    rw [unchanged, risen.2] at secondUnlocking
    change s.count.toNat ≤ ((s.setTask t idle).setTask target awake).woken +
      ((s.setTask t idle).setTask target awake).unlocking
    simp only [Bool.false_eq_true, ↓reduceIte] at firstWoken firstUnlocking secondWoken
    omega

section
variable (balanced : s.Balanced) (member : t ∈ s.tasks) (runs : (s.task t).runnable = true)
include balanced member runs

/-- A task that moves on between two sections leaves the semaphore balanced. -/
theorem Semaphore.Balanced.move (settled : ∀ target, task.phase ≠ .adding target)
    (quiet : task.lockInterrupted = false) (woken : task.woken = (s.task t).woken)
    (unlocking : task.unlocking = (s.task t).unlocking) : (s.setTask t task).Balanced := by
  obtain ⟨wokenCount, unlockingCount⟩ := counts_setTask balanced.distinct member task
  refine balanced.setTask runs settled quiet (fun waiting => ?_) s.unlocks s.successes
  have enough := balanced.enough waiting
  rw [woken] at wokenCount
  rw [unlocking] at unlockingCount
  omega

theorem Semaphore.Balanced.unlock (phase : (s.task t).phase = .idle) :
    Semaphore.Balanced { s.setTask t { s.task t with phase := .incremented } with
      count := s.count + 1, unlocks := s.unlocks + 1 } := by
  generalize same : { s.task t with phase := Phase.incremented } = task
  refine balanced.setTask runs ?_ ?_ (fun waiting => ?_) _ s.successes
  · rintro target moves
    rw [← same] at moves
    cases moves
  · rw [← same]
    exact balanced.quiet t
  · have enough := balanced.enough waiting
    obtain ⟨woken, unlocking⟩ := counts_setTask balanced.distinct member task
    have before : (s.task t).woken = false ∧ (s.task t).unlocking = false := by
      unfold Task.woken Task.asleep Task.unlocking
      rw [phase]
      exact ⟨rfl, rfl⟩
    have after : task.woken = false ∧ task.unlocking = true := by
      rw [← same]
      exact ⟨rfl, rfl⟩
    rw [before.1, after.1] at woken
    rw [before.2, after.2] at unlocking
    have more : (s.count + 1).toNat ≤ s.count.toNat + 1 := by
      rw [BitVec.toNat_add]
      exact Nat.mod_le _ _
    simp only [Bool.false_eq_true, ↓reduceIte] at woken unlocking
    omega

theorem Semaphore.Balanced.test (phase : (s.task t).phase = .incremented) :
    (s.setTask t { s.task t with phase := if s.waitList = [] then .idle else .found }).Balanced := by
  have before : (s.task t).woken = false ∧ (s.task t).unlocking = true := by
    unfold Task.woken Task.asleep Task.unlocking
    rw [phase]
    exact ⟨rfl, rfl⟩
  split
  · rename_i empty
    exact balanced.setTask runs (fun target moves => by cases moves) (by exact balanced.quiet t)
      (fun waiting => absurd empty waiting) s.unlocks s.successes
  · exact balanced.move member runs (fun target moves => by cases moves) (balanced.quiet t) before.1.symm
      before.2.symm

end

/-- An orderly step keeps the semaphore balanced. -/
theorem Semaphore.Balanced.step {action : Action} (balanced : s.Balanced) (orderly : s.Orderly action)
    (stepped : step s action = some next) : next.Balanced := by
  simp only [Sem.step, ite_none_right_eq_some] at stepped
  obtain ⟨⟨-, member, runs⟩, acted⟩ := stepped
  cases action with
  | enter t interruptible =>
    simp only [act, ite_none_right_eq_some, some.injEq] at acted
    obtain ⟨phase, rfl⟩ := acted
    refine balanced.move member runs (fun target moves => by cases moves) rfl ?_ ?_
    · unfold Task.woken Task.asleep
      rw [show (s.task t).phase = .idle from phase]
    · unfold Task.unlocking
      rw [show (s.task t).phase = .idle from phase]
  | down t =>
    simp only [act] at acted
    split at acted
    · rename_i interruptible phase
      obtain rfl := some.inj acted
      have outside : (s.task t).unlocking = false := by
        unfold Task.unlocking
        rw [phase]
      exact balanced.down member runs outside interruptible
    · rename_i interruptible phase
      obtain rfl := some.inj acted
      have outside : (s.task t).unlocking = false := by
        unfold Task.unlocking
        rw [phase]
      exact balanced.down member runs outside interruptible
    · cases acted
  | trylock t =>
    simp only [act] at acted
    split at acted
    · cases acted
    rename_i phase
    have idle : (s.task t).unlocking = false := by
      unfold Task.unlocking
      rw [not_not.mp phase]
    split at acted
    · obtain rfl := some.inj acted
      exact balanced
    obtain rfl := some.inj acted
    have same : s.setTask t { s.task t with lockInterrupted := false } = s := by
      have record : { s.task t with lockInterrupted := false } = s.task t := by
        rw [← balanced.quiet t]
      unfold Semaphore.setTask
      rw [record, update_eq_self]
    rw [same]
    exact balanced.down member runs idle false
  | unlock t =>
    simp only [act, ite_none_right_eq_some, some.injEq] at acted
    obtain ⟨phase, rfl⟩ := acted
    exact balanced.unlock member runs phase
  | test t =>
    simp only [act, ite_none_right_eq_some, some.injEq] at acted
    obtain ⟨phase, rfl⟩ := acted
    exact balanced.test member runs phase
  | first t =>
    simp only [act] at acted
    split at acted
    · cases acted
    rename_i phase
    split at acted
    · rename_i empty
      exact absurd empty orderly
    rename_i task rest listed
    obtain rfl := some.inj acted
    refine balanced.move member runs (fun target moves => by cases moves) (balanced.quiet t) ?_ ?_
    · unfold Task.woken Task.asleep
      rw [not_not.mp phase]
    · unfold Task.unlocking
      rw [not_not.mp phase]
  | interrupt t task => exact orderly.elim
  | remove t =>
    simp only [act] at acted
    split at acted
    · rename_i target phase
      obtain rfl := some.inj acted
      have there := orderly target phase
      have apart : target ≠ t := by
        rintro rfl
        exact (balanced.runnable runs).1 there
      have unchanged : (s.setTask t { s.task t with phase := .adding target }).task target = s.task target :=
        update_of_ne apart _ _
      have record : { s.task target with runnable := false } = s.task target := by
        rw [← (balanced.listed target there).2.2]
      have same : (s.setTask t { s.task t with phase := .adding target }).setTask target
          { (s.setTask t { s.task t with phase := .adding target }).task target with runnable := false } =
            s.setTask t { s.task t with phase := .adding target } := by
        rw [unchanged, record, ← unchanged]
        exact congrArg (fun task => { s.setTask t { s.task t with phase := .adding target } with task := task })
          (update_eq_self _ _)
      rw [same]
      exact balanced.remove member runs phase there
    · cases acted
  | add t =>
    simp only [act] at acted
    split at acted
    · rename_i target phase
      obtain rfl := some.inj acted
      have apart : target ≠ t := by
        rintro rfl
        have off := (balanced.moved target target phase).2.2.2
        rw [show (s.task target).runnable = true from runs] at off
        cases off
      rw [show (s.setTask t { s.task t with phase := .idle }).task target = s.task target from
        update_of_ne apart _ _]
      exact balanced.add member runs phase
    · cases acted

/-- In a balanced semaphore enough waiters are awake for the permits. -/
theorem Semaphore.Balanced.alert (balanced : s.Balanced) : s.Alert := by
  refine ⟨balanced.enough, fun settled waiting => ?_, ?_⟩
  · have enough := balanced.enough waiting
    rw [settled] at enough
    exact Nat.le_trans (Nat.min_le_left _ _) enough
  · rintro ⟨positive, waiting, woken, settled⟩
    have enough := balanced.enough waiting
    rw [woken, settled] at enough
    omega

end Balanced

instance (s : Semaphore) (action : Action) : Decidable (s.Orderly action) :=
  match action with
  | .interrupt _ _ => isFalse id
  | .first _ => inferInstanceAs (Decidable (s.waitList ≠ []))
  | .remove t =>
    match same : (s.task t).phase with
    | .removing task =>
      if there : task ∈ s.waitList then
        isTrue fun _ removes => Phase.removing.inj (same.symm.trans removes) ▸ there
      else isFalse fun orderly => there (orderly task same)
    | .idle | .entering _ | .sleeping _ | .incremented | .found | .adding _ =>
      isTrue fun _ removes => by cases same.symm.trans removes
  | .enter _ _ | .down _ | .trylock _ | .unlock _ | .test _ | .add _ => isTrue trivial

/-- When every unlock finds the waiter on the list that it takes off, as many tasks are woken as there are permits
or waiters, in every interleaving. -/
theorem semaphore_wakes_enough (val : BitVec 32) (tasks : List ℕ) (actions : List Action) (s : Semaphore)
    (distinct : tasks.Nodup) (orderly : Guarded step Semaphore.Orderly (semaphoreInit val tasks) actions)
    (ran : run step (semaphoreInit val tasks) actions = some s) : s.Alert := by
  have start : (semaphoreInit val tasks).Balanced :=
    { distinct := distinct
      nodup := nodup_nil
      listed := fun _ there => absurd there not_mem_nil
      moved := fun _ _ moves => by cases moves
      once := fun _ _ _ moves => by cases moves
      quiet := fun _ => rfl
      enough := fun waiting => absurd rfl waiting }
  have balanced := run_invariant_of_guarded Semaphore.Balanced start orderly ran fun balanced => balanced.step
  exact balanced.alert

/-- Two tasks wait, and one of them is woken for the permit that a third task gives. -/
theorem semaphore_wakes_enough_handover :
    ∃ s, run step (semaphoreInit 0 [0, 1, 2])
        [.enter 0 false, .down 0, .enter 1 false, .down 1, .unlock 2, .test 2, .first 2, .remove 2, .add 2] =
          some s ∧ s.Alert :=
  ⟨_, rfl, semaphore_wakes_enough 0 [0, 1, 2]
    [.enter 0 false, .down 0, .enter 1 false, .down 1, .unlock 2, .test 2, .first 2, .remove 2, .add 2] _
    (by decide) (by decide +kernel) rfl⟩

/-- Two unlocks wake the same task, which takes one of the permits; the other waiter stays behind with the other
permit. -/
theorem semaphore_unlock_loses_wakeup :
    ∃ s, run step (semaphoreInit 0 [0, 1, 2, 3])
        [.enter 0 false, .down 0, .enter 1 false, .down 1, .unlock 2, .test 2, .first 2, .unlock 3, .test 3,
          .first 3, .remove 3, .add 3, .remove 2, .add 2, .down 0] = some s ∧
      ¬s.Alert ∧ s.count = 1 ∧ s.waitList = [1] ∧ s.woken = 0 ∧ s.unlocking = 0 := by
  refine ⟨_, rfl, fun alert => alert.found (by decide +kernel), by decide +kernel, by decide +kernel,
    by decide +kernel, by decide +kernel⟩

end Phabos.Sem
