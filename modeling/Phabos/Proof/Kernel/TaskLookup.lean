import Phabos.Construction.Kernel.TaskTable

namespace Phabos.TaskTable
open Library Function Option

/-- A task that is not released and has an id -/
def Named (s : State) (id : BitVec 32) (t : ℕ) : Prop := ∃ task, s.task t = some task ∧ task.id = id

/-- A lookup gives the task with the id, or the null pointer where there is none. -/
def Finds (s : State) (id : BitVec 32) (found : Option ℕ) : Prop :=
  (∃ t, Named s id t ∧ found = some t) ∨ (∀ t, ¬Named s id t) ∧ found = some 0

/-- The lookups are right, no two tasks have one id, and the calls act on the task that is named. -/
structure Right (s : State) : Prop where
  lookup : ∀ id, Finds s id (findTaskById s id)
  distinct : ∀ id t t', Named s id t → Named s id t' → t = t'
  kill : ∀ pid sig memory, 0 < pid.toInt →
    (∀ t, Named s pid t → sysKill s pid sig memory = some (taskQueueSignal s t sig memory)) ∧
      ((∀ t, ¬Named s pid t) → sysKill s pid sig memory = some (- ESRCH, s))
  sched : ∀ pid, pid ≠ 0 → Finds s pid (pidTask s pid)

/-- The call that makes a task succeeds. -/
def Creates (s : State) : Action → Prop
  | .create memory => (taskCreate memory s).1.isSome
  | .run memory => (taskRun memory s).1.isSome
  | _ => False

/-- The table is as `task_init` has left it, and no task is at the null pointer. -/
structure Sound (s : State) : Prop where
  table : s.taskTable = .create uintKeys
  null : s.task 0 = none

variable {s : State}

theorem Sound.find (sound : Sound s) (id : BitVec 32) : findTaskById s id = some 0 := by
  unfold findTaskById
  rw [sound.table]
  split
  · rfl
  · rfl

theorem Named.ne_zero (sound : Sound s) {id : BitVec 32} {t : ℕ} (named : Named s id t) : t ≠ 0 := by
  rintro rfl
  obtain ⟨task, there, -⟩ := named
  rw [sound.null] at there
  cases there

theorem Sound.right_iff (sound : Sound s) : Right s ↔ ∀ t, s.task t = none := by
  constructor
  · intro right t
    by_contra some
    obtain ⟨task, there⟩ := Option.ne_none_iff_exists'.mp some
    obtain ⟨found, named, same⟩ | ⟨absent, -⟩ := right.lookup task.id
    · rw [sound.find] at same
      exact named.ne_zero sound (Option.some.inj same).symm
    · exact absent t ⟨task, there, rfl⟩
  · intro empty
    have absent (id : BitVec 32) (t : ℕ) : ¬Named s id t := by
      rintro ⟨task, there, -⟩
      rw [empty t] at there
      cases there
    refine ⟨fun id => Or.inr ⟨absent id, sound.find id⟩, fun id t _ named => absurd named (absent id t), ?_, ?_⟩
    · intro pid sig memory positive
      refine ⟨fun t named => absurd named (absent pid t), fun _ => ?_⟩
      unfold sysKill
      rw [if_neg (not_le.mpr positive), sound.find]
      rfl
    · intro pid nonzero
      unfold pidTask
      rw [if_pos nonzero]
      exact Or.inr ⟨absent pid, sound.find pid⟩

theorem taskCreate_cases (memory : Memory) (s : State) (free : memory.isFree s = true) :
    (taskCreate memory s).2.taskTable = s.taskTable ∧
      ((taskCreate memory s).1 = none ∧ (taskCreate memory s).2.task = s.task ∨
        ∃ t task, (taskCreate memory s).1 = some t ∧ t ≠ 0 ∧
          (taskCreate memory s).2.task = update s.task t (some task)) := by
  unfold taskCreate
  unfold Memory.isFree at free
  cases address : memory.kzalloc with
  | none => exact ⟨rfl, Or.inl ⟨rfl, rfl⟩⟩
  | some t =>
    rw [address, Option.all_some, Bool.and_eq_true] at free
    have nonzero : t ≠ 0 := of_decide_eq_true free.1
    cases memory.name with
    | false => exact ⟨rfl, Or.inl ⟨rfl, rfl⟩⟩
    | true => exact ⟨rfl, Or.inr ⟨t, _, rfl, nonzero, rfl⟩⟩

theorem taskRun_cases (memory : Memory) (s : State) (free : memory.isFree s = true) :
    (taskRun memory s).2.taskTable = s.taskTable ∧
      ((taskRun memory s).1 = none ∧ (∀ t, (taskRun memory s).2.task t = s.task t ∨ (taskRun memory s).2.task t = none) ∨
        ∃ t task, (taskRun memory s).1 = some t ∧ t ≠ 0 ∧
          (taskRun memory s).2.task = update s.task t (some task)) := by
  obtain ⟨table, created⟩ := taskCreate_cases memory s free
  unfold taskRun
  generalize taskCreate memory s = made at table created
  obtain ⟨result, after⟩ := made
  obtain ⟨rfl, same⟩ | ⟨t, task, rfl, nonzero, same⟩ := created
  · exact ⟨table, Or.inl ⟨rfl, fun t => Or.inl (congrFun same t)⟩⟩
  · cases memory.stack with
    | true => exact ⟨table, Or.inr ⟨t, task, rfl, nonzero, same⟩⟩
    | false =>
      refine ⟨table, Or.inl ⟨rfl, fun other => ?_⟩⟩
      change update after.task t none other = s.task other ∨ update after.task t none other = none
      change after.task = update s.task t (some task) at same
      rw [same, update_idem, update_apply]
      split
      · exact Or.inr rfl
      · exact Or.inl rfl

theorem Sound.annihilate (sound : Sound s) (t : ℕ) (task : Task) : Sound (taskAnnihilate s t task) := by
  unfold taskAnnihilate taskExit taskDestroy
  split
  · exact sound
  split
  · exact ⟨sound.table, sound.null⟩
  · refine ⟨sound.table, ?_⟩
    dsimp only
    rw [update_apply]
    split
    · rfl
    · exact sound.null

/-- A step keeps the lookups right exactly when it creates no task. -/
theorem Sound.step {next : State} {action : Action} (sound : Sound s) (stepped : TaskTable.step s action = some next) :
    Sound next ∧ (Right s → (Right next ↔ ¬Creates s action)) := by
  have iff (next : State) (sound' : Sound next)
      (same : (∀ t, s.task t = none) → ((∀ t, next.task t = none) ↔ ¬Creates s action)) :
      Sound next ∧ (Right s → (Right next ↔ ¬Creates s action)) :=
    ⟨sound', fun right => sound'.right_iff.trans (same (sound.right_iff.mp right))⟩
  have added (next : State) {t : ℕ} {task : Task} (table : next.taskTable = s.taskTable) (nonzero : t ≠ 0)
      (same : next.task = update s.task t (some task)) (creates : Creates s action) :
      Sound next ∧ (Right s → (Right next ↔ ¬Creates s action)) := by
    refine iff next ⟨table.trans sound.table, ?_⟩ fun _ => iff_of_false (fun none => ?_) (not_not.mpr creates)
    · rw [same, update_of_ne nonzero.symm]
      exact sound.null
    · have there := none t
      rw [same, update_self] at there
      cases there
  cases action with
  | create memory =>
    dsimp only [TaskTable.step] at stepped
    obtain ⟨free, rfl⟩ := Option.ite_some_none_eq_some.mp stepped
    obtain ⟨table, ⟨failed, same⟩ | ⟨t, task, made, nonzero, same⟩⟩ := taskCreate_cases memory s free
    · refine iff _ ⟨table.trans sound.table, same ▸ sound.null⟩ fun empty => iff_of_true (same ▸ empty) ?_
      change ¬(taskCreate memory s).1.isSome = true
      rw [failed]
      exact Bool.false_ne_true
    · exact added _ table nonzero same (by change (taskCreate memory s).1.isSome = true; rw [made]; rfl)
  | run memory =>
    dsimp only [TaskTable.step] at stepped
    obtain ⟨free, rfl⟩ := Option.ite_some_none_eq_some.mp stepped
    obtain ⟨table, ⟨failed, same⟩ | ⟨t, task, made, nonzero, same⟩⟩ := taskRun_cases memory s free
    · have kept (t : ℕ) (none : s.task t = none) : (taskRun memory s).2.task t = .none :=
        (same t).elim (fun same => same.trans none) id
      refine iff _ ⟨table.trans sound.table, kept 0 sound.null⟩ fun empty =>
        iff_of_true (fun t => kept t (empty t)) ?_
      change ¬(taskRun memory s).1.isSome = true
      rw [failed]
      exact Bool.false_ne_true
    · exact added _ table nonzero same (by change (taskRun memory s).1.isSome = true; rw [made]; rfl)
  | annihilate t =>
    obtain ⟨task, there, rfl⟩ := map_eq_some_iff.mp stepped
    exact iff _ (sound.annihilate t task) fun empty => absurd (there.symm.trans (empty t)) nofun
  | exit =>
    obtain ⟨t, there, rfl⟩ := map_eq_some_iff.mp stepped
    exact iff _ ⟨sound.table, sound.null⟩ fun empty => iff_of_true empty id
  | schedule picked =>
    obtain ⟨task, there, rfl⟩ := map_eq_some_iff.mp stepped
    refine iff _ ?_ fun empty => absurd (there.symm.trans (empty picked)) nofun
    unfold schedule
    dsimp only
    split
    · have picked : Sound { s with current := some picked, killTask := false } := ⟨sound.table, sound.null⟩
      split
      · exact picked
      · exact picked.annihilate _ _
    · exact ⟨sound.table, sound.null⟩
  | kill pid sig memory =>
    obtain ⟨⟨result, after⟩, killed, rfl⟩ := map_eq_some_iff.mp stepped
    have same : after = s := by
      unfold sysKill at killed
      rw [sound.find] at killed
      split at killed
      · exact (Prod.mk.inj (Option.some.inj killed)).2.symm
      · exact (Prod.mk.inj (Option.some.inj killed)).2.symm
    subst same
    exact iff _ sound fun empty => iff_of_true empty id

theorem sound_taskInit : Sound taskInit := ⟨rfl, rfl⟩

/-- In every state of a run the lookups are right if and only if no step of it makes a task. -/
theorem task_lookup_iff (actions : List Action) (s : State) (ran : Library.run step taskInit actions = some s) :
    (∀ first, first <+: actions → ∀ middle, Library.run step taskInit first = some middle → Right middle) ↔
      Guarded step (fun s action => ¬Creates s action) taskInit actions :=
  reached_iff_guarded step (fun _ _ => True) (fun s action => ¬Creates s action) Sound Right
    (fun _ _ _ sound _ stepped => sound.step stepped) taskInit s actions sound_taskInit
    (sound_taskInit.right_iff.mpr fun _ => rfl) (.of_forall fun _ _ _ => trivial) ran

/-- Without memory no task is made. -/
theorem task_lookup_without_tasks :
    ∃ s, Library.run step taskInit [.create ⟨none, true, true⟩] = some s ∧ s.nextTaskId = 0 ∧ Right s := by
  refine ⟨_, rfl, rfl, ?_⟩
  have lookups := (task_lookup_iff [.create ⟨none, true, true⟩] _ rfl).mpr ⟨Bool.false_ne_true, fun _ _ => trivial⟩
  exact lookups _ List.prefix_rfl _ rfl

/-- The idle task is live and has the id 0, but no lookup finds it. -/
theorem task_lookup_misses_idle :
    ∃ s, Library.run step taskInit [.create ⟨some 4096, true, true⟩] = some s ∧ Named s 0 4096 ∧
      findTaskById s 0 = some 0 ∧ ¬Right s := by
  have made : Sound (taskCreate ⟨some 4096, true, true⟩ taskInit).2 := ⟨rfl, rfl⟩
  refine ⟨_, rfl, ⟨⟨0, [], [], []⟩, rfl, rfl⟩, rfl, fun right => ?_⟩
  have none := made.right_iff.mp right 4096
  cases none

end Phabos.TaskTable
