import Phabos.Construction.Kernel.Task

namespace Phabos.Sched
open Function
variable {s next : Scheduler} {t : ℕ}

theorem highest_eq_some (queue : ℕ → List ℕ) {bound i : ℕ} (below : i < bound) (found : queue i ≠ [])
    (above : ∀ j < bound, i < j → queue j = []) : highest queue bound = some i := by
  induction bound with
  | zero => exact absurd below (Nat.not_lt_zero _)
  | succ bound ih =>
    unfold highest
    by_cases last : i = bound
    · rw [if_neg (last ▸ found), last]
    · have inside : i < bound := by omega
      rw [if_pos (above bound (Nat.lt_succ_self _) inside)]
      exact ih inside fun j less => above j (Nat.lt_succ_of_lt less)

theorem highest_eq_none {queue : ℕ → List ℕ} {bound : ℕ} (empty : ∀ j < bound, queue j = []) :
    highest queue bound = none := by
  induction bound with
  | zero => rfl
  | succ bound ih =>
    unfold highest
    rw [if_pos (empty bound (Nat.lt_succ_self _))]
    exact ih fun j less => empty j (Nat.lt_succ_of_lt less)

theorem highest_eq_some_iff {queue : ℕ → List ℕ} {bound i : ℕ} :
    highest queue bound = some i ↔ i < bound ∧ queue i ≠ [] ∧ ∀ j < bound, i < j → queue j = [] := by
  refine ⟨fun found => ?_, fun all => highest_eq_some queue all.1 all.2.1 all.2.2⟩
  induction bound with
  | zero => cases found
  | succ bound ih =>
    unfold highest at found
    split at found
    · rename_i empty
      obtain ⟨below, some, above⟩ := ih found
      refine ⟨Nat.lt_succ_of_lt below, some, fun j less greater => ?_⟩
      obtain inside | rfl := Nat.lt_succ_iff_lt_or_eq.mp less
      · exact above j inside greater
      · exact empty
    · rename_i some
      obtain rfl := Option.some.inj found
      refine ⟨Nat.lt_succ_self bound, some, fun j less greater => ?_⟩
      omega

theorem highest_eq_none_iff {queue : ℕ → List ℕ} {bound : ℕ} :
    highest queue bound = none ↔ ∀ j < bound, queue j = [] := by
  refine ⟨fun missed => ?_, highest_eq_none⟩
  induction bound with
  | zero => exact fun j less => absurd less (Nat.not_lt_zero j)
  | succ bound ih =>
    unfold highest at missed
    split at missed
    · rename_i empty
      intro j less
      obtain inside | rfl := Nat.lt_succ_iff_lt_or_eq.mp less
      · exact ih missed j inside
      · exact empty
    · cases missed

theorem listRotateAnticlockwise_perm (queue : List ℕ) : (listRotateAnticlockwise queue).Perm queue := by
  cases queue with
  | nil => exact .refl _
  | cons first rest => exact List.perm_append_singleton first rest

theorem schedRrPickTask_queue (s : Scheduler) (queue : Queue) :
    ((schedRrPickTask s).1.queue queue).Perm (s.queue queue) := by
  unfold schedRrPickTask
  split
  · exact .refl _
  · rename_i i _
    by_cases same : queue = .rr i
    · subst same
      simp only [update_self]
      exact listRotateAnticlockwise_perm _
    · simp only [update_of_ne same]
      exact .refl _

theorem schedRrPickTask_fields (s : Scheduler) : (schedRrPickTask s).1.task = s.task ∧
    (schedRrPickTask s).1.config = s.config ∧ (schedRrPickTask s).1.killTask = s.killTask := by
  unfold schedRrPickTask
  split <;> exact ⟨rfl, rfl, rfl⟩

theorem schedFifoPickTask_mem (picked : schedFifoPickTask s = some t) :
    ∃ queue, t ∈ s.queue queue ∧ ∀ list, queue ≠ .wait list := by
  obtain ⟨i, -, head⟩ := Option.bind_eq_some_iff.mp picked
  exact ⟨.fifo i, List.mem_of_head? head, nofun⟩

theorem schedRrPickTask_mem (picked : (schedRrPickTask s).2 = some t) :
    ∃ queue, t ∈ s.queue queue ∧ ∀ list, queue ≠ .wait list := by
  unfold schedRrPickTask at picked
  split at picked
  · cases picked
  · rename_i i _
    exact ⟨.rr i, (listRotateAnticlockwise_perm _).mem_iff.mp (List.mem_of_head? picked), nofun⟩

theorem prefer_cases {fifo rr : Option ℕ} (preferred : prefer s fifo rr = some t) :
    fifo = some t ∨ rr = some t := by
  cases fifo with
  | none => exact .inr preferred
  | some first =>
    cases rr with
    | none => exact .inl preferred
    | some second =>
      simp only [prefer] at preferred
      split at preferred
      · exact .inr preferred
      · exact .inl preferred

theorem schedule_switches (unlocked : s.isLocked = 0) (scheduled : schedule s = some next) :
    ∃ t, (t = idleTask ∨ ∃ queue, t ∈ s.queue queue ∧ ∀ list, queue ≠ .wait list) ∧
      switchTo s (schedRrPickTask s).1 t = some next := by
  unfold schedule at scheduled
  rw [if_neg (not_not.mpr unlocked)] at scheduled
  dsimp only at scheduled
  split at scheduled
  · split at scheduled
    · exact ⟨idleTask, .inl rfl, scheduled⟩
    · cases scheduled
  · rename_i t preferred
    refine ⟨t, .inr ?_, scheduled⟩
    rcases prefer_cases preferred with fifo | rr
    · exact schedFifoPickTask_mem fifo
    · exact schedRrPickTask_mem rr

theorem schedule_cases (spared : s.killTask = false) (scheduled : schedule s = some next) :
    next = s ∨ ∃ t, next = { (schedRrPickTask s).1 with current := t, needResched := false } := by
  by_cases unlocked : s.isLocked = 0
  · obtain ⟨t, -, switched⟩ := schedule_switches unlocked scheduled
    unfold switchTo at switched
    rw [spared] at switched
    exact .inr ⟨t, (Option.some.inj switched).symm⟩
  · unfold schedule at scheduled
    rw [if_pos unlocked] at scheduled
    exact .inl (Option.some.inj scheduled).symm

/-- The queues of a policy -/
def Policy.queue : Policy → ℕ → Queue
  | .fifo => .fifo
  | .rr => .rr

theorem Policy.queue_inj {policy other : Policy} {i j : ℕ} (same : policy.queue i = other.queue j) :
    policy = other ∧ i = j := by
  cases policy <;> cases other <;> cases same <;> exact ⟨rfl, rfl⟩

/-- The number of priorities of a policy -/
def Policy.priorities (config : Config) : Policy → ℕ
  | .fifo => config.numFifoPriorities
  | .rr => config.numRrPriorities

/-- A policy has a queue for the priority of a task. -/
def Policy.Covers (policy : Policy) (config : Config) (priority : ℤ) : Prop :=
  0 ≤ priority ∧ priority ≤ policy.priorities config - 1

instance (policy : Policy) (config : Config) (priority : ℤ) : Decidable (policy.Covers config priority) :=
  inferInstanceAs (Decidable (_ ∧ _))

theorem enqueueTask_eq (policy : Policy) (s : Scheduler) (t : ℕ) : policy.enqueueTask s t =
    if policy.Covers s.config (s.task t).priority then some (s.listAdd (policy.queue (s.task t).priority.toNat) t)
    else none := by
  cases policy <;> rfl

theorem enqueueTask_cases (policy : Policy) (s : Scheduler) (t : ℕ) :
    policy.enqueueTask s t = none ∨ ∃ queue, policy.enqueueTask s t = some (s.listAdd queue t) ∧
      ∀ i, queue = .rr i → i < s.config.numRrPriorities := by
  cases policy with
  | fifo =>
    by_cases fits : 0 ≤ (s.task t).priority ∧ (s.task t).priority ≤ s.config.numFifoPriorities - 1
    · exact .inr ⟨_, if_pos fits, fun i same => by cases same⟩
    · exact .inl (if_neg fits)
  | rr =>
    by_cases fits : 0 ≤ (s.task t).priority ∧ (s.task t).priority ≤ s.config.numRrPriorities - 1
    · refine .inr ⟨_, if_pos fits, fun i same => ?_⟩
      obtain rfl := Queue.rr.inj same
      omega
    · exact .inl (if_neg fits)

theorem schedAddToRunqueue_refused {policy : Policy} (same : (s.task t).policy.getD .rr = policy)
    (refused : ¬ policy.Covers s.config (s.task t).priority) : schedAddToRunqueue s t = s.ready t := by
  have task : (s.ready t).task t = { s.task t with policy := some policy, running := true } := by
    rw [← same]
    exact update_self ..
  unfold schedAddToRunqueue
  dsimp only
  rw [task, Option.getD_some, enqueueTask_eq, task]
  dsimp only
  rw [show (s.ready t).config = s.config from rfl, if_neg refused]

theorem schedAddToRunqueue_covered {policy : Policy} (same : (s.task t).policy.getD .rr = policy)
    (covered : policy.Covers s.config (s.task t).priority) : ∃ needResched, schedAddToRunqueue s t =
      { (s.ready t).listAdd (policy.queue (s.task t).priority.toNat) t with needResched := needResched } := by
  have task : (s.ready t).task t = { s.task t with policy := some policy, running := true } := by
    rw [← same]
    exact update_self ..
  unfold schedAddToRunqueue
  dsimp only
  rw [task, Option.getD_some, enqueueTask_eq, task]
  dsimp only
  rw [show (s.ready t).config = s.config from rfl, if_pos covered]
  dsimp only
  split
  · exact ⟨true, rfl⟩
  · exact ⟨_, rfl⟩

theorem schedAddToRunqueue_cases (s : Scheduler) (t : ℕ) :
    (∀ queue, (schedAddToRunqueue s t).queue queue = s.queue queue ∨
      (schedAddToRunqueue s t).queue queue = s.queue queue ++ [t] ∧
        ∀ i, queue = .rr i → i < s.config.numRrPriorities) ∧
      (∃ task : Task, task.running = true ∧
        (schedAddToRunqueue s t).task = update s.task t task) ∧
      (schedAddToRunqueue s t).config = s.config ∧ (schedAddToRunqueue s t).killTask = s.killTask ∧
      (schedAddToRunqueue s t).current = s.current := by
  unfold schedAddToRunqueue
  dsimp only
  rcases enqueueTask_cases (((s.ready t).task t).policy.getD .rr) (s.ready t) t with failed | ⟨queue, added, fits⟩
  · rw [failed]
    exact ⟨fun _ => .inl rfl, ⟨_, rfl, rfl⟩, rfl, rfl, rfl⟩
  · rw [added]
    have changed (other) : ((s.ready t).listAdd queue t).queue other = s.queue other ∨
        ((s.ready t).listAdd queue t).queue other = s.queue other ++ [t] ∧
          ∀ i, other = .rr i → i < s.config.numRrPriorities := by
      by_cases same : other = queue
      · subst same
        exact .inr ⟨update_self _ _ _, fits⟩
      · exact .inl (update_of_ne same _ _)
    dsimp only
    split
    · exact ⟨changed, ⟨_, rfl, rfl⟩, rfl, rfl, rfl⟩
    · exact ⟨changed, ⟨_, rfl, rfl⟩, rfl, rfl, rfl⟩

end Phabos.Sched

namespace Phabos.Tasks
variable {m next : Machine}

theorem step_cases {action : Action} (stepped : step m action = some next) :
    (∃ call, action = .call call ∧ m.ops m.current = [] ∧ next = m.goOn call.program) ∨
      (∃ op rest, action = .exec ∧ m.ops m.current = op :: rest ∧ perform m rest op = some next) ∨
      action = .tick ∧ tick m = some next := by
  unfold step at stepped
  split at stepped
  · cases stepped
  cases action with
  | call call =>
    obtain ⟨ops, same⟩ := Option.ite_none_right_eq_some.mp stepped
    exact .inl ⟨call, rfl, ops, (Option.some.inj same).symm⟩
  | exec =>
    cases ops : m.ops m.current with
    | nil =>
      simp only [ops] at stepped
      cases stepped
    | cons op rest =>
      simp only [ops] at stepped
      exact .inr (.inl ⟨op, rest, rfl, rfl, stepped⟩)
  | tick => exact .inr (.inr ⟨rfl, stepped⟩)

end Phabos.Tasks
