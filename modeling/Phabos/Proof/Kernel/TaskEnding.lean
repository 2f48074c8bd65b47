import Phabos.Library.Run
import Phabos.Proof.Kernel.Scheduling

namespace Phabos.Sched
open Option
open Function (update update_of_ne update_self)

/-- Every task has the priority and the policy that a new task gets. -/
def Scheduler.Plain (s : Scheduler) : Prop :=
  ∀ t, (s.task t).priority = 0 ∧ ((s.task t).policy = none ∨ (s.task t).policy = some .rr)

section Plain
variable {s : Scheduler} {t : ℕ}

theorem Scheduler.Plain.setTask (plain : s.Plain) {task : Task}
    (same : task.priority = 0 ∧ (task.policy = none ∨ task.policy = some .rr)) : (s.setTask t task).Plain := by
  intro u
  change (update s.task t task u).priority = 0 ∧ _
  by_cases here : u = t
  · rw [here, Scheduler.setTask]
    simpa only [update_self] using same
  · rw [Scheduler.setTask]
    simpa only [update_of_ne here] using plain u

theorem Scheduler.Plain.ready (plain : s.Plain) : (s.ready t).Plain := by
  refine plain.setTask ⟨(plain t).1, .inr ?_⟩
  rcases (plain t).2 with none | rr
  · simp only [none, getD_none]
  · simp only [rr, getD_some]

theorem Scheduler.Plain.clear (plain : s.Plain) : (s.setTask t { s.task t with running := false }).Plain :=
  plain.setTask (plain t)

theorem Scheduler.Plain.listDel (plain : s.Plain) : (s.listDel t).Plain := plain

theorem Scheduler.Plain.listAdd (plain : s.Plain) (queue : Queue) : (s.listAdd queue t).Plain := plain

theorem schedRmFromRunqueue_cases (s : Scheduler) (t : ℕ) : schedRmFromRunqueue s t = s ∨
    schedRmFromRunqueue s t = (s.setTask t { s.task t with running := false }).listDel t := by
  unfold schedRmFromRunqueue
  split
  · exact .inl rfl
  · exact .inr rfl

theorem Scheduler.Plain.enqueueTask_eq (plain : s.Plain) :
    ((s.task t).policy.getD .rr).enqueueTask s t = some (s.listAdd (.rr 0) t) := by
  have rr : (s.task t).policy.getD .rr = .rr := by
    rcases (plain t).2 with none | rr
    · rw [none, getD_none]
    · rw [rr, getD_some]
  have positive := s.config.positive
  rw [rr]
  unfold Policy.enqueueTask schedRrEnqueueTask enqueueTask
  dsimp only
  rw [(plain t).1, if_pos (by omega)]
  rfl

theorem Scheduler.Plain.schedAddToRunqueue_eq (plain : s.Plain) :
    schedAddToRunqueue s t = (s.ready t).listAdd (.rr 0) t := by
  unfold schedAddToRunqueue
  have equal : ¬(((s.ready t).listAdd (.rr 0) t).task ((s.ready t).listAdd (.rr 0) t).current).priority <
      (((s.ready t).listAdd (.rr 0) t).task t).priority := by
    rw [show (((s.ready t).listAdd (.rr 0) t).task ((s.ready t).listAdd (.rr 0) t).current).priority = 0 from
      (plain.ready _).1, show (((s.ready t).listAdd (.rr 0) t).task t).priority = 0 from (plain.ready _).1]
    exact Int.lt_irrefl 0
  simp only [plain.ready.enqueueTask_eq]
  exact if_neg equal

end Plain

end Phabos.Sched

namespace Phabos.Tasks
open Library Sched List Option
open Function (update update_of_ne update_self)

/-- The steps of `task_exit` after the removal from the runqueue -/
def closing (t : ℕ) : List Op := [.broadcast (.ofTask t), .kill, .yield]

/-- What every step of the current task leaves alone -/
structure Machine.Continues (m : Machine) (op : Op) (next : Machine) : Prop where
  current : next.current = m.current
  others : ∀ t, t ≠ m.current → next.ops t = m.ops t
  kills : Op.kill ∈ next.ops m.current → Op.kill ∈ m.ops m.current ∨ next.ops m.current = closing m.current
  exits : op = .exitDequeue → next.ops m.current = closing m.current
  killTask : op ≠ .kill → next.scheduler.killTask = m.scheduler.killTask
  unlocked : next.scheduler.isLocked = m.scheduler.isLocked
  plain : next.scheduler.Plain
  live : ∀ t, next.live t = true → m.live t = true ∨ op = .run ∧ t = m.nextTaskId

section Continues
variable {m next : Machine} {op : Op} {rest : List Op}

theorem Machine.goOn_eq {middle : Machine} (ops : List Op) (current : middle.current = m.current)
    (same : middle.ops = m.ops) : middle.goOn ops = { middle with ops := update m.ops m.current ops } := by
  unfold Machine.goOn
  rw [current, same]

theorem Machine.Continues.goOn {scheduler : Scheduler} (front : List Op) (ops : m.ops m.current = op :: rest)
    (spared : Op.kill ∉ front) (plain : scheduler.Plain) (current : scheduler.current = m.current)
    (killTask : scheduler.killTask = m.scheduler.killTask) (unlocked : scheduler.isLocked = m.scheduler.isLocked)
    (stays : op ≠ .exitDequeue) (count : Object → BitVec 32) (faulted : Bool) :
    m.Continues op
      ⟨scheduler, update m.ops m.current (front ++ rest), m.live, m.nextTaskId, count, faulted⟩ where
  current := current
  others t differs := update_of_ne differs _ _
  kills there := by
    simp only [update_self, mem_append] at there
    rw [ops]
    exact .inl (mem_cons_of_mem _ (there.resolve_left spared))
  exits same := absurd same stays
  killTask _ := killTask
  unlocked := unlocked
  plain := plain
  live _ lives := .inl lives

theorem Machine.Continues.fault (plain : m.scheduler.Plain) (stays : op ≠ .exitDequeue) :
    m.Continues op { m with faulted := true } :=
  ⟨rfl, fun _ _ => rfl, .inl, fun same => absurd same stays, fun _ => rfl, rfl, plain, fun _ => .inl⟩

theorem Machine.Continues.close {scheduler : Scheduler} (plain : scheduler.Plain)
    (current : scheduler.current = m.current) (killTask : scheduler.killTask = m.scheduler.killTask)
    (unlocked : scheduler.isLocked = m.scheduler.isLocked) :
    m.Continues op { m.goOn (closing m.current) with scheduler := scheduler } where
  current := current
  others _ differs := update_of_ne differs _ _
  kills _ := .inr (update_self _ _ _)
  exits _ := update_self _ _ _
  killTask _ := killTask
  unlocked := unlocked
  plain := plain
  live _ lives := .inl lives

theorem Machine.Continues.of_perform (plain : m.scheduler.Plain) (ops : m.ops m.current = op :: rest)
    (performed : perform m rest op = some next) : m.Continues op next := by
  cases op with
  | down semaphore =>
    simp only [perform] at performed
    split at performed
    · have removed : (schedRmFromRunqueue m.scheduler m.current).Plain ∧
          (schedRmFromRunqueue m.scheduler m.current).current = m.current ∧
          (schedRmFromRunqueue m.scheduler m.current).killTask = m.scheduler.killTask ∧
          (schedRmFromRunqueue m.scheduler m.current).isLocked = m.scheduler.isLocked := by
        rcases schedRmFromRunqueue_cases m.scheduler m.current with same | same
        · rw [same]
          exact ⟨plain, rfl, rfl, rfl⟩
        · rw [same]
          exact ⟨plain.clear, rfl, rfl, rfl⟩
      obtain ⟨plain, current, killTask, unlocked⟩ := removed
      obtain rfl := some.inj performed
      unfold Machine.listAdd
      split
      · rw [Machine.goOn_eq (m := m)]
        · exact .goOn [.yield, .down semaphore] ops (by simp) plain current killTask unlocked nofun _ _
        · exact current
        · rfl
      · rw [Machine.goOn_eq (m := m)]
        · exact .goOn [.yield, .down semaphore] ops (by simp) (plain.listAdd _) current killTask unlocked nofun _ _
        · exact current
        · rfl
    · obtain rfl := some.inj performed
      exact .goOn [] ops not_mem_nil plain rfl rfl rfl nofun _ _
  | inc semaphore =>
    obtain rfl := some.inj performed
    exact .goOn [] ops not_mem_nil plain rfl rfl rfl nofun _ _
  | test semaphore =>
    obtain rfl := some.inj performed
    split
    · exact .goOn [] ops not_mem_nil plain rfl rfl rfl nofun _ _
    · exact .goOn [.first (.semaphore semaphore)] ops (by simp) plain rfl rfl rfl nofun _ _
  | first list =>
    simp only [perform] at performed
    split at performed
    · obtain rfl := some.inj performed
      exact .fault plain nofun
    · rename_i t others waiting
      obtain rfl := some.inj performed
      exact .goOn [.unlink list t] ops (by simp) plain rfl rfl rfl nofun _ _
  | broadcast cond =>
    obtain rfl := some.inj performed
    exact .goOn [.turn cond _] ops (by simp) plain rfl rfl rfl nofun _ _
  | turn cond iter =>
    cases iter with
    | none =>
      obtain rfl := some.inj performed
      exact .goOn [] ops not_mem_nil plain rfl rfl rfl nofun _ _
    | some t =>
      simp only [perform] at performed
      split at performed
      · obtain rfl := some.inj performed
        exact .goOn [.unlink (.cond cond) t, .turn cond _] ops (by simp) plain rfl rfl rfl nofun _ _
      · obtain rfl := some.inj performed
        exact .fault plain nofun
  | unlink list t =>
    obtain rfl := some.inj performed
    exact .goOn [.ready t] ops (by simp) plain.listDel rfl rfl rfl nofun _ _
  | ready t =>
    obtain rfl := some.inj performed
    exact .goOn [.enqueue t] ops (by simp) plain.ready rfl rfl rfl nofun _ _
  | enqueue t =>
    simp only [perform, plain.enqueueTask_eq] at performed
    split at performed
    · obtain rfl := some.inj performed
      exact .fault plain nofun
    · obtain rfl := some.inj performed
      split
      · exact .goOn [.yield] ops (by simp) (plain.listAdd _) rfl rfl rfl nofun _ _
      · exact .goOn [] ops not_mem_nil (plain.listAdd _) rfl rfl rfl nofun _ _
  | clear list =>
    simp only [perform] at performed
    split at performed
    · obtain rfl := some.inj performed
      exact .goOn [.link list] ops (by simp) plain rfl rfl rfl nofun _ _
    · obtain rfl := some.inj performed
      exact .goOn [.dequeue list] ops (by simp) plain.clear rfl rfl rfl nofun _ _
  | dequeue list =>
    obtain rfl := some.inj performed
    exact .goOn [.link list] ops (by simp) plain.listDel rfl rfl rfl nofun _ _
  | link list =>
    obtain rfl := some.inj performed
    unfold Machine.listAdd
    split
    · exact .goOn [] ops not_mem_nil plain rfl rfl rfl nofun _ _
    · exact .goOn [] ops not_mem_nil (plain.listAdd _) rfl rfl rfl nofun _ _
  | yield => cases performed
  | exitClear =>
    simp only [perform] at performed
    split at performed
    · obtain rfl := some.inj performed
      exact .close plain rfl rfl rfl
    · obtain rfl := some.inj performed
      exact .goOn [.exitDequeue] ops (by simp) plain.clear rfl rfl rfl nofun _ _
  | exitDequeue =>
    obtain rfl := some.inj performed
    exact .close plain.listDel rfl rfl rfl
  | kill =>
    obtain rfl := some.inj performed
    refine ⟨rfl, fun t differs => update_of_ne differs _ _, fun there => .inl ?_, nofun,
      fun differs => absurd rfl differs, rfl, plain, fun _ => .inl⟩
    rw [ops]
    exact mem_cons_self
  | run =>
    obtain rfl := some.inj performed
    have new : (m.scheduler.setTask m.nextTaskId ⟨0, true, none⟩).Plain := plain.setTask ⟨rfl, .inl rfl⟩
    simp only [new.schedAddToRunqueue_eq]
    refine ⟨rfl, fun t differs => update_of_ne differs _ _, fun there => .inl ?_, nofun, fun _ => rfl, rfl,
      new.ready, fun t lives => ?_⟩
    · rw [ops]
      apply mem_cons_of_mem
      change Op.kill ∈ update m.ops m.current _ m.current at there
      rw [update_self] at there
      split at there
      · exact (mem_cons.mp there).resolve_left nofun
      · exact there
    · by_cases same : t = m.nextTaskId
      · exact .inr ⟨rfl, same⟩
      · change update m.live m.nextTaskId true t = true at lives
        rw [update_of_ne same] at lives
        exact .inl lives

end Continues

/-- The tasks on the condition of the current task -/
def Machine.waitCond (m : Machine) : List ℕ := m.scheduler.queue (.wait (.cond (.ofTask m.current)))

/-- The steps at the end of `task_exit`: those who wait and are not runnable are still before the loop. -/
inductive Closing (m : Machine) : List Op → Prop
  | broadcast : Closing m [.broadcast (.ofTask m.current), .kill, .yield]
  | turn (left : m.waiters m.current ⊆ m.waitCond) :
      Closing m [.turn (.ofTask m.current) m.waitCond.head?, .kill, .yield]
  | unlink (waiter : ℕ) (others : List ℕ) (first : m.waitCond = waiter :: others)
      (left : m.waiters m.current ⊆ waiter :: others) :
      Closing m [.unlink (.cond (.ofTask m.current)) waiter, .turn (.ofTask m.current) others.head?, .kill, .yield]
  | ready (waiter : ℕ) (free : m.scheduler.node waiter = none)
      (left : m.waiters m.current ⊆ waiter :: m.waitCond) :
      Closing m [.ready waiter, .turn (.ofTask m.current) m.waitCond.head?, .kill, .yield]
  | enqueue (waiter : ℕ) (free : m.scheduler.node waiter = none)
      (running : (m.scheduler.task waiter).running = true) (left : m.waiters m.current ⊆ waiter :: m.waitCond) :
      Closing m [.enqueue waiter, .turn (.ofTask m.current) m.waitCond.head?, .kill, .yield]
  | kill (heard : m.waiters m.current ⊆ []) : Closing m [.kill, .yield]

section Closing
variable {m next : Machine} {op : Op} {rest : List Op} {t : ℕ}

theorem Machine.mem_waiters {waiter : ℕ} : waiter ∈ m.waiters t ↔
    waiter < m.nextTaskId ∧ Op.test (.ofTask t) ∈ m.ops waiter ∧ m.runnable waiter = false := by
  simp only [Machine.waiters, Machine.inTaskWait, mem_filter, mem_range, Bool.and_eq_true,
    Bool.not_eq_true', decide_eq_true_eq]

theorem Machine.waiters_subset {moved : List ℕ} (born : next.nextTaskId = m.nextTaskId)
    (others : ∀ u, u ≠ m.current → next.ops u = m.ops u) (outside : Op.test (.ofTask t) ∉ next.ops m.current)
    (kept : ∀ u, u ∉ moved → m.runnable u = true → next.runnable u = true) :
    next.waiters t ⊆ moved ++ m.waiters t := by
  intro u there
  obtain ⟨below, inside, blocked⟩ := Machine.mem_waiters.mp there
  have differs : u ≠ m.current := by
    rintro rfl
    exact outside inside
  rw [born] at below
  rw [others u differs] at inside
  by_cases lifted : u ∈ moved
  · exact mem_append_left _ lifted
  · apply mem_append_right
    refine Machine.mem_waiters.mpr ⟨below, inside, ?_⟩
    by_contra able
    rw [kept u lifted (eq_true_of_ne_false able)] at blocked
    cases blocked

theorem Machine.runnable_congr (running : (next.scheduler.task t).running = (m.scheduler.task t).running)
    (node : next.scheduler.node t = m.scheduler.node t) : next.runnable t = m.runnable t := by
  unfold Machine.runnable
  rw [running, node]

theorem nextNode_head (waiter : ℕ) (others : List ℕ) : nextNode (waiter :: others) waiter = others.head? := by
  simp [nextNode]

theorem Machine.waiters_goOn (m : Machine) (scheduler : Scheduler) (moved : List ℕ) (ops : List Op)
    (outside : Op.test (.ofTask t) ∉ ops)
    (kept : ∀ u, u ∉ moved → m.runnable u = true → Machine.runnable { m with scheduler := scheduler } u = true) :
    Machine.waiters { m.goOn ops with scheduler := scheduler } t ⊆ moved ++ m.waiters t := by
  refine Machine.waiters_subset rfl (fun u differs => update_of_ne differs _ _) ?_ kept
  simp only [Machine.goOn, update_self]
  exact outside

theorem Machine.runnable_ready {u : ℕ} (able : m.runnable u = true) :
    Machine.runnable { m with scheduler := m.scheduler.ready t } u = true := by
  by_cases same : u = t
  · unfold Machine.runnable at able ⊢
    simp only [Scheduler.ready, Scheduler.setTask, same, update_self, Bool.true_and] at able ⊢
    rcases Bool.or_eq_true_iff.mp able with idles | queued
    · rw [idles, Bool.true_or]
    · rw [(Bool.and_eq_true_iff.mp queued).2, Bool.or_true]
  · rw [← able]
    apply Machine.runnable_congr
    · exact congrArg Task.running (update_of_ne same _ _)
    · rfl

theorem Machine.runnable_listAdd {u : ℕ} (running : (m.scheduler.task t).running = true)
    (able : u ≠ t → m.runnable u = true) :
    Machine.runnable { m with scheduler := m.scheduler.listAdd (.rr 0) t } u = true := by
  by_cases same : u = t
  · unfold Machine.runnable
    simp only [Scheduler.listAdd, same, update_self, running, any_some, isRunqueue, Bool.and_self,
      Bool.or_true]
  · rw [← able same]
    apply Machine.runnable_congr
    · rfl
    · exact update_of_ne same _ _

theorem Machine.runnable_listDel {u : ℕ} (differs : u ≠ t) (able : m.runnable u = true) :
    Machine.runnable { m with scheduler := m.scheduler.listDel t } u = true := by
  rw [← able]
  apply Machine.runnable_congr
  · rfl
  · exact update_of_ne differs _ _

theorem Closing.step (end_ : Closing m (op :: rest)) (early : op ≠ .kill) (plain : m.scheduler.Plain)
    (met : op = .broadcast (.ofTask m.current) → m.waiters m.current ⊆ m.waitCond)
    (performed : perform m rest op = some next) : Closing next (next.ops m.current) := by
  cases end_ with
  | broadcast =>
    obtain rfl := some.inj performed
    simp only [Machine.goOn, update_self]
    have fewer := Machine.waiters_goOn (t := m.current) m m.scheduler []
      [.turn (.ofTask m.current) m.waitCond.head?, .kill, .yield] (by simp) (fun _ _ able => able)
    exact .turn (List.Subset.trans fewer (met rfl))
  | turn left =>
    cases waiting : m.waitCond with
    | nil =>
      rw [waiting] at performed left
      obtain rfl := some.inj performed
      simp only [Machine.goOn, update_self]
      have fewer := Machine.waiters_goOn (t := m.current) m m.scheduler [] [.kill, .yield] (by simp)
        (fun _ _ able => able)
      exact .kill (List.Subset.trans fewer left)
    | cons waiter others =>
      have there : waiter ∈ m.scheduler.queue (.wait (.cond (.ofTask m.current))) := by
        change waiter ∈ m.waitCond
        rw [waiting]
        exact mem_cons_self
      have after : nextNode (m.scheduler.queue (.wait (.cond (.ofTask m.current)))) waiter = others.head? := by
        change nextNode m.waitCond waiter = others.head?
        rw [waiting]
        exact nextNode_head waiter others
      rw [waiting, List.head?_cons] at performed
      simp only [perform, if_pos there, after] at performed
      obtain rfl := some.inj performed
      simp only [Machine.goOn, update_self]
      have fewer := Machine.waiters_goOn (t := m.current) m m.scheduler []
        [.unlink (.cond (.ofTask m.current)) waiter, .turn (.ofTask m.current) others.head?, .kill, .yield]
        (by simp) (fun _ _ able => able)
      rw [waiting] at left
      exact .unlink waiter others waiting (List.Subset.trans fewer left)
  | unlink waiter others first left =>
    have list : m.waitCond.erase waiter = others := by
      rw [first, erase_cons_head]
    rw [← list] at performed left
    obtain rfl := some.inj performed
    simp only [Machine.goOn, update_self]
    have fewer := Machine.waiters_goOn (t := m.current) m (m.scheduler.listDel waiter) [waiter]
      [.ready waiter, .turn (.ofTask m.current) (m.waitCond.erase waiter).head?, .kill, .yield] (by simp)
      (fun u differs able => Machine.runnable_listDel (fun same => differs (mem_singleton.mpr same)) able)
    have kept : [waiter] ++ m.waiters m.current ⊆ waiter :: m.waitCond.erase waiter :=
      cons_subset.mpr ⟨mem_cons_self, left⟩
    exact .ready waiter (update_self _ _ _) (List.Subset.trans fewer kept)
  | ready waiter free left =>
    obtain rfl := some.inj performed
    simp only [Machine.goOn, update_self]
    have fewer := Machine.waiters_goOn (t := m.current) m (m.scheduler.ready waiter) []
      [.enqueue waiter, .turn (.ofTask m.current) m.waitCond.head?, .kill, .yield] (by simp)
      (fun _ _ able => Machine.runnable_ready able)
    refine .enqueue waiter free ?_ (List.Subset.trans fewer left)
    exact congrArg Task.running (update_self waiter _ m.scheduler.task)
  | enqueue waiter free running left =>
    have level (u) : ((m.scheduler.listAdd (.rr 0) waiter).task u).priority = 0 := (plain.listAdd (.rr 0) u).1
    simp only [perform, plain.enqueueTask_eq, free, isSome_none, Bool.false_eq_true, ↓reduceIte, level,
      Int.lt_irrefl] at performed
    rw [Machine.goOn_eq (m := m)] at performed
    · obtain rfl := some.inj performed
      simp only [update_self]
      have able (u) (before : u ≠ waiter → m.runnable u = true) :
          Machine.runnable { m with scheduler := m.scheduler.listAdd (.rr 0) waiter } u = true :=
        Machine.runnable_listAdd running before
      have fewer := Machine.waiters_goOn (t := m.current) m (m.scheduler.listAdd (.rr 0) waiter) []
        [.turn (.ofTask m.current) m.waitCond.head?, .kill, .yield] (by simp)
        (fun u _ before => able u fun _ => before)
      refine .turn fun u there => ?_
      rcases mem_cons.mp (left (fewer there)) with rfl | listed
      · have blocked := (Machine.mem_waiters.mp there).2.2
        exact Bool.noConfusion ((able u fun differs => absurd rfl differs).symm.trans blocked)
      · exact listed
    · rfl
    · rfl
  | kill heard => exact absurd rfl early

theorem Closing.kill_step (end_ : Closing m (.kill :: rest)) (performed : perform m rest .kill = some next) :
    next.ops m.current = [.yield] ∧ next.waiters m.current ⊆ [] := by
  cases end_ with
  | kill heard =>
    obtain rfl := some.inj performed
    refine ⟨update_self _ _ _, ?_⟩
    have fewer := Machine.waiters_goOn (t := m.current) m { m.scheduler with killTask := true } [] [.yield] (by simp)
      (fun _ _ able => able)
    exact List.Subset.trans fewer heard

theorem Closing.kill_mem {ops : List Op} (end_ : Closing m ops) : Op.kill ∈ ops := by
  cases end_ <;> simp

end Closing

/-- A tick leaves a task that is past the removal in `task_exit` alone until its flag is set, everyone who waits for a
task in `task_wait` and is not runnable is on its condition when its broadcast starts, and there is no such one when
another task annihilates it. -/
def Lifetime.Orderly (m : Lifetime) : EndAction → Prop
  | .task (.call _) | .sysExit => True
  | .task .tick => Op.kill ∈ m.machine.ops m.machine.current → m.machine.current = idleTask
  | .task .exec =>
    (m.machine.ops m.machine.current).head? = some (.broadcast (.ofTask m.machine.current)) →
      m.machine.waiters m.machine.current ⊆ m.machine.waitCond
  | .annihilate t => t ≠ idleTask → t ≠ m.machine.current → m.machine.waiters t = []

/-- Only the current task is at the end of `task_exit`, and its waiting tasks are found by its broadcast. -/
structure Lifetime.Kept (m : Lifetime) : Prop where
  plain : m.machine.scheduler.Plain
  unlocked : m.machine.scheduler.isLocked = 0
  others : ∀ t, t ≠ idleTask → t ≠ m.machine.current → Op.kill ∉ m.machine.ops t
  closing : m.machine.current ≠ idleTask → Op.kill ∈ m.machine.ops m.machine.current →
    Closing m.machine (m.machine.ops m.machine.current)
  killed : m.machine.current ≠ idleTask → m.machine.scheduler.killTask = true →
    m.machine.ops m.machine.current = [.yield] ∧ m.machine.waiters m.machine.current ⊆ []
  stranded : m.stranded = []
  removed : ∀ t, t ≠ idleTask → m.removed t = true → m.machine.live t = true →
    t = m.machine.current ∧ (Op.kill ∈ m.machine.ops m.machine.current ∨ m.machine.scheduler.killTask = true)

section Kept
variable {m next : Lifetime} {machine : Machine}

theorem Call.spares (call : Call) : Op.kill ∉ call.program := by
  cases call <;> simp [Call.program, semaphoreLock, semaphoreUnlock, taskCondWait, taskWait]

theorem Lifetime.Kept.call (kept : m.Kept) (ops : m.machine.ops m.machine.current = []) (call : Call) :
    Lifetime.Kept { m with machine := m.machine.goOn call.program } := by
  have alive (other : m.machine.current ≠ idleTask) : m.machine.scheduler.killTask ≠ true := by
    intro killed
    rw [(kept.killed other killed).1] at ops
    cases ops
  refine ⟨kept.plain, kept.unlocked, fun t other differs => ?_, fun other kills => ?_, fun other killed => ?_,
    kept.stranded, fun t other removed lives => ?_⟩
  · have same : (m.machine.goOn call.program).ops t = m.machine.ops t := update_of_ne differs _ _
    rw [same]
    exact kept.others t other differs
  · simp only [Machine.goOn, Machine.current, update_self] at kills
    exact absurd kills call.spares
  · exact absurd killed (alive other)
  · obtain ⟨rfl, ends⟩ := kept.removed t other removed lives
    rw [ops] at ends
    rcases ends with there | killed
    · cases there
    · exact absurd killed (alive other)

theorem Lifetime.record_exec {op : Op} {rest : List Op} (ops : m.machine.ops m.machine.current = op :: rest)
    (continues : m.machine.Continues op machine) :
    (m.record .exec machine).machine = machine ∧ (m.record .exec machine).stranded = m.stranded ∧
      ∀ t, (m.record .exec machine).removed t = true → machine.live t = true →
        m.removed t = true ∧ m.machine.live t = true ∨ op = .exitDequeue ∧ t = m.machine.current := by
  unfold Lifetime.record
  rw [ops, List.head?_cons]
  dsimp only
  split
  · rename_i removes
    refine ⟨rfl, rfl, fun t removed lives => ?_⟩
    by_cases same : t = m.machine.current
    · exact .inr ⟨some.inj removes, same⟩
    · simp only [update_of_ne same] at removed
      obtain old | ⟨runs, -⟩ := continues.live t lives
      · exact .inl ⟨removed, old⟩
      · rw [some.inj removes] at runs
        cases runs
  · refine ⟨rfl, rfl, fun t removed lives => ?_⟩
    by_cases new : t = m.machine.nextTaskId
    · simp only [new, update_self] at removed
      cases removed
    · simp only [update_of_ne new] at removed
      obtain old | ⟨-, same⟩ := continues.live t lives
      · exact .inl ⟨removed, old⟩
      · exact absurd same new
  · rename_i stays runs
    refine ⟨rfl, rfl, fun t removed lives => ?_⟩
    obtain old | ⟨same, -⟩ := continues.live t lives
    · exact .inl ⟨removed, old⟩
    · exact absurd (congrArg some same) runs

theorem Lifetime.Kept.outside {op : Op} {rest : List Op} (kept : m.Kept) (other : m.machine.current ≠ idleTask)
    (ops : m.machine.ops m.machine.current = op :: rest) (yields : op ≠ .yield)
    (stays : Op.kill ∉ m.machine.ops m.machine.current) : m.machine.scheduler.killTask = false ∧
      ∀ t, t ≠ idleTask → m.removed t = true → m.machine.live t = false := by
  have spared : m.machine.scheduler.killTask ≠ true := by
    intro killed
    have last := (kept.killed other killed).1
    rw [ops] at last
    exact yields (cons.inj last).1
  refine ⟨Bool.eq_false_iff.mpr spared, fun t busy removed => ?_⟩
  apply Bool.eq_false_iff.mpr
  intro lives
  exact (kept.removed t busy removed lives).2.elim stays spared

theorem Lifetime.Kept.exec {op : Op} {rest : List Op} (kept : m.Kept) (orderly : m.Orderly (.task .exec))
    (ops : m.machine.ops m.machine.current = op :: rest) (performed : Tasks.perform m.machine rest op = some machine) :
    (m.record .exec machine).Kept := by
  have continues := Machine.Continues.of_perform kept.plain ops performed
  obtain ⟨same, stranded, removed⟩ := Lifetime.record_exec ops continues
  have yields : op ≠ .yield := by
    rintro rfl
    cases performed
  have others : ∀ t, t ≠ idleTask → t ≠ m.machine.current → Op.kill ∉ machine.ops t := by
    intro t busy differs
    rw [continues.others t differs]
    exact kept.others t busy differs
  have ends (other : m.machine.current ≠ idleTask) (inside : Op.kill ∈ m.machine.ops m.machine.current) :
      Closing m.machine (op :: rest) := by
    rw [← ops]
    exact kept.closing other inside
  have goesOn (other : m.machine.current ≠ idleTask) (inside : Op.kill ∈ m.machine.ops m.machine.current)
      (early : op ≠ .kill) : Closing machine (machine.ops m.machine.current) := by
    refine (ends other inside).step early kept.plain (fun starts => orderly ?_) performed
    rw [ops, List.head?_cons, starts]
  refine ⟨?_, ?_, ?_, ?_, ?_, stranded.trans kept.stranded, fun t busy gone lives => ?_⟩
  · rw [same]
    exact continues.plain
  · rw [same, continues.unlocked]
    exact kept.unlocked
  · rw [same, continues.current]
    exact others
  · rw [same, continues.current]
    intro other kills
    by_cases inside : Op.kill ∈ m.machine.ops m.machine.current
    · by_cases early : op = .kill
      · subst early
        rw [((ends other inside).kill_step performed).1] at kills
        simp at kills
      · exact goesOn other inside early
    · rw [(continues.kills kills).resolve_left inside, ← continues.current]
      exact .broadcast
  · rw [same, continues.current]
    intro other killed
    by_cases inside : Op.kill ∈ m.machine.ops m.machine.current
    · by_cases early : op = .kill
      · subst early
        exact (ends other inside).kill_step performed
      · rw [continues.killTask early] at killed
        have last := (kept.killed other killed).1
        rw [ops] at last
        exact absurd (cons.inj last).1 yields
    · have early : op ≠ .kill := by
        rintro rfl
        rw [ops] at inside
        exact inside mem_cons_self
      rw [continues.killTask early, (kept.outside other ops yields inside).1] at killed
      cases killed
  · rw [same] at lives ⊢
    rw [continues.current]
    rcases removed t gone lives with ⟨gone, lives⟩ | ⟨removes, rfl⟩
    · obtain ⟨rfl, end_⟩ := kept.removed t busy gone lives
      refine ⟨rfl, ?_⟩
      have inside : Op.kill ∈ m.machine.ops m.machine.current := by
        refine end_.resolve_right fun killed => ?_
        have last := (kept.killed busy killed).1
        rw [ops] at last
        exact yields (cons.inj last).1
      by_cases early : op = .kill
      · subst early
        obtain rfl := some.inj performed
        exact .inr rfl
      · exact .inl (goesOn busy inside early).kill_mem
    · refine ⟨rfl, .inl ?_⟩
      rw [continues.exits removes]
      exact Closing.broadcast.kill_mem

theorem switchTo_fields {s rotated next : Scheduler} {t : ℕ} (same : rotated.killTask = s.killTask)
    (switched : switchTo s rotated t = some next) :
    next.task = rotated.task ∧ next.isLocked = rotated.isLocked ∧ next.killTask = false := by
  unfold switchTo at switched
  split at switched
  · unfold Sched.taskAnnihilate at switched
    dsimp only at switched
    split at switched
    · obtain rfl := some.inj switched
      exact ⟨rfl, rfl, rfl⟩
    · split at switched
      · cases switched
      · obtain rfl := some.inj switched
        exact ⟨rfl, rfl, rfl⟩
  · rename_i spared
    obtain rfl := some.inj switched
    exact ⟨rfl, rfl, same.trans (Bool.eq_false_iff.mpr spared)⟩

theorem schedRrPickTask_isLocked (s : Scheduler) : (schedRrPickTask s).1.isLocked = s.isLocked := by
  unfold schedRrPickTask
  split <;> rfl

theorem Lifetime.Kept.of_clean (plain : m.machine.scheduler.Plain) (unlocked : m.machine.scheduler.isLocked = 0)
    (clean : ∀ t, t ≠ idleTask → Op.kill ∉ m.machine.ops t) (spared : m.machine.scheduler.killTask = false)
    (stranded : m.stranded = []) (released : ∀ t, t ≠ idleTask → m.removed t = true → m.machine.live t = false) :
    m.Kept := by
  refine ⟨plain, unlocked, fun t other _ => clean t other, fun other kills => absurd kills (clean _ other),
    fun _ killed => ?_, stranded, fun t other gone lives => ?_⟩
  · rw [spared] at killed
    cases killed
  · rw [released t other gone] at lives
    cases lives

/-- A tick that does not come at the end of `task_exit` releases the task whose flag is set, and nobody else. -/
theorem Lifetime.Kept.tick (kept : m.Kept) (orderly : m.Orderly (.task .tick))
    (ticked : Tasks.tick m.machine = some machine) : (m.record .tick machine).Kept := by
  obtain ⟨scheduler, scheduled, rfl⟩ := map_eq_some_iff.mp ticked
  obtain ⟨t, -, switched⟩ := schedule_switches kept.unlocked scheduled
  obtain ⟨task, locked, spared⟩ := switchTo_fields (schedRrPickTask_fields _).2.2 switched
  have plain : scheduler.Plain := by
    intro u
    rw [task, (schedRrPickTask_fields _).1]
    exact kept.plain u
  have unlocked : scheduler.isLocked = 0 := by
    rw [locked, schedRrPickTask_isLocked]
    exact kept.unlocked
  by_cases dies : m.machine.scheduler.killTask = true ∧ m.machine.current ≠ idleTask
  · have heard : m.machine.waiters m.machine.current = [] := subset_nil.mp (kept.killed dies.2 dies.1).2
    simp only [Lifetime.record, if_pos dies]
    refine .of_clean plain unlocked (fun u other => ?_) spared ?_ fun u other gone => ?_
    · by_cases here : u = m.machine.current
      · simp [here]
      · simp only [update_of_ne here]
        exact kept.others u other here
    · rw [heard, append_nil, kept.stranded]
    · by_cases here : u = m.machine.current
      · simp [here]
      · simp only [update_of_ne here]
        apply Bool.eq_false_iff.mpr
        intro lives
        exact here (kept.removed u other gone lives).1
  · simp only [Lifetime.record, if_neg dies]
    refine .of_clean plain unlocked (fun u other => ?_) spared kept.stranded fun u other gone => ?_
    · by_cases here : u = m.machine.current
      · subst here
        simp only [update_self]
        intro kills
        have inside : Op.kill ∈ m.machine.ops m.machine.current := by
          unfold afterSwitch at kills
          split at kills
          · rename_i rest yields
            rw [yields]
            exact mem_cons_of_mem _ kills
          · exact kills
        exact other (orderly inside)
      · simp only [update_of_ne here]
        exact kept.others u other here
    · apply Bool.eq_false_iff.mpr
      intro lives
      obtain ⟨rfl, end_⟩ := kept.removed u other gone lives
      rcases end_ with inside | killed
      · exact other (orderly inside)
      · exact dies ⟨killed, other⟩

theorem Lifetime.Kept.destroy {t : ℕ} (kept : m.Kept) (differs : t ≠ m.machine.current)
    (ops : m.machine.ops m.machine.current = []) (heard : m.machine.waiters t = []) :
    Lifetime.Kept { m with machine := m.machine.destroy t, stranded := m.stranded ++ m.machine.waiters t } := by
  have alive (other : m.machine.current ≠ idleTask) : m.machine.scheduler.killTask ≠ true := by
    intro killed
    rw [(kept.killed other killed).1] at ops
    cases ops
  have same : (m.machine.destroy t).ops m.machine.current = [] :=
    (update_of_ne differs.symm _ _).trans ops
  refine ⟨kept.plain.listDel, kept.unlocked, fun u other apart => ?_, fun other kills => ?_,
    fun other killed => absurd killed (alive other), ?_, fun u other gone lives => ?_⟩
  · by_cases here : u = t
    · simp [Machine.destroy, here]
    · simp only [Machine.destroy, update_of_ne here]
      exact kept.others u other apart
  · change Op.kill ∈ (m.machine.destroy t).ops m.machine.current at kills
    rw [same] at kills
    cases kills
  · rw [heard, append_nil, kept.stranded]
  · by_cases here : u = t
    · simp [Machine.destroy, here] at lives
    · simp only [Machine.destroy, update_of_ne here] at lives
      obtain ⟨rfl, end_⟩ := kept.removed u other gone lives
      rw [ops] at end_
      exact absurd (end_.resolve_left not_mem_nil) (alive other)

theorem Lifetime.Kept.perform (kept : m.Kept) (action : Action) (orderly : m.Orderly (.task action))
    (performed : m.perform action = some next) : next.Kept := by
  obtain ⟨machine, stepped, rfl⟩ := map_eq_some_iff.mp performed
  rcases step_cases stepped with ⟨call, rfl, ops, rfl⟩ | ⟨op, rest, rfl, ops, executed⟩ | ⟨rfl, ticked⟩
  · exact kept.call ops call
  · exact kept.exec orderly ops executed
  · exact kept.tick orderly ticked

/-- An orderly step keeps the endings complete. -/
theorem Lifetime.Kept.step {action : EndAction} (kept : m.Kept) (orderly : m.Orderly action)
    (stepped : m.step action = some next) : next.Kept := by
  cases action with
  | task action => exact kept.perform action orderly stepped
  | sysExit =>
    obtain ⟨-, performed⟩ := ite_none_left_eq_some.mp stepped
    exact kept.perform (.call .exit) trivial performed
  | annihilate t =>
    obtain ⟨free, chosen⟩ := ite_none_left_eq_some.mp stepped
    have ops : m.machine.ops m.machine.current = [] := by
      by_contra busy
      exact free (.inr busy)
    split at chosen
    · obtain rfl := some.inj chosen
      exact kept
    rename_i other
    split at chosen
    · exact kept.perform (.call .exit) trivial chosen
    rename_i differs
    obtain ⟨-, rfl⟩ := ite_some_none_eq_some.mp chosen
    exact kept.destroy (Ne.symm differs) ops (orderly other (Ne.symm differs))

/-- Nothing has ended after the boot. -/
theorem Lifetime.Kept.boot (config : Config) (values : ℕ → BitVec 32) : (Lifetime.boot config values).Kept := by
  refine .of_clean (fun t => ?_) rfl (fun _ _ => not_mem_nil) rfl rfl fun _ _ gone => ?_
  · unfold Lifetime.boot Tasks.boot schedInit
    dsimp only
    split <;> exact ⟨rfl, .inl rfl⟩
  · cases gone

end Kept

/-- Nobody was blocked in `task_wait` for a task when its memory was released, and a task that `task_exit` has removed
from the runqueue is executing or released. -/
structure Lifetime.Complete (m : Lifetime) : Prop where
  heard : m.stranded = []
  released : ∀ t, t ≠ idleTask → m.removed t = true → t ≠ m.machine.current → m.machine.live t = false

theorem Lifetime.Kept.complete {m : Lifetime} (kept : m.Kept) : m.Complete := by
  refine ⟨kept.stranded, fun t other gone differs => ?_⟩
  apply Bool.eq_false_iff.mpr
  intro lives
  exact differs (kept.removed t other gone lives).1

/-- In an orderly run every end of a task is complete. -/
theorem task_ends_are_complete (config : Config) (values : ℕ → BitVec 32) (actions : List EndAction) (m : Lifetime)
    (orderly : Guarded Lifetime.step Lifetime.Orderly (Lifetime.boot config values) actions)
    (ran : run Lifetime.step (Lifetime.boot config values) actions = some m) : m.Complete := by
  have kept := run_invariant_of_guarded Lifetime.Kept (.boot config values) orderly ran fun kept => kept.step
  exact kept.complete

instance (m : Lifetime) (action : EndAction) : Decidable (m.Orderly action) :=
  match action with
  | .task (.call _) | .sysExit => isTrue trivial
  | .task .tick =>
    inferInstanceAs (Decidable (Op.kill ∈ m.machine.ops m.machine.current → m.machine.current = idleTask))
  | .task .exec =>
    inferInstanceAs (Decidable ((m.machine.ops m.machine.current).head? =
      some (.broadcast (.ofTask m.machine.current)) →
        ∀ waiter ∈ m.machine.waiters m.machine.current, waiter ∈ m.machine.waitCond))
  | .annihilate t =>
    inferInstanceAs (Decidable (t ≠ idleTask → t ≠ m.machine.current → m.machine.waiters t = []))

/-- Two tasks, where the second one waits for the first one, which runs. -/
def waitForFirst : List EndAction :=
  [.task (.call .run), .task .exec, .task (.call .run), .task .exec, .task .tick, .task (.call (.wait 1))]
    ++ List.replicate 6 (.task .exec) ++ [.task .tick]

/-- The first task ends by `sys_exit`. -/
def firstExits : List EndAction := waitForFirst ++ [.sysExit] ++ List.replicate 9 (.task .exec) ++ [.task .tick]

theorem task_ends_are_complete_exit :
    ∃ m, run Lifetime.step (Lifetime.boot ⟨32, 32, by decide⟩ fun _ => 1) firstExits = some m ∧
      m.machine.live 1 = false ∧ m.machine.runnable 2 = true ∧ m.Complete := by
  refine exists_final (fun m => (m.machine.live 1, m.machine.runnable 2)) (false, true) (by decide +kernel)
    fun m ran same => ?_
  obtain ⟨released, able⟩ := Prod.mk.inj same
  refine ⟨released, able, task_ends_are_complete ⟨32, 32, by decide⟩ (fun _ => 1) firstExits m ?_ ran⟩
  decide +kernel

/-- A tick comes before the first task broadcasts. -/
def exitInterrupted : List EndAction := waitForFirst ++ [.sysExit, .task .exec, .task .exec, .task .tick]

/-- Three tasks, where the second one is in `task_wait` for the first one -/
def thirdTask : List EndAction :=
  [.task (.call .run), .task .exec, .task (.call .run), .task .exec, .task (.call .run), .task .exec, .task .tick,
    .task (.call (.wait 1))]

/-- The third task annihilates the first one. -/
def firstAnnihilated : List EndAction :=
  thirdTask ++ List.replicate 6 (.task .exec) ++ [.task .tick, .task .tick, .annihilate 1]

/-- The third task waits for the mutex that the second one has, and the first one ends. -/
def mutexAwaited : List EndAction :=
  thirdTask
    ++ [.task .exec, .task .tick, .task (.call (.wait 1)), .task .exec, .task .tick, .task .tick, .sysExit]
    ++ List.replicate 5 (.task .exec) ++ [.task .tick]

/-- A task that another one annihilates leaves its waiting task blocked, a tick loses a task in `task_exit`, and a task
that waits for the `wait_mutex` of a task is still blocked at the end of that task. -/
theorem task_annihilate_strands_waiter :
    (∃ m, run Lifetime.step (Lifetime.boot ⟨32, 32, by decide⟩ fun _ => 1) firstAnnihilated = some m ∧
      m.stranded = [2] ∧ ¬m.Complete) ∧
    (∃ m, run Lifetime.step (Lifetime.boot ⟨32, 32, by decide⟩ fun _ => 1) exitInterrupted = some m ∧ ¬m.Complete) ∧
    ∃ m, run Lifetime.step (Lifetime.boot ⟨32, 32, by decide⟩ fun _ => 1) mutexAwaited = some m ∧
      m.stranded = [3] ∧ ¬m.Complete := by
  have annihilated : (run Lifetime.step (Lifetime.boot ⟨32, 32, by decide⟩ fun _ => 1) firstAnnihilated).map
      Lifetime.stranded = some [2] := by
    decide +kernel
  have lost : (run Lifetime.step (Lifetime.boot ⟨32, 32, by decide⟩ fun _ => 1) exitInterrupted).map
      (fun m => (m.removed 1, m.machine.current, m.machine.live 1)) = some (true, 0, true) := by
    decide +kernel
  have awaited : (run Lifetime.step (Lifetime.boot ⟨32, 32, by decide⟩ fun _ => 1) mutexAwaited).map
      Lifetime.stranded = some [3] := by
    decide +kernel
  refine ⟨?_, ?_, ?_⟩
  · obtain ⟨m, ran, stranded⟩ := map_eq_some_iff.mp annihilated
    refine ⟨m, ran, stranded, fun complete => ?_⟩
    rw [complete.heard] at stranded
    cases stranded
  · obtain ⟨m, ran, same⟩ := map_eq_some_iff.mp lost
    obtain ⟨removed, same⟩ := Prod.mk.inj same
    obtain ⟨current, lives⟩ := Prod.mk.inj same
    refine ⟨m, ran, fun complete => ?_⟩
    have apart : 1 ≠ m.machine.current := by
      rw [current]
      decide
    rw [complete.released 1 (by decide) removed apart] at lives
    cases lives
  · obtain ⟨m, ran, stranded⟩ := map_eq_some_iff.mp awaited
    refine ⟨m, ran, stranded, fun complete => ?_⟩
    rw [complete.heard] at stranded
    cases stranded

end Phabos.Tasks
