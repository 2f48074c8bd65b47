import Phabos.Proof.Kernel.RoundRobin
import Phabos.Proof.Kernel.RunqueueRings

namespace Phabos.Sched
open Library Function List Option

/-- A task is on a runqueue. -/
def Scheduler.Ready (s : Scheduler) (t : ℕ) : Prop := ∃ i, t ∈ s.queue (.fifo i) ∨ t ∈ s.queue (.rr i)

/-- A task on a runqueue is on the queue of its priority. The idle task is running, and a task to kill has left its
runqueue in `task_exit`. -/
structure Scheduler.Ranked (s : Scheduler) : Prop where
  fifo : ∀ i, ∀ t ∈ s.queue (.fifo i), (s.task t).priority = i ∧ i < s.config.numFifoPriorities
  rr : ∀ i, ∀ t ∈ s.queue (.rr i), (s.task t).priority = i ∧ i < s.config.numRrPriorities
  idle : (s.task idleTask).running = true
  ending : s.killTask = true → ¬ s.Ready s.current

/-- A task is on a runqueue if there is one, else it is the idle task. No other one has a higher priority, and one of
the fifo policy is behind it in its queue unless the priority is lower. -/
structure Scheduler.Chosen (s : Scheduler) (t : ℕ) : Prop where
  ready : (∃ u, s.Ready u) → s.Ready t
  idles : (∀ u, ¬ s.Ready u) → t = idleTask
  highest : ∀ u, s.Ready u → (s.task u).priority ≤ (s.task t).priority
  first : ∀ i, ∀ u ∈ s.queue (.fifo i), (s.task u).priority = (s.task t).priority → (s.queue (.fifo i)).head? = some t

section Choice
variable {s : Scheduler} {t : ℕ}

section
variable (ranked : s.Ranked)
include ranked

theorem schedFifoPickTask_none (none : schedFifoPickTask s = none) (i u : ℕ) : u ∉ s.queue (.fifo i) := by
  intro there
  have empty : highest (fun i => s.queue (.fifo i)) s.config.numFifoPriorities = Option.none := by
    rw [Option.eq_none_iff_forall_not_mem]
    intro j found
    have some := (highest_eq_some_iff.mp found).2.1
    have missed := Option.bind_eq_none_iff.mp none j found
    exact some (List.head?_eq_none_iff.mp missed)
  rw [highest_eq_none_iff.mp empty i (ranked.fifo i u there).2] at there
  cases there

theorem schedFifoPickTask_some (picked : schedFifoPickTask s = some t) :
    ∃ i, (s.queue (.fifo i)).head? = some t ∧ ∀ j, ∀ u ∈ s.queue (.fifo j), j ≤ i := by
  obtain ⟨i, found, head⟩ := Option.bind_eq_some_iff.mp picked
  refine ⟨i, head, fun j u there => Nat.le_of_not_lt fun above => ?_⟩
  have empty := (highest_eq_some_iff.mp found).2.2 j (ranked.fifo j u there).2 above
  rw [empty] at there
  cases there

theorem schedRrPickTask_none (none : (schedRrPickTask s).2 = none) (i u : ℕ) : u ∉ s.queue (.rr i) := by
  intro there
  unfold schedRrPickTask at none
  split at none
  · rename_i empty
    have nobody := highest_eq_none_iff.mp empty i (ranked.rr i u there).2
    rw [nobody] at there
    cases there
  · rename_i j found
    have some := (highest_eq_some_iff.mp found).2.1
    have same := listRotateAnticlockwise_perm (s.queue (.rr j))
    rw [List.head?_eq_none_iff.mp none] at same
    exact some same.nil_eq.symm

theorem schedRrPickTask_some (picked : (schedRrPickTask s).2 = some t) :
    ∃ i, t ∈ s.queue (.rr i) ∧ ∀ j, ∀ u ∈ s.queue (.rr j), j ≤ i := by
  unfold schedRrPickTask at picked
  split at picked
  · cases picked
  · rename_i i found
    refine ⟨i, (listRotateAnticlockwise_perm _).mem_iff.mp (mem_of_head? picked), fun j u there => ?_⟩
    refine Nat.le_of_not_lt fun above => ?_
    have empty := (highest_eq_some_iff.mp found).2.2 j (ranked.rr j u there).2 above
    rw [empty] at there
    cases there

theorem Scheduler.Ranked.chosen_fifo {i : ℕ} (head : (s.queue (.fifo i)).head? = some t)
    (below : ∀ j, ∀ u ∈ s.queue (.fifo j), j ≤ i) (rr : ∀ j, ∀ u ∈ s.queue (.rr j), j ≤ i) : s.Chosen t := by
  have there := mem_of_head? head
  have priority := (ranked.fifo i t there).1
  refine ⟨fun _ => ⟨i, .inl there⟩, fun nobody => absurd ⟨i, .inl there⟩ (nobody t), fun u ready => ?_,
    fun j u fifo same => ?_⟩
  · obtain ⟨j, fifo | robin⟩ := ready
    · have less := below j u fifo
      rw [(ranked.fifo j u fifo).1, priority]
      omega
    · have less := rr j u robin
      rw [(ranked.rr j u robin).1, priority]
      omega
  · rw [(ranked.fifo j u fifo).1, priority] at same
    rw [Int.ofNat_inj.mp same]
    exact head

/-- The pick of the round robin policy is the choice when every task of the other policy has a lower priority. -/
theorem Scheduler.Ranked.chosen_rr {i : ℕ} (there : t ∈ s.queue (.rr i)) (below : ∀ j, ∀ u ∈ s.queue (.rr j), j ≤ i)
    (fifo : ∀ j, ∀ u ∈ s.queue (.fifo j), j < i) : s.Chosen t := by
  have priority := (ranked.rr i t there).1
  refine ⟨fun _ => ⟨i, .inr there⟩, fun nobody => absurd ⟨i, .inr there⟩ (nobody t), fun u ready => ?_,
    fun j u first same => ?_⟩
  · obtain ⟨j, first | robin⟩ := ready
    · have less := fifo j u first
      rw [(ranked.fifo j u first).1, priority]
      omega
    · have less := below j u robin
      rw [(ranked.rr j u robin).1, priority]
      omega
  · have less := fifo j u first
    rw [(ranked.fifo j u first).1, priority] at same
    omega

theorem Scheduler.Ranked.chosen : s.Chosen ((prefer s (schedFifoPickTask s) (schedRrPickTask s).2).getD idleTask) := by
  cases fifo : schedFifoPickTask s with
  | none =>
    have noFifo := schedFifoPickTask_none ranked fifo
    cases rr : (schedRrPickTask s).2 with
    | none =>
      have nobody (u : ℕ) : ¬ s.Ready u := by
        rintro ⟨i, there | there⟩
        · exact noFifo i u there
        · exact schedRrPickTask_none ranked rr i u there
      exact ⟨fun ready => absurd ready.choose_spec (nobody _), fun _ => rfl, fun u ready => absurd ready (nobody u),
        fun i u there => absurd there (noFifo i u)⟩
    | some t =>
      obtain ⟨i, there, below⟩ := schedRrPickTask_some ranked rr
      exact ranked.chosen_rr there below fun j u first => absurd first (noFifo j u)
  | some t =>
    obtain ⟨i, head, below⟩ := schedFifoPickTask_some ranked fifo
    cases rr : (schedRrPickTask s).2 with
    | none => exact ranked.chosen_fifo head below fun j u robin => absurd robin (schedRrPickTask_none ranked rr j u)
    | some picked =>
      obtain ⟨k, there, belowRr⟩ := schedRrPickTask_some ranked rr
      have first := (ranked.fifo i t (mem_of_head? head)).1
      have second := (ranked.rr k picked there).1
      dsimp only [prefer]
      split
      · refine ranked.chosen_rr there belowRr fun j u fifo => ?_
        have less := below j u fifo
        omega
      · refine ranked.chosen_fifo head below fun j u robin => ?_
        have less := belowRr j u robin
        omega

end

theorem schedRrPickTask_fifo (s : Scheduler) (i : ℕ) : (schedRrPickTask s).1.queue (.fifo i) = s.queue (.fifo i) := by
  unfold schedRrPickTask
  split
  · rfl
  · rename_i level _
    have differs : Queue.fifo i ≠ .rr level := fun same => by cases same
    exact update_of_ne differs (listRotateAnticlockwise (s.queue (.rr level))) s.queue

/-- The switch to a task of a runqueue, or to the idle task, returns. A task that is killed leaves no runqueue. -/
theorem Scheduler.Ranked.switchTo (ranked : s.Ranked) (picked : t = idleTask ∨ s.Ready t) :
    ∃ next, switchTo s (schedRrPickTask s).1 t = some next ∧ next.current = t ∧
      ∀ i, next.queue (.fifo i) = s.queue (.fifo i) ∧ (next.queue (.rr i)).Perm (s.queue (.rr i)) := by
  have rotated (i : ℕ) := And.intro (schedRrPickTask_fifo s i) (schedRrPickTask_queue s (.rr i))
  unfold Sched.switchTo Sched.taskAnnihilate
  dsimp only
  split
  · rename_i kill
    have absent := ranked.ending kill
    by_cases idles : s.current = idleTask
    · rw [if_pos idles]
      exact ⟨_, rfl, rfl, rotated⟩
    · have differs : ¬ t = s.current := by
        rintro rfl
        exact picked.elim idles absent
      rw [if_neg idles, if_neg differs]
      refine ⟨_, rfl, rfl, fun i => ⟨?_, ?_⟩⟩
      · have gone : s.current ∉ s.queue (.fifo i) := fun there => absent ⟨i, .inl there⟩
        change ((schedRrPickTask s).1.queue (.fifo i)).erase s.current = _
        rw [(rotated i).1, erase_of_not_mem gone]
      · have gone : s.current ∉ (schedRrPickTask s).1.queue (.rr i) :=
          fun there => absent ⟨i, .inr ((rotated i).2.mem_iff.mp there)⟩
        change (((schedRrPickTask s).1.queue (.rr i)).erase s.current).Perm _
        rw [erase_of_not_mem gone]
        exact (rotated i).2
  · exact ⟨_, rfl, rfl, rotated⟩

/-- The scheduler chooses as it should, and keeps the tasks of each queue. -/
theorem Scheduler.Ranked.schedule (ranked : s.Ranked) (unlocked : s.isLocked = 0) :
    ∃ next, schedule s = some next ∧ s.Chosen next.current ∧
      ∀ i, next.queue (.fifo i) = s.queue (.fifo i) ∧ (next.queue (.rr i)).Perm (s.queue (.rr i)) := by
  have chosen := ranked.chosen
  unfold Sched.schedule
  rw [if_neg (not_not_intro unlocked)]
  dsimp only
  cases choice : prefer s (schedFifoPickTask s) (schedRrPickTask s).2 with
  | none =>
    rw [choice] at chosen
    obtain ⟨next, switched, now, queues⟩ := ranked.switchTo (.inl rfl)
    dsimp only
    rw [if_pos ranked.idle]
    exact ⟨next, switched, now ▸ chosen, queues⟩
  | some t =>
    rw [choice] at chosen
    have picked : t = idleTask ∨ s.Ready t := by
      by_cases some : ∃ u, s.Ready u
      · exact .inr (chosen.ready some)
      · exact .inl (chosen.idles fun u ready => some ⟨u, ready⟩)
    obtain ⟨next, switched, now, queues⟩ := ranked.switchTo picked
    exact ⟨next, switched, now ▸ chosen, queues⟩

theorem Scheduler.Ranked.change {next : Scheduler} (ranked : s.Ranked) (config : next.config = s.config)
    (priority : ∀ u, (next.task u).priority = (s.task u).priority)
    (queues : ∀ (policy : Policy) i, ∀ u ∈ next.queue (policy.queue i), u ∈ s.queue (policy.queue i) ∨
      (s.task u).priority = i ∧ i < policy.priorities s.config)
    (idle : (next.task idleTask).running = true) (ending : next.killTask = true → ¬ next.Ready next.current) :
    next.Ranked := by
  refine ⟨fun i u there => ?_, fun i u there => ?_, idle, ending⟩
  · rw [priority, config]
    exact (queues .fifo i u there).elim (ranked.fifo i u) id
  · rw [priority, config]
    exact (queues .rr i u there).elim (ranked.rr i u) id

end Choice

section Runs
variable {s : Scheduler}

/-- What the tasks and the scheduler keep between two ends of tasks -/
structure Scheduler.Regular (s : Scheduler) : Prop where
  ranked : s.Ranked
  spared : s.killTask = false
  idle : (s.task idleTask).policy = none

theorem Scheduler.Regular.schedule {next : Scheduler} (regular : s.Regular) (scheduled : schedule s = some next) :
    next.Regular := by
  obtain ⟨tasks, config, kill⟩ := schedRrPickTask_fields s
  rcases schedule_cases regular.spared scheduled with rfl | ⟨t, rfl⟩
  · exact regular
  · have spared := kill.trans regular.spared
    refine ⟨regular.ranked.change config (fun u => congrArg Task.priority (congrFun tasks u)) (fun policy i u there => ?_)
      ?_ fun killed => ?_, spared, ?_⟩
    · exact .inl ((schedRrPickTask_queue s (policy.queue i)).mem_iff.mp there)
    · exact (congrArg Task.running (congrFun tasks idleTask)).trans regular.ranked.idle
    · cases spared.symm.trans killed
    · exact (congrArg Task.policy (congrFun tasks idleTask)).trans regular.idle

theorem Scheduler.Regular.remove (regular : s.Regular) (t : ℕ) : (schedRmFromRunqueue s t).Regular := by
  unfold schedRmFromRunqueue
  split
  · exact regular
  · rename_i policy some
    have other : idleTask ≠ t := by
      rintro rfl
      cases some.symm.trans regular.idle
    have idles : update s.task t { s.task t with running := false } idleTask = s.task idleTask :=
      update_of_ne other _ _
    refine ⟨regular.ranked.change rfl (fun u => ?_) (fun policy i u there => .inl (mem_of_mem_erase there)) ?_
      fun killed => ?_, regular.spared, ?_⟩
    · change (update s.task t { s.task t with running := false } u).priority = _
      by_cases same : u = t
      · rw [same, update_self]
      · rw [update_of_ne same]
    · exact (congrArg Task.running idles).trans regular.ranked.idle
    · cases regular.spared.symm.trans killed
    · exact (congrArg Task.policy idles).trans regular.idle

theorem Scheduler.Regular.add {t : ℕ} (regular : s.Regular) (new : (s.task t).running = false) :
    (schedAddToRunqueue s t).Regular := by
  have other : idleTask ≠ t := by
    rintro rfl
    cases regular.ranked.idle.symm.trans new
  have idles : (s.ready t).task idleTask = s.task idleTask := update_of_ne other ..
  have priority (u : ℕ) : ((s.ready t).task u).priority = (s.task u).priority := by
    change (update s.task t _ u).priority = _
    by_cases same : u = t
    · rw [same, update_self]
    · rw [update_of_ne same]
  have running := (congrArg Task.running idles).trans regular.ranked.idle
  have policy := (congrArg Task.policy idles).trans regular.idle
  have spared (next : Scheduler) (same : next.killTask = s.killTask) (killed : next.killTask = true) :
      ¬ next.Ready next.current := by
    cases (same.trans regular.spared).symm.trans killed
  by_cases covered : ((s.task t).policy.getD .rr).Covers s.config (s.task t).priority
  · obtain ⟨needResched, added⟩ := schedAddToRunqueue_covered rfl covered
    rw [added]
    refine ⟨regular.ranked.change rfl priority (fun policy i u there => ?_) running (spared _ rfl), regular.spared, policy⟩
    change u ∈ update s.queue _ _ (policy.queue i) at there
    by_cases same : policy.queue i = ((s.task t).policy.getD .rr).queue (s.task t).priority.toNat
    · rw [same, update_self, mem_append, mem_singleton, ← same] at there
      refine there.imp_right ?_
      rintro rfl
      obtain ⟨rfl, rfl⟩ := Policy.queue_inj same
      obtain ⟨low, high⟩ := covered
      omega
    · rw [update_of_ne same] at there
      exact .inl there
  · rw [schedAddToRunqueue_refused rfl covered]
    exact ⟨regular.ranked.change rfl priority (fun policy i u there => .inl there) running (spared _ rfl),
      regular.spared, policy⟩

theorem Scheduler.Regular.run {config : Config} {priority : ℕ → ℤ} {policy : ℕ → Option Policy} {actions : List Action}
    {s : Turns} (ran : run step ⟨schedInit config priority policy, []⟩ actions = some s) : s.scheduler.Regular := by
  refine run_invariant (fun s => s.scheduler.Regular) ?_ ran @fun s action next regular stepped => ?_
  rotate_left
  · cases action with
    | schedule =>
      obtain ⟨scheduler, scheduled, rfl⟩ := map_eq_some_iff.mp stepped
      exact regular.schedule scheduled
    | block =>
      obtain rfl := some.inj stepped
      exact regular.remove _
    | wake t =>
      simp only [step] at stepped
      obtain ⟨new, stepped⟩ := ite_none_left_eq_some.mp stepped
      obtain rfl := some.inj stepped
      exact regular.add (Bool.not_eq_true _ ▸ new)
    | lock | unlock =>
      obtain rfl := some.inj stepped
      exact ⟨regular.ranked.change rfl (fun _ => rfl) (fun _ _ _ there => .inl there) regular.ranked.idle
        regular.ranked.ending, regular.spared, regular.idle⟩
  · refine ⟨⟨fun i t there => ?_, fun i t there => ?_, rfl, fun killed => ?_⟩, rfl, rfl⟩
    · cases there
    · cases there
    · cases killed

theorem Scheduler.Rings.init (config : Config) (priority : ℕ → ℤ) (policy : ℕ → Option Policy) :
    (schedInit config priority policy).Rings ⟨id, id⟩ :=
  have alone (node : Node) : (⟨id, id⟩ : Links Node).Ring node [] :=
    ⟨nodup_singleton node, isChain_pair.mpr ⟨rfl, rfl⟩⟩
  ⟨fun queue => alone (.head queue), fun _ _ _ there => absurd there not_mem_nil, fun t _ => alone (.list t)⟩

theorem Scheduler.Rings.remove {links : Links Node} (rings : s.Rings links) (t : ℕ) :
    ∃ links', (schedRmFromRunqueue s t).Rings links' := by
  unfold schedRmFromRunqueue
  split
  · exact ⟨links, rings⟩
  · have left := rings.listDel t
    exact ⟨_, left.rings, left.once, left.alone⟩

theorem Scheduler.Rings.add {links : Links Node} {t : ℕ} (rings : s.Rings links) (fresh : ∀ queue, t ∉ s.queue queue) :
    ∃ links', (schedAddToRunqueue s t).Rings links' := by
  by_cases covered : ((s.task t).policy.getD .rr).Covers s.config (s.task t).priority
  · obtain ⟨needResched, added⟩ := schedAddToRunqueue_covered rfl covered
    have linked := rings.listAdd (((s.task t).policy.getD .rr).queue (s.task t).priority.toNat) fresh
    rw [added]
    exact ⟨_, linked.rings, linked.once, linked.alone⟩
  · rw [schedAddToRunqueue_refused rfl covered]
    exact ⟨links, rings.rings, rings.once, rings.alone⟩

theorem Scheduler.Rings.run {config : Config} {priority : ℕ → ℤ} {policy : ℕ → Option Policy} {actions : List Action}
    {s : Turns} (ran : run step ⟨schedInit config priority policy, []⟩ actions = some s) :
    ∃ links, s.scheduler.Rings links := by
  refine (run_invariant (fun s => s.scheduler.Queued ∧ ∃ links, s.scheduler.Rings links)
    ⟨Scheduler.Queued.init .., _, Scheduler.Rings.init ..⟩ ran @fun _ action _ inv stepped => ?_).2
  obtain ⟨queued, links, rings⟩ := inv
  refine ⟨queued.step stepped, ?_⟩
  cases action with
  | schedule =>
    obtain ⟨scheduler, scheduled, rfl⟩ := map_eq_some_iff.mp stepped
    obtain ⟨links', -, kept⟩ := rings.schedule scheduled
    exact ⟨links', kept⟩
  | block =>
    obtain rfl := some.inj stepped
    exact rings.remove _
  | wake t =>
    simp only [step] at stepped
    obtain ⟨new, stepped⟩ := ite_none_left_eq_some.mp stepped
    obtain rfl := some.inj stepped
    exact rings.add fun queue there => new (queued.running queue t there)
  | lock | unlock =>
    obtain rfl := some.inj stepped
    exact ⟨links, rings.rings, rings.once, rings.alone⟩

end Runs

/-- An unlocked call of `schedule`, on the links of the queues, switches to a task of the highest priority, the first of
its queue if there is one of the fifo policy, and to the idle task when the runqueues are empty. It keeps the links as
rings of the same tasks, in another order in a queue of the round robin policy at most. -/
theorem schedule_picks_highest (s : Scheduler) (links : Links Node) (rings : s.Rings links) (ranked : s.Ranked)
    (unlocked : s.isLocked = 0) : ∃ (next : Scheduler) (links' : Links Node),
      (s.linked links).schedule = some (next.linked links') ∧ next.Rings links' ∧ s.Chosen next.current ∧
        ∀ i, next.queue (.fifo i) = s.queue (.fifo i) ∧ (next.queue (.rr i)).Perm (s.queue (.rr i)) := by
  obtain ⟨next, scheduled, chosen, queues⟩ := ranked.schedule unlocked
  obtain ⟨links', linked, kept⟩ := rings.schedule scheduled
  exact ⟨next, links', linked, kept, chosen, queues⟩

/-- Two tasks of the fifo policy and one of the round robin policy, all of one priority -/
def equals : Scheduler := schedInit ⟨32, 32, by decide⟩ (fun _ => 3) fun t => if t = 3 then some .rr else some .fifo

theorem schedule_picks_highest_tie : ∃ (s next : Scheduler) (links links' : Links Node),
    run step ⟨equals, []⟩ [.wake 3, .wake 1, .wake 2] = some ⟨s, []⟩ ∧ s.Rings links ∧
      (s.linked links).schedule = some (next.linked links') ∧ next.Rings links' ∧ s.Chosen next.current ∧
      ∀ i, next.queue (.fifo i) = s.queue (.fifo i) ∧ (next.queue (.rr i)).Perm (s.queue (.rr i)) := by
  have ran : run step ⟨equals, []⟩ [.wake 3, .wake 1, .wake 2] = some ⟨_, []⟩ := rfl
  obtain ⟨links, rings⟩ := Scheduler.Rings.run ran
  have regular := Scheduler.Regular.run ran
  obtain ⟨next, links', picked⟩ := schedule_picks_highest _ links rings regular.ranked rfl
  exact ⟨_, next, links, links', ran, rings, picked⟩

end Phabos.Sched
