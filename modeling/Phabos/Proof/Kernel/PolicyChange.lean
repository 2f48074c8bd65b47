import Phabos.Proof.Kernel.RoundRobin
import Phabos.Proof.Kernel.TaskLists

namespace Phabos.Sched
open Library Function List Option

/-- A task on a runqueue is on the one of its policy and its priority. -/
structure Scheduler.Owned (s : Scheduler) : Prop where
  linked : s.Linked
  own : ∀ (policy : Policy) i, ∀ t ∈ s.queue (policy.queue i), (s.task t).policy = some policy ∧
    (s.task t).priority = i ∧ i < policy.priorities s.config

def Queue.IsRunqueue (queue : Queue) : Prop := ∃ (policy : Policy) (i : ℕ), queue = policy.queue i

/-- A blocked task is still blocked on its wait list, a runnable task is on exactly one runqueue, and an error changes
no policy and no list. -/
structure Unmoved (s : Scheduler) (target : Option ℕ) (result : ℤ × Scheduler) : Prop where
  blocked : ∀ t ∈ target, ∀ list, s.node t = some (.wait list) →
    result.2.node t = some (.wait list) ∧ (result.2.task t).running = (s.task t).running
  runnable : ∀ t ∈ target, ∀ queue : Queue, queue.IsRunqueue → s.node t = some queue →
    ∃! other : Queue, other.IsRunqueue ∧ t ∈ result.2.queue other
  failed : result.1 ≠ 0 →
    (∀ u, (result.2.task u).policy = (s.task u).policy) ∧ ∀ queue, result.2.queue queue = s.queue queue

/-- A runnable task has a priority of the new policy, or is the last one of its queue when there is no such policy. -/
def Moves (s : Scheduler) (policy : ℤ) (t : ℕ) : Prop :=
  ∃ (own : Policy) (i : ℕ), s.node t = some (own.queue i) ∧
    match policyOf policy with
    | some new => new.Covers s.config i
    | none => (s.queue (own.queue i)).getLast? = some t

section Change
variable {s : Scheduler} {t : ℕ}

theorem erase_append_eq_iff {items : List ℕ} (distinct : items.Nodup) :
    items.erase t ++ [t] = items ↔ items.getLast? = some t := by
  constructor
  · intro same
    rw [← same, List.getLast?_concat]
  · intro last
    obtain ⟨before, rfl⟩ := List.getLast?_eq_some_iff.mp last
    have absent : t ∉ before := fun there =>
      (nodup_append.mp distinct).2.2 t there t (mem_singleton_self t) rfl
    rw [erase_append_right _ absent, erase_cons_head, append_nil]

theorem Policy.queue_ne_wait (policy : Policy) (i : ℕ) (list : WaitList) : policy.queue i ≠ .wait list := by
  cases policy <;> exact fun same => by cases same

/-- The scheduler after a task of a policy has left its list and got a policy -/
def Scheduler.lifted (s : Scheduler) (t : ℕ) (policy : Policy) : Scheduler :=
  (s.listDel t).setTask t { s.task t with running := false, policy := some policy }

theorem Scheduler.Linked.lifted (linked : s.Linked) (t : ℕ) (policy : Policy) : (s.lifted t policy).Linked :=
  have left := linked.listDel t
  ⟨left.nodup, left.node⟩

theorem lifted_add (linked : s.Linked) (policy : Policy) :
    (schedAddToRunqueue (s.lifted t policy) t).Linked ∧
      (schedAddToRunqueue (s.lifted t policy) t).task = update s.task t
        { s.task t with running := true, policy := some policy } ∧
      if policy.Covers s.config (s.task t).priority then
        (schedAddToRunqueue (s.lifted t policy) t).node t = some (policy.queue (s.task t).priority.toNat) ∧
          ∀ queue, (schedAddToRunqueue (s.lifted t policy) t).queue queue =
            if queue = policy.queue (s.task t).priority.toNat then (s.queue queue).erase t ++ [t]
            else (s.queue queue).erase t
      else (schedAddToRunqueue (s.lifted t policy) t).node t = none := by
  have left := linked.lifted t policy
  have task : (s.lifted t policy).task t = { s.task t with running := false, policy := some policy } :=
    update_self ..
  have same : ((s.lifted t policy).task t).policy.getD .rr = policy := by
    rw [task]
    rfl
  have free : (s.lifted t policy).node t = none := update_self ..
  have ready : ((s.lifted t policy).ready t).task = update s.task t
      { s.task t with running := true, policy := some policy } := by
    unfold Scheduler.ready Scheduler.setTask
    dsimp only
    rw [same, task]
    exact update_idem ..
  split
  · rename_i covered
    obtain ⟨needResched, added⟩ := schedAddToRunqueue_covered same (by rwa [task])
    have listed : ((s.lifted t policy).ready t).Linked := ⟨left.nodup, left.node⟩
    rw [added, task]
    have linked' := listed.listAdd (t := t) free (policy.queue (s.task t).priority.toNat)
    refine ⟨⟨linked'.nodup, linked'.node⟩, ready, update_self .., fun queue => ?_⟩
    change update (fun queue => (s.queue queue).erase t) _ _ queue = _
    by_cases here : queue = policy.queue (s.task t).priority.toNat
    · rw [if_pos here, here, update_self]
      rfl
    · rw [if_neg here, update_of_ne here]
  · rename_i refused
    rw [schedAddToRunqueue_refused same (by rwa [task])]
    exact ⟨⟨left.nodup, left.node⟩, ready, free⟩

theorem Scheduler.Linked.only (linked : s.Linked) {queue other : Queue} (node : s.node t = some queue)
    (there : t ∈ s.queue other) : other = queue :=
  some.inj (((linked.node t other).mp there).symm.trans node)

theorem unmoved_refl (linked : s.Linked) (target : Option ℕ) (code : ℤ) : Unmoved s target (code, s) := by
  refine ⟨fun _ _ _ node => ⟨node, rfl⟩, fun u _ queue run node => ?_, fun _ => ⟨fun _ => rfl, fun _ => rfl⟩⟩
  exact ⟨queue, ⟨run, (linked.node u queue).mpr node⟩, fun _ there => linked.only node there.2⟩

theorem Queue.cases (queue : Queue) : queue.IsRunqueue ∨ ∃ list, queue = .wait list := by
  cases queue with
  | fifo i => exact .inl ⟨.fifo, i, rfl⟩
  | rr i => exact .inl ⟨.rr, i, rfl⟩
  | wait list => exact .inr ⟨list, rfl⟩

theorem not_unmoved_blocked (linked : s.Linked) (policy : Policy) (code : ℤ) {list : WaitList}
    (node : s.node t = some (.wait list)) :
    ¬ Unmoved s (some t) (code, schedAddToRunqueue (s.lifted t policy) t) := by
  intro unmoved
  have still := (unmoved.blocked t rfl list node).1
  have after := (lifted_add (t := t) linked policy).2.2
  split at after
  · exact policy.queue_ne_wait _ list (some.inj (after.1.symm.trans still))
  · cases after.symm.trans still

theorem runnable_lifted (linked : s.Linked) (policy : Policy) :
    (∃! other : Queue, other.IsRunqueue ∧ t ∈ (schedAddToRunqueue (s.lifted t policy) t).queue other) ↔
      policy.Covers s.config (s.task t).priority := by
  obtain ⟨after, -, place⟩ := lifted_add (t := t) linked policy
  split at place
  · rename_i covered
    refine iff_of_true ⟨_, ⟨⟨policy, _, rfl⟩, (after.node t _).mpr place.1⟩, fun other there => ?_⟩ covered
    exact after.only place.1 there.2
  · rename_i refused
    refine iff_of_false (fun one => ?_) refused
    obtain ⟨queue, ⟨-, there⟩, -⟩ := one
    cases place.symm.trans ((after.node t queue).mp there)

variable {own : Policy}

/-- A task with a new policy stays where it was exactly when the policy covers its priority. -/
theorem unmoved_valid (owned : s.Owned) (policy : Policy) {i : ℕ} (node : s.node t = some (own.queue i)) :
    Unmoved s (some t) (0, schedAddToRunqueue (s.lifted t policy) t) ↔ policy.Covers s.config i := by
  have priority := (owned.own own i t ((owned.linked.node t _).mpr node)).2.1
  rw [← priority, ← runnable_lifted owned.linked policy]
  constructor
  · exact fun unmoved => unmoved.runnable t rfl _ ⟨own, i, rfl⟩ node
  · intro one
    refine ⟨fun u there list wait => ?_, fun u there _ _ _ => ?_, fun failed => absurd rfl failed⟩
    · obtain rfl := some.inj there
      cases own.queue_ne_wait i list (some.inj (node.symm.trans wait))
    · obtain rfl := some.inj there
      exact one

theorem unmoved_invalid (owned : s.Owned) {i : ℕ} (node : s.node t = some (own.queue i)) {code : ℤ}
    (error : code ≠ 0) : Unmoved s (some t) (code, schedAddToRunqueue (s.lifted t own) t) ↔
      (s.queue (own.queue i)).getLast? = some t := by
  have there := (owned.linked.node t _).mpr node
  obtain ⟨policy, priority, below⟩ := owned.own own i t there
  have covered : own.Covers s.config (s.task t).priority := by
    rw [priority]
    exact ⟨Int.natCast_nonneg i, by omega⟩
  obtain ⟨-, task, place⟩ := lifted_add (t := t) owned.linked own
  rw [if_pos covered, priority, Int.toNat_natCast] at place
  rw [← erase_append_eq_iff (owned.linked.nodup _)]
  constructor
  · intro unmoved
    have same := (unmoved.failed error).2 (own.queue i)
    rwa [place.2, if_pos rfl] at same
  · intro same
    refine ⟨fun u here list wait => ?_, fun u here _ _ _ => ?_, fun _ => ⟨fun u => ?_, fun queue => ?_⟩⟩
    · obtain rfl := some.inj here
      cases own.queue_ne_wait i list (some.inj (node.symm.trans wait))
    · obtain rfl := some.inj here
      exact (runnable_lifted owned.linked own).mpr covered
    · dsimp only
      rw [task]
      by_cases equal : u = t
      · rw [equal, update_self, policy]
      · rw [update_of_ne equal]
    · rw [place.2]
      by_cases here : queue = own.queue i
      · rw [if_pos here, here, same]
      · rw [if_neg here, erase_of_not_mem fun other => here (owned.linked.only node other)]

theorem remove_eq_lifted (policy : (s.task t).policy = some own) :
    schedRmFromRunqueue s t = s.lifted t own := by
  unfold schedRmFromRunqueue Scheduler.lifted
  rw [policy]
  dsimp only
  rw [policy]
  rfl

theorem remove_set_eq_lifted (policy : (s.task t).policy = some own) (new : Policy) :
    (schedRmFromRunqueue s t).setTask t { (schedRmFromRunqueue s t).task t with policy := some new } =
      s.lifted t new := by
  rw [remove_eq_lifted policy]
  unfold Scheduler.lifted Scheduler.setTask
  dsimp only
  rw [update_self, update_idem]

theorem sysSchedSetscheduler_valid {table : ℤ → Option ℕ} {pid number : ℤ} {own new : Policy}
    (target : pidTask table s pid = some t) (given : (s.task t).policy = some own) (valid : policyOf number = some new) :
    sysSchedSetscheduler table s pid number = (0, schedAddToRunqueue (s.lifted t new) t) := by
  unfold sysSchedSetscheduler
  rw [target]
  dsimp only
  rw [if_neg (by rw [given]; exact some_ne_none own), valid]
  dsimp only
  rw [remove_set_eq_lifted given]

theorem sysSchedSetscheduler_invalid {table : ℤ → Option ℕ} {pid number : ℤ}
    (target : pidTask table s pid = some t) (given : (s.task t).policy = some own) (invalid : policyOf number = none) :
    sysSchedSetscheduler table s pid number = (-EINVAL, schedAddToRunqueue (s.lifted t own) t) := by
  unfold sysSchedSetscheduler
  rw [target]
  dsimp only
  rw [if_neg (by rw [given]; exact some_ne_none own), invalid]
  dsimp only
  rw [remove_eq_lifted given]

end Change

section Runs
variable {s next : Scheduler} {t : ℕ}

theorem Scheduler.Owned.move (owned : s.Owned) (linked : next.Linked) (config : next.config = s.config)
    (task : ∀ u ≠ t, next.task u = s.task u) (queues : ∀ queue, ∀ u ≠ t, u ∈ next.queue queue → u ∈ s.queue queue)
    (moved : ∀ (policy : Policy) i, t ∈ next.queue (policy.queue i) → (next.task t).policy = some policy ∧
      (next.task t).priority = i ∧ i < policy.priorities s.config) : next.Owned := by
  refine ⟨linked, fun policy i u there => ?_⟩
  rw [config]
  by_cases same : u = t
  · rw [same] at there ⊢
    exact moved policy i there
  · rw [task u same]
    exact owned.own policy i u (queues _ u same there)

theorem Scheduler.Owned.schedule (owned : s.Owned) (spared : s.killTask = false) (scheduled : schedule s = some next) :
    next.Owned := by
  rcases schedule_cases spared scheduled with rfl | ⟨t, rfl⟩
  · exact owned
  · obtain ⟨task, config, -⟩ := schedRrPickTask_fields s
    have node : (schedRrPickTask s).1.node = s.node := by
      unfold schedRrPickTask
      split <;> rfl
    have mem (queue : Queue) := fun u => (schedRrPickTask_queue s queue).mem_iff (a := u)
    refine ⟨⟨fun queue => ?_, fun u queue => ?_⟩, fun policy i u there => ?_⟩
    · exact (schedRrPickTask_queue s queue).nodup_iff.mpr (owned.linked.nodup queue)
    · change u ∈ (schedRrPickTask s).1.queue queue ↔ (schedRrPickTask s).1.node u = some queue
      rw [mem, node]
      exact owned.linked.node u queue
    · change ((schedRrPickTask s).1.task u).policy = _ ∧ ((schedRrPickTask s).1.task u).priority = _ ∧
        i < policy.priorities (schedRrPickTask s).1.config
      rw [task, config]
      exact owned.own policy i u ((mem _ u).mp there)

theorem Scheduler.Owned.remove (owned : s.Owned) (t : ℕ) : (schedRmFromRunqueue s t).Owned := by
  unfold schedRmFromRunqueue
  split
  · exact owned
  · have left := owned.linked.listDel t
    refine owned.move (t := t) ⟨left.nodup, left.node⟩ rfl (fun u other => update_of_ne other ..)
      (fun queue u _ there => mem_of_mem_erase there) fun policy i there => ?_
    exact absurd rfl ((owned.linked.nodup _).mem_erase_iff.mp there).1

theorem Scheduler.Owned.add (owned : s.Owned) (free : s.node t = none) : (schedAddToRunqueue s t).Owned := by
  have ready : ((s.ready t).task t) = { s.task t with policy := some ((s.task t).policy.getD .rr), running := true } :=
    update_self ..
  have others (u : ℕ) (other : u ≠ t) : (s.ready t).task u = s.task u := update_of_ne other ..
  have absent (queue : Queue) : t ∉ s.queue queue := fun there => by
    cases ((owned.linked.node t queue).mp there).symm.trans free
  by_cases covered : ((s.task t).policy.getD .rr).Covers s.config (s.task t).priority
  · obtain ⟨needResched, added⟩ := schedAddToRunqueue_covered rfl covered
    have linked : (s.ready t).Linked := ⟨owned.linked.nodup, owned.linked.node⟩
    have listed := linked.listAdd (t := t) free (((s.task t).policy.getD .rr).queue (s.task t).priority.toNat)
    rw [added]
    refine owned.move (t := t) ⟨listed.nodup, listed.node⟩ rfl others (fun queue u other there => ?_)
      fun policy i there => ?_
    · change u ∈ update s.queue _ _ queue at there
      by_cases here : queue = ((s.task t).policy.getD .rr).queue (s.task t).priority.toNat
      · rw [here, update_self, mem_append, mem_singleton, or_iff_left other] at there
        exact here ▸ there
      · rwa [update_of_ne here] at there
    · have node := (listed.node t _).mp there
      have tail : ((s.ready t).listAdd (((s.task t).policy.getD .rr).queue (s.task t).priority.toNat) t).node t =
          some (((s.task t).policy.getD .rr).queue (s.task t).priority.toNat) := update_self ..
      obtain ⟨same, level⟩ := Policy.queue_inj (some.inj (tail.symm.trans node))
      change ((s.ready t).task t).policy = _ ∧ ((s.ready t).task t).priority = _ ∧ _
      rw [ready, ← level, ← same]
      obtain ⟨low, high⟩ := covered
      exact ⟨rfl, (Int.toNat_of_nonneg low).symm, by omega⟩
  · rw [schedAddToRunqueue_refused rfl covered]
    exact owned.move (t := t) ⟨owned.linked.nodup, owned.linked.node⟩ rfl others (fun _ _ _ there => there)
      fun policy i there => absurd there (absent _)

theorem Scheduler.Owned.run {config : Config} {priority : ℕ → ℤ} {policy : ℕ → Option Policy} {actions : List Action}
    {s : Turns} (ran : run step ⟨schedInit config priority policy, []⟩ actions = some s) : s.scheduler.Owned := by
  refine (run_invariant (fun s => s.scheduler.Queued ∧ s.scheduler.Owned)
    ⟨Scheduler.Queued.init .., ⟨⟨fun _ => nodup_nil, fun t queue => ?_⟩, fun _ _ _ there => ?_⟩⟩ ran
    @fun _ action _ inv stepped => ?_).2
  · obtain ⟨queued, owned⟩ := inv
    refine ⟨queued.step stepped, ?_⟩
    cases action with
    | schedule =>
      obtain ⟨scheduler, scheduled, rfl⟩ := map_eq_some_iff.mp stepped
      exact owned.schedule queued.spared scheduled
    | block =>
      obtain rfl := some.inj stepped
      exact owned.remove _
    | wake t =>
      simp only [step] at stepped
      split at stepped
      · cases stepped
      · rename_i new
        obtain rfl := some.inj stepped
        refine owned.add (eq_none_iff_forall_ne_some.mpr fun queue node => new ?_)
        exact queued.running queue t ((owned.linked.node t queue).mpr node)
    | lock | unlock =>
      obtain rfl := some.inj stepped
      exact ⟨⟨owned.linked.nodup, owned.linked.node⟩, owned.own⟩
  · constructor
    · intro there
      cases there
    · intro node
      cases node
  · cases there

end Runs

/-- `sys_sched_setscheduler` keeps the place of a runnable or blocked task exactly when it has no policy, or is runnable
with a priority of the new policy, or is runnable, the last task of its queue, and the new policy is none. -/
theorem sys_sched_setscheduler_unmoved (table : ℤ → Option ℕ) (s : Scheduler) (pid policy : ℤ) (owned : s.Owned)
    (listed : ∀ t ∈ pidTask table s pid, (s.task t).policy ≠ none → s.node t ≠ none) :
    Unmoved s (pidTask table s pid) (sysSchedSetscheduler table s pid policy) ↔
      ∀ t ∈ pidTask table s pid, (s.task t).policy = none ∨ Moves s policy t := by
  cases target : pidTask table s pid with
  | none =>
    unfold sysSchedSetscheduler
    rw [target]
    exact iff_of_true (unmoved_refl owned.linked _ _) fun t there => by cases there
  | some t =>
    have only : (∀ u ∈ some t, (s.task u).policy = none ∨ Moves s policy u) ↔
        (s.task t).policy = none ∨ Moves s policy t :=
      ⟨fun all => all t rfl, fun one u there => Option.some.inj there ▸ one⟩
    rw [only]
    by_cases unset : (s.task t).policy = none
    · unfold sysSchedSetscheduler
      rw [target]
      dsimp only
      rw [if_pos unset]
      exact iff_of_true (unmoved_refl owned.linked _ _) (.inl unset)
    · obtain ⟨queue, node⟩ := Option.ne_none_iff_exists'.mp (listed t target unset)
      obtain ⟨own, given⟩ := Option.ne_none_iff_exists'.mp unset
      rw [or_iff_right unset]
      unfold Moves
      obtain ⟨other, i, rfl⟩ | ⟨list, rfl⟩ := queue.cases
      · obtain rfl : own = other :=
          Option.some.inj (given.symm.trans (owned.own other i t ((owned.linked.node t _).mpr node)).1)
        have moves {p : Policy → ℕ → Prop} : (∃ other j, s.node t = some (other.queue j) ∧ p other j) ↔ p own i := by
          refine ⟨fun ⟨other, j, there, holds⟩ => ?_, fun holds => ⟨own, i, node, holds⟩⟩
          obtain ⟨rfl, rfl⟩ := Policy.queue_inj (Option.some.inj (node.symm.trans there))
          exact holds
        rw [moves]
        cases new : policyOf policy with
        | none =>
          rw [sysSchedSetscheduler_invalid target given new]
          exact unmoved_invalid owned node (by decide)
        | some new' =>
          rw [sysSchedSetscheduler_valid target given new]
          exact unmoved_valid owned new' node
      · refine iff_of_false ?_ fun ⟨other, j, there, _⟩ =>
          other.queue_ne_wait j list (Option.some.inj (there.symm.trans node))
        cases new : policyOf policy with
        | none =>
          rw [sysSchedSetscheduler_invalid target given new]
          exact not_unmoved_blocked owned.linked own _ node
        | some new' =>
          rw [sysSchedSetscheduler_valid target given new]
          exact not_unmoved_blocked owned.linked new' _ node

/-- Tasks of one priority with the default policy -/
def tasks (priority : ℤ) : Turns := ⟨schedInit ⟨32, 64, by decide⟩ (fun _ => priority) fun _ => none, []⟩

/-- The scheduler after some steps of these tasks -/
def reached (priority : ℤ) (actions : List Action) : Scheduler :=
  ((run step (tasks priority) actions).getD (tasks priority)).scheduler

theorem reached_owned {priority : ℤ} {actions : List Action} (ran : (run step (tasks priority) actions).isSome = true) :
    (reached priority actions).Owned := by
  obtain ⟨s, same⟩ := isSome_iff_exists.mp ran
  unfold reached
  rw [same]
  exact Scheduler.Owned.run same

/-- Two tasks, the second of which runs -/
def two (priority : ℤ) : Scheduler := reached priority [.wake 1, .wake 2, .schedule]

/-- A task runs that has blocked and was made runnable again, after another one, before the next switch. -/
def twoTurns : Scheduler := reached 0 [.wake 1, .schedule, .block, .wake 2, .wake 1]

/-- The last of two tasks of a queue keeps its place when there is no policy of the number. -/
theorem sys_sched_setscheduler_unmoved_last :
    Unmoved twoTurns (pidTask (fun _ => none) twoTurns 0) (sysSchedSetscheduler (fun _ => none) twoTurns 0 3) := by
  have target : pidTask (fun _ => none) twoTurns 0 = some 1 := by decide +kernel
  refine (sys_sched_setscheduler_unmoved (fun _ => none) twoTurns 0 3 (reached_owned rfl) ?_).mpr ?_
  · rintro t there -
    obtain rfl := Option.some.inj (target.symm.trans there)
    decide +kernel
  · intro t there
    obtain rfl := Option.some.inj (target.symm.trans there)
    have last : (twoTurns.queue (.rr 0)).getLast? = some 1 := by decide +kernel
    exact .inr ⟨.rr, 0, by decide +kernel, last⟩

/-- The task that runs loses its place in its queue when there is no policy of the number, and its place on a runqueue
when the new policy does not have its priority. -/
theorem sys_sched_setscheduler_moves :
    ¬ Unmoved (two 0) (pidTask (fun _ => none) (two 0) 0) (sysSchedSetscheduler (fun _ => none) (two 0) 0 3) ∧
      ¬ Unmoved (two 40) (pidTask (fun _ => none) (two 40) 0)
        (sysSchedSetscheduler (fun _ => none) (two 40) 0 SCHED_FIFO) := by
  constructor
  · have owned : (two 0).Owned := reached_owned rfl
    have target : pidTask (fun _ => none) (two 0) 0 = some 2 := by decide +kernel
    have given : ((two 0).task 2).policy = some .rr := by decide +kernel
    have node : (two 0).node 2 = some (Policy.rr.queue 0) := by decide +kernel
    have queue : (two 0).queue (Policy.rr.queue 0) = [2, 1] := by decide +kernel
    rw [sysSchedSetscheduler_invalid target given rfl, target, unmoved_invalid owned node (by decide), queue]
    decide
  · have owned : (two 40).Owned := reached_owned rfl
    have target : pidTask (fun _ => none) (two 40) 0 = some 2 := by decide +kernel
    have given : ((two 40).task 2).policy = some .rr := by decide +kernel
    have node : (two 40).node 2 = some (Policy.rr.queue 40) := by decide +kernel
    have config : (two 40).config = ⟨32, 64, by decide⟩ := rfl
    rw [sysSchedSetscheduler_valid target given rfl, target, unmoved_valid owned .fifo node, config]
    decide

end Phabos.Sched
