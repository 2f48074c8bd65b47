import Phabos.Proof.Kernel.TaskLists

namespace Phabos.Tasks.Condition
open Sched Function

/-- Where a task is in its calls that use one condition and its mutex. It waits after a release in `task_cond_wait`;
`loop` is the next node of a broadcast. -/
inductive Stage where
  | free
  | run
  | lock
  /-- On a wait list, before `sched_yield` -/
  | blocked
  | release (waits : Bool)
  | test (waits : Bool)
  | first (waits : Bool)
  | unblock (waits : Bool) (t : ℕ)
  | raise (waits : Bool) (t : ℕ) (ready : Bool)
  | clear
  | dequeue
  | link
  | signal
  | broadcast
  | turn (iter : Option ℕ)
  | unlink (loop : Option (Option ℕ)) (t : ℕ)
  | wake (loop : Option (Option ℕ)) (t : ℕ) (ready : Bool)

/-- The stage behind a release -/
def Stage.released (waits : Bool) : Stage := if waits then .clear else .free

/-- The two steps of `sched_add_to_runqueue` -/
def addOp (t : ℕ) (ready : Bool) : Op := if ready then .enqueue t else .ready t

section Stages
variable (cond mutex : Object)

def afterRelease (waits : Bool) : List Op := if waits then [.clear (.cond cond), .yield, .down mutex] else []

def afterWake : Option (Option ℕ) → List Op
  | none => []
  | some iter => [.turn cond iter]

/-- The steps that a task has before it -/
def Stage.ops : Stage → List Op
  | .free => []
  | .run => [.run]
  | .lock => [.down mutex]
  | .blocked => [.yield, .down mutex]
  | .release waits => .inc mutex :: .test mutex :: afterRelease cond mutex waits
  | .test waits => .test mutex :: afterRelease cond mutex waits
  | .first waits => .first (.semaphore mutex) :: afterRelease cond mutex waits
  | .unblock waits t => .unlink (.semaphore mutex) t :: afterRelease cond mutex waits
  | .raise waits t ready => addOp t ready :: afterRelease cond mutex waits
  | .clear => [.clear (.cond cond), .yield, .down mutex]
  | .dequeue => [.dequeue (.cond cond), .yield, .down mutex]
  | .link => [.link (.cond cond), .yield, .down mutex]
  | .signal => [.first (.cond cond)]
  | .broadcast => [.broadcast cond]
  | .turn iter => [.turn cond iter]
  | .unlink loop t => .unlink (.cond cond) t :: afterWake cond loop
  | .wake loop t ready => addOp t ready :: afterWake cond loop

end Stages

/-- The task that is between two lists, taken off its wait list by a task at the stage -/
def Stage.hand : Stage → Option ℕ
  | .raise _ t _ | .wake _ t _ => some t
  | _ => none

/-- The task in hand once its state is set -/
def Stage.raised : Stage → Option ℕ
  | .raise _ t true | .wake _ t true => some t
  | _ => none

/-- The lists and the tasks that wait on them, or are on their way to a runqueue. A task that creates tasks only may be
the idle task. -/
structure Places (s : Scheduler) (live : ℕ → Bool) (nextTaskId : ℕ) (stage : ℕ → Stage) : Prop where
  sound : s.Sound live nextTaskId
  spared : s.killTask = false
  idles : stage idleTask = .free ∨ stage idleTask = .run
  alive : ∀ u, stage u ≠ .free → live u = true
  waits : ∀ t list, s.node t = some (.wait list) → stage t = if t = s.current then .blocked else .lock
  held : ∀ u t, (stage u).hand = some t → s.node t = none ∧ t ≠ s.current ∧ stage t = .lock
  alone : ∀ u v t, (stage u).hand = some t → (stage v).hand = some t → u = v
  raised : ∀ u t, (stage u).raised = some t → (s.task t).running = true
  off : ∀ u, stage u = .link → s.node u = none

theorem Stage.hand_of_raised {stage : Stage} {t : ℕ} (raised : stage.raised = some t) : stage.hand = some t := by
  cases stage with
  | raise waits u ready | wake loop u ready =>
    cases ready with
    | false => cases raised
    | true => exact raised
  | _ => cases raised

section Places
variable {s next : Scheduler} {live : ℕ → Bool} {nextTaskId t : ℕ} {stage : ℕ → Stage} {new : Stage}

section
variable (places : Places s live nextTaskId stage)
include places

theorem Places.ne_idleTask {u : ℕ} (free : stage u ≠ .free) (run : stage u ≠ .run) : u ≠ idleTask := by
  rintro rfl
  exact places.idles.elim free run

theorem Places.go {live' : ℕ → Bool} {nextTaskId' x : ℕ} (unblocked : stage s.current ≠ .blocked)
    (sound : next.Sound live' nextTaskId') (spared : next.killTask = false) (current : next.current = s.current)
    (alive : ∀ t, live t = true → live' t = true) (idles : s.current = idleTask → new = .free ∨ new = .run)
    (frame : ∀ t, t ≠ x → next.node t = s.node t ∧ (next.task t).running = (s.task t).running)
    (apart : ∀ v, v ≠ s.current → (stage v).hand ≠ some x ∧ (v = x → stage v ≠ .link))
    (here : ∀ list, next.node x = some (.wait list) → x = s.current ∧ new = .blocked)
    (hand : ∀ t, new.hand = some t → next.node t = none ∧ t ≠ s.current ∧ stage t = .lock ∧ ∀ v, v ≠ s.current → (stage v).hand ≠ some t)
    (raised : ∀ t, new.raised = some t → (next.task t).running = true) (off : new = .link → next.node s.current = none) :
    Places next live' nextTaskId' (update stage s.current new) := by
  have other {v : ℕ} (differs : v ≠ s.current) : update stage s.current new v = stage v :=
    update_of_ne differs _ _
  have self : update stage s.current new s.current = new := update_self _ _ _
  refine ⟨sound, spared, ?_, fun u busy => ?_, fun t list node => ?_, fun u t holds => ?_, fun u v t one two => ?_,
    fun u t runs => ?_, fun u links => ?_⟩
  · by_cases same : idleTask = s.current
    · rw [same, self]
      exact idles same.symm
    · rw [other same]
      exact places.idles
  · by_cases same : u = s.current
    · rw [same, ← current]
      exact sound.current
    · rw [other same] at busy
      exact alive u (places.alive u busy)
  · rw [current]
    by_cases moved : t = x
    · obtain ⟨same, blocked⟩ := here list (moved ▸ node)
      rw [moved, same, self, if_pos rfl, blocked]
    · rw [(frame t moved).1] at node
      have before := places.waits t list node
      have differs : t ≠ s.current := by
        intro same
        rw [if_pos same, same] at before
        exact unblocked before
      rwa [other differs]
  · rw [current]
    by_cases same : u = s.current
    · rw [same, self] at holds
      obtain ⟨node, differs, locks, -⟩ := hand t holds
      exact ⟨node, differs, (other differs).trans locks⟩
    · rw [other same] at holds
      obtain ⟨node, differs, locks⟩ := places.held u t holds
      have still : t ≠ x := by
        rintro rfl
        exact (apart u same).1 holds
      exact ⟨(frame t still).1.trans node, differs, (other differs).trans locks⟩
  · by_cases first : u = s.current
    · by_cases second : v = s.current
      · rw [first, second]
      · rw [other second] at two
        rw [first, self] at one
        exact absurd two ((hand t one).2.2.2 v second)
    · rw [other first] at one
      by_cases second : v = s.current
      · rw [second, self] at two
        exact absurd one ((hand t two).2.2.2 u first)
      · rw [other second] at two
        exact places.alone u v t one two
  · by_cases same : u = s.current
    · rw [same, self] at runs
      exact raised t runs
    · rw [other same] at runs
      have still : t ≠ x := by
        rintro rfl
        exact (apart u same).1 (Stage.hand_of_raised runs)
      exact (frame t still).2.trans (places.raised u t runs)
  · by_cases same : u = s.current
    · rw [same, self] at links
      rw [same]
      exact off links
    · rw [other same] at links
      have still : u ≠ x := by
        rintro rfl
        exact (apart u same).2 rfl links
      exact (frame u still).1.trans (places.off u links)

theorem Places.apart_current (v : ℕ) (differs : v ≠ s.current) :
    (stage v).hand ≠ some s.current ∧ (v = s.current → stage v ≠ .link) :=
  ⟨fun holds => (places.held v s.current holds).2.1 rfl, fun same => absurd same differs⟩

theorem Places.not_waiting (unblocked : stage s.current ≠ .blocked) (list : WaitList) :
    s.node s.current ≠ some (.wait list) := by
  intro node
  have blocked := places.waits s.current list node
  rw [if_pos rfl] at blocked
  exact unblocked blocked

theorem Places.goOn (unblocked : stage s.current ≠ .blocked) (idles : s.current = idleTask → new = .free ∨ new = .run)
    (empty : new.hand = none) (links : new ≠ .link) : Places s live nextTaskId (update stage s.current new) := by
  refine places.go (x := s.current) unblocked places.sound places.spared rfl (fun _ alive => alive) idles
    (fun _ _ => ⟨rfl, rfl⟩) places.apart_current (fun list node => ?_) (fun t holds => ?_) (fun t raised => ?_)
    fun same => absurd same links
  · exact absurd node (places.not_waiting unblocked list)
  · rw [empty] at holds
    cases holds
  · rw [Stage.hand_of_raised raised] at empty
    cases empty

theorem Places.block (locks : stage s.current = .lock) (list : WaitList) :
    schedRmFromRunqueue s s.current =
        (s.setTask s.current { s.task s.current with running := false }).listDel s.current ∧
      (schedRmFromRunqueue s s.current).node s.current = none ∧
        Places ((schedRmFromRunqueue s s.current).listAdd (.wait list) s.current) live nextTaskId
          (update stage s.current .blocked) := by
  have busy : s.current ≠ idleTask := places.ne_idleTask (by rw [locks]; nofun) (by rw [locks]; nofun)
  have sound := places.sound
  have removed := sound.remove_eq sound.current busy
  have free : (schedRmFromRunqueue s s.current).node s.current = none := by
    rw [removed]
    exact update_self _ _ _
  refine ⟨removed, free, ?_⟩
  rw [removed] at free ⊢
  refine places.go (x := s.current) (by rw [locks]; nofun)
    (((sound.setRunning s.current false).listDel s.current).listAdd free sound.current busy _) places.spared rfl
    (fun _ alive => alive) (fun same => absurd same busy) (fun t differs => ?_) places.apart_current
    (fun _ _ => ⟨rfl, rfl⟩) nofun nofun nofun
  have changed := s.setTask_frame { s.task s.current with running := false } s.current t differs
  have left := (s.setTask s.current { s.task s.current with running := false }).listDel_frame s.current t differs
  have joined := Scheduler.listAdd_frame ((s.setTask s.current { s.task s.current with running := false }).listDel
    s.current) (.wait list) s.current t differs
  exact ⟨joined.1.trans (left.1.trans changed.1), joined.2.trans (left.2.trans changed.2)⟩

theorem Places.unlink (unblocked : stage s.current ≠ .blocked) (busy : s.current ≠ idleTask) {list : WaitList}
    (there : t ∈ s.queue (.wait list)) (holds : new.hand = some t) (lies : new.raised = none) :
    Places (s.listDel t) live nextTaskId (update stage s.current new) := by
  have node := (places.sound.linked.node t (.wait list)).mp there
  have differs : t ≠ s.current := by
    rintro rfl
    exact places.not_waiting unblocked list node
  have locks := places.waits t list node
  rw [if_neg differs] at locks
  have free (v : ℕ) : (stage v).hand ≠ some t := by
    intro holds
    rw [(places.held v t holds).1] at node
    cases node
  refine places.go (x := t) unblocked (places.sound.listDel t) places.spared rfl (fun _ alive => alive)
    (fun same => absurd same busy) (s.listDel_frame t) (fun v _ => ?_) (fun list' node => ?_) (fun u same => ?_)
    (fun u raised => ?_) (fun links => ?_)
  · refine ⟨free v, ?_⟩
    rintro rfl
    rw [locks]
    nofun
  · change update s.node t none t = _ at node
    rw [update_self] at node
    cases node
  · obtain rfl : t = u := Option.some.inj (holds.symm.trans same)
    exact ⟨update_self _ _ _, differs, locks, fun v _ => free v⟩
  · rw [lies] at raised
    cases raised
  · rw [links] at holds
    cases holds

theorem Places.in_hand (holds : (stage s.current).hand = some t) :
    live t = true ∧ t ≠ idleTask ∧ s.node t = none ∧ t ≠ s.current ∧ stage t = .lock ∧
      ∀ v, v ≠ s.current → (stage v).hand ≠ some t := by
  obtain ⟨node, differs, locks⟩ := places.held s.current t holds
  refine ⟨places.alive t (by rw [locks]; nofun), places.ne_idleTask (by rw [locks]; nofun) (by rw [locks]; nofun), node,
    differs, locks, fun v apart other => apart (places.alone v s.current t other holds)⟩

theorem Places.ready (unblocked : stage s.current ≠ .blocked) (busy : s.current ≠ idleTask)
    (holds : (stage s.current).hand = some t) (same : new.hand = some t) :
    s.ready t = s.setTask t { s.task t with running := true } ∧
      Places (s.ready t) live nextTaskId (update stage s.current new) := by
  obtain ⟨alive, other, node, differs, locks, free⟩ := places.in_hand holds
  have equal := places.sound.ready_eq alive other
  refine ⟨equal, ?_⟩
  rw [equal]
  refine places.go (x := t) unblocked (places.sound.setRunning t true) places.spared rfl (fun _ alive => alive)
    (fun same => absurd same busy) (s.setTask_frame _ t) (fun v apart => ⟨free v apart, ?_⟩) (fun list linked => ?_)
    (fun u again => ?_) (fun u raised => ?_) (fun links => ?_)
  · rintro rfl
    rw [locks]
    nofun
  · change s.node t = _ at linked
    rw [node] at linked
    cases linked
  · obtain rfl : t = u := Option.some.inj (same.symm.trans again)
    exact ⟨node, differs, locks, free⟩
  · obtain rfl : t = u := Option.some.inj (same.symm.trans (Stage.hand_of_raised raised))
    change (update s.task t _ t).running = true
    rw [update_self]
  · rw [links] at same
    cases same

theorem Places.enqueue (unblocked : stage s.current ≠ .blocked) (busy : s.current ≠ idleTask)
    (holds : (stage s.current).hand = some t) (empty : new.hand = none) (links : new ≠ .link) :
    Places (s.listAdd (.rr 0) t) live nextTaskId (update stage s.current new) := by
  obtain ⟨alive, other, node, differs, locks, free⟩ := places.in_hand holds
  refine places.go (x := t) unblocked (places.sound.listAdd node alive other (.rr 0)) places.spared rfl
    (fun _ alive => alive) (fun same => absurd same busy) (s.listAdd_frame (.rr 0) t)
    (fun v apart => ⟨free v apart, ?_⟩) (fun list node => ?_) (fun u again => ?_) (fun u raised => ?_)
    fun same => absurd same links
  · rintro rfl
    rw [locks]
    nofun
  · change update s.node t (some (.rr 0)) t = _ at node
    rw [update_self] at node
    cases node
  · rw [empty] at again
    cases again
  · rw [Stage.hand_of_raised raised] at empty
    cases empty

theorem Places.clear (here : stage s.current = .clear) :
    Places (s.setTask s.current { s.task s.current with running := false }) live nextTaskId
      (update stage s.current .dequeue) := by
  have unblocked : stage s.current ≠ .blocked := by rw [here]; nofun
  refine places.go (x := s.current) unblocked (places.sound.setRunning s.current false) places.spared rfl
    (fun _ alive => alive) (fun same => ?_) (s.setTask_frame _ s.current) places.apart_current
    (fun list node => absurd node (places.not_waiting unblocked list)) nofun nofun nofun
  exact absurd same (places.ne_idleTask (by rw [here]; nofun) (by rw [here]; nofun))

theorem Places.dequeue (here : stage s.current = .dequeue) :
    Places (s.listDel s.current) live nextTaskId (update stage s.current .link) := by
  have unblocked : stage s.current ≠ .blocked := by rw [here]; nofun
  have gone : (s.listDel s.current).node s.current = none := update_self _ _ _
  refine places.go (x := s.current) unblocked (places.sound.listDel s.current) places.spared rfl
    (fun _ alive => alive) (fun same => ?_) (s.listDel_frame s.current) places.apart_current
    (fun list node => ?_) nofun nofun (fun _ => gone)
  · exact absurd same (places.ne_idleTask (by rw [here]; nofun) (by rw [here]; nofun))
  · rw [gone] at node
    cases node

theorem Places.link (here : stage s.current = .link) (list : WaitList) :
    Places (s.listAdd (.wait list) s.current) live nextTaskId (update stage s.current .blocked) := by
  have unblocked : stage s.current ≠ .blocked := by rw [here]; nofun
  have busy : s.current ≠ idleTask := places.ne_idleTask (by rw [here]; nofun) (by rw [here]; nofun)
  exact places.go (x := s.current) unblocked
    (places.sound.listAdd (places.off s.current here) places.sound.current busy _) places.spared rfl
    (fun _ alive => alive) (fun same => absurd same busy) (s.listAdd_frame _ s.current) places.apart_current
    (fun _ _ => ⟨rfl, rfl⟩) nofun nofun nofun

theorem Places.run (unblocked : stage s.current ≠ .blocked) :
    schedAddToRunqueue (s.setTask nextTaskId ⟨0, true, none⟩) nextTaskId =
        (s.setTask nextTaskId ⟨0, true, some .rr⟩).listAdd (.rr 0) nextTaskId ∧
      Places ((s.setTask nextTaskId ⟨0, true, some .rr⟩).listAdd (.rr 0) nextTaskId)
        (update live nextTaskId true) (nextTaskId + 1) (update stage s.current .free) := by
  obtain ⟨added, after, differs, dead, free⟩ := places.sound.run
  have absent {u : ℕ} (busy : stage u ≠ .free) : u ≠ nextTaskId := by
    rintro rfl
    rw [places.alive u busy] at dead
    cases dead
  refine ⟨added, ?_⟩
  refine places.go (x := nextTaskId) unblocked after places.spared rfl (fun t alive => ?_) (fun _ => .inl rfl)
    (fun t apart => ?_) (fun v _ => ⟨fun holds => ?_, fun same => ?_⟩) (fun list node => ?_) nofun nofun nofun
  · by_cases same : t = nextTaskId
    · rw [same, update_self]
    · rwa [update_of_ne same]
  · have changed := s.setTask_frame ⟨0, true, some .rr⟩ nextTaskId t apart
    have joined := (s.setTask nextTaskId ⟨0, true, some .rr⟩).listAdd_frame (.rr 0) nextTaskId t apart
    exact ⟨joined.1.trans changed.1, joined.2.trans changed.2⟩
  · have locks := (places.held v nextTaskId holds).2.2
    exact absent (by rw [locks]; nofun) rfl
  · intro links
    exact absent (by rw [links]; nofun) same
  · change update s.node nextTaskId (some (.rr 0)) nextTaskId = _ at node
    rw [update_self] at node
    cases node

end

theorem schedRrPickTask_wait (s : Scheduler) (list : WaitList) :
    (schedRrPickTask s).1.queue (.wait list) = s.queue (.wait list) := by
  unfold schedRrPickTask
  split
  · rfl
  · rename_i i _
    have differs : Queue.wait list ≠ .rr i := nofun
    dsimp only
    rw [update_of_ne differs]

/-- A task that has joined a wait list has yielded when another task runs. -/
def Stage.switched : Stage → Stage
  | .blocked => .lock
  | stage => stage

@[simp] theorem Stage.hand_switched (stage : Stage) : stage.switched.hand = stage.hand := by
  cases stage <;> rfl

@[simp] theorem Stage.raised_switched (stage : Stage) : stage.switched.raised = stage.raised := by
  cases stage <;> rfl

theorem Places.tick (places : Places s live nextTaskId stage) (scheduled : schedule s = some next) :
    Places next live nextTaskId (update stage s.current (stage s.current).switched) ∧
      ∀ list, next.queue (.wait list) = s.queue (.wait list) := by
  have sound := places.sound
  obtain ⟨t, queued, switched⟩ := schedule_switches sound.unlocked scheduled
  have awake : ∀ list, s.node t ≠ some (.wait list) := by
    intro list node
    rcases queued with rfl | ⟨queue, there, runs⟩
    · exact (sound.owned idleTask _ node).2 rfl
    · rw [(sound.linked.node t queue).mp there] at node
      exact runs list (Option.some.inj node)
  have listed : t = idleTask ∨ s.node t ≠ none := by
    refine queued.imp_right fun ⟨queue, there, _⟩ free => ?_
    rw [(sound.linked.node t queue).mp there] at free
    cases free
  have alive : live t = true := by
    rcases queued with rfl | ⟨queue, there, -⟩
    · exact sound.idle
    · exact (sound.owned t queue ((sound.linked.node t queue).mp there)).1
  unfold switchTo at switched
  rw [places.spared] at switched
  obtain rfl := Option.some.inj switched
  have spared : (schedRrPickTask s).1.killTask = false := (schedRrPickTask_fields s).2.2.trans places.spared
  obtain ⟨after, node, task⟩ := sound.switch alive false (schedRrPickTask s).1.killTask
  have kept (u : ℕ) : u ≠ s.current ∧ update stage s.current (stage s.current).switched u = stage u ∨
      u = s.current ∧ update stage s.current (stage s.current).switched u = (stage u).switched := by
    by_cases same : u = s.current
    · exact .inr ⟨same, by rw [same, update_self]⟩
    · exact .inl ⟨same, update_of_ne same _ _⟩
  have hand (u : ℕ) : (update stage s.current (stage s.current).switched u).hand = (stage u).hand := by
    rcases kept u with ⟨-, same⟩ | ⟨-, same⟩
    · rw [same]
    · rw [same, Stage.hand_switched]
  refine ⟨⟨after, spared, ?_, fun u busy => places.alive u ?_, fun u list there => ?_, fun u v holds => ?_,
    fun u v x one two => places.alone u v x (hand u ▸ one) (hand v ▸ two), fun u x runs => ?_, fun u links => ?_⟩,
    schedRrPickTask_wait s⟩
  · rcases kept idleTask with ⟨-, same⟩ | ⟨-, same⟩
    · rw [same]
      exact places.idles
    · rw [same]
      exact places.idles.imp (congrArg Stage.switched) (congrArg Stage.switched)
  · rcases kept u with ⟨-, same⟩ | ⟨-, same⟩
    · rwa [same] at busy
    · intro free
      rw [same, free] at busy
      exact busy rfl
  · change (schedRrPickTask s).1.node u = _ at there
    rw [node] at there
    change _ = if u = t then Stage.blocked else .lock
    have differs : u ≠ t := by
      rintro rfl
      exact awake list there
    rw [if_neg differs]
    have before := places.waits u list there
    rcases kept u with ⟨differs, same⟩ | ⟨here, same⟩
    · rw [same, before, if_neg differs]
    · rw [same, before, if_pos here]
      rfl
  · rw [hand] at holds
    obtain ⟨free, differs, locks⟩ := places.held u v holds
    refine ⟨(congrFun node v).trans free, ?_, ?_⟩
    · rintro rfl
      rcases listed with idle | linked
      · exact places.ne_idleTask (by rw [locks]; nofun) (by rw [locks]; nofun) idle
      · exact linked free
    · rw [update_of_ne differs]
      exact locks
  · refine (congrArg Task.running (congrFun task x)).trans (places.raised u x ?_)
    rcases kept u with ⟨-, same⟩ | ⟨-, same⟩
    · rwa [same] at runs
    · rwa [same, Stage.raised_switched] at runs
  · refine (congrFun node u).trans (places.off u ?_)
    rcases kept u with ⟨-, same⟩ | ⟨-, same⟩
    · rwa [same] at links
    · rw [same] at links
      cases here : stage u <;> rw [here] at links <;> first | rfl | cases links

end Places

end Phabos.Tasks.Condition
