import Phabos.Proof.Kernel.Scheduling

namespace Phabos.Sched
open Function

/-- A list holds each of its tasks once, and the node of a task says on which list it is. -/
structure Scheduler.Linked (s : Scheduler) : Prop where
  nodup : ∀ queue, (s.queue queue).Nodup
  node : ∀ t queue, t ∈ s.queue queue ↔ s.node t = some queue

/-- Where a task is on its way between two lists. -/
inductive Place where
  /-- On its list -/
  | listed
  /-- Still on its list, but not running -/
  | leaving
  /-- On no list, and not running -/
  | lifted
  /-- On no list, and running -/
  | raised

/-- A task is at a place. -/
def Scheduler.At (s : Scheduler) (t : ℕ) : Place → Prop
  | .listed => ∃ queue, s.node t = some queue ∧ ((s.task t).running = true ∧ queue = .rr 0 ∨
      (s.task t).running = false ∧ ∃ list, queue = .wait list)
  | .leaving => (∃ queue, s.node t = some queue) ∧ (s.task t).running = false
  | .lifted => s.node t = none ∧ (s.task t).running = false
  | .raised => s.node t = none ∧ (s.task t).running = true

/-- The place of a task while one task dies and one task is moved. -/
def placeOf (dying : Option ℕ) (moved : Option (ℕ × Place)) (t : ℕ) : Place :=
  match moved with
  | some (u, place) => if t = u then place else if dying = some t then .lifted else .listed
  | none => if dying = some t then .lifted else .listed

/-- Every live task other than the idle task is at its place. -/
def Scheduler.Placed (s : Scheduler) (live : ℕ → Bool) (dying : Option ℕ) (moved : Option (ℕ × Place)) : Prop :=
  ∀ t, live t = true → t ≠ idleTask → s.At t (placeOf dying moved t)

/-- The scheduler of live tasks with the priority that `task_create` gives them. -/
structure Scheduler.Sound (s : Scheduler) (live : ℕ → Bool) (nextTaskId : ℕ) : Prop where
  linked : s.Linked
  owned : ∀ t queue, s.node t = some queue → live t = true ∧ t ≠ idleTask
  priority : ∀ t, (s.task t).priority = 0
  policy : ∀ t, live t = true → (s.task t).policy = if t = idleTask then none else some .rr
  born : ∀ t, live t = true → t < nextTaskId
  current : live s.current = true
  idle : live idleTask = true
  unlocked : s.isLocked = 0

section Lists
variable {s : Scheduler} {live : ℕ → Bool} {nextTaskId t : ℕ} {dying : Option ℕ} {moved : Option (ℕ × Place)}

theorem Scheduler.Linked.listAdd (linked : s.Linked) (free : s.node t = none) (queue : Queue) :
    (s.listAdd queue t).Linked := by
  have absent (other) : t ∉ s.queue other := by
    intro there
    rw [(linked.node t other).mp there] at free
    cases free
  constructor
  · intro other
    change (update s.queue queue (s.queue queue ++ [t]) other).Nodup
    by_cases same : other = queue
    · rw [same, update_self, ← List.concat_eq_append]
      exact List.Nodup.concat (absent queue) (linked.nodup queue)
    · rw [update_of_ne same]
      exact linked.nodup other
  · intro u other
    change u ∈ update s.queue queue (s.queue queue ++ [t]) other ↔
      update s.node t (some queue) u = some other
    by_cases task : u = t
    · rw [task, update_self, Option.some.injEq]
      by_cases same : other = queue
      · rw [same, update_self]
        simp
      · rw [update_of_ne same]
        exact ⟨fun there => absurd there (absent other), fun equal => absurd equal.symm same⟩
    · rw [update_of_ne task]
      by_cases same : other = queue
      · rw [same, update_self, ← linked.node]
        simp [task]
      · rw [update_of_ne same]
        exact linked.node u other

theorem Scheduler.Linked.listDel (linked : s.Linked) (t : ℕ) : (s.listDel t).Linked := by
  constructor
  · intro queue
    exact (linked.nodup queue).erase t
  · intro u queue
    change u ∈ (s.queue queue).erase t ↔ update s.node t none u = some queue
    rw [(linked.nodup queue).mem_erase_iff]
    by_cases same : u = t
    · rw [same, update_self]
      simp
    · rw [update_of_ne same, ← linked.node]
      exact ⟨And.right, fun there => ⟨same, there⟩⟩

section
variable (sound : s.Sound live nextTaskId)
include sound

theorem Scheduler.Sound.setRunning (t : ℕ) (running : Bool) :
    (s.setTask t { s.task t with running := running }).Sound live nextTaskId := by
  have task (u) : ((s.setTask t { s.task t with running := running }).task u).priority = (s.task u).priority ∧
      ((s.setTask t { s.task t with running := running }).task u).policy = (s.task u).policy := by
    change (update s.task t _ u).priority = _ ∧ (update s.task t _ u).policy = _
    by_cases same : u = t
    · rw [same, update_self]
      exact ⟨rfl, rfl⟩
    · rw [update_of_ne same]
      exact ⟨rfl, rfl⟩
  exact
    { linked := ⟨sound.linked.nodup, sound.linked.node⟩
      owned := sound.owned
      priority := fun u => (task u).1.trans (sound.priority u)
      policy := fun u alive => (task u).2.trans (sound.policy u alive)
      born := sound.born
      current := sound.current
      idle := sound.idle
      unlocked := sound.unlocked }

theorem Scheduler.Sound.listAdd (free : s.node t = none) (alive : live t = true) (other : t ≠ idleTask) (queue : Queue) :
    (s.listAdd queue t).Sound live nextTaskId where
  linked := sound.linked.listAdd free queue
  owned u queue' linked := by
    change update s.node t (some queue) u = some queue' at linked
    by_cases same : u = t
    · rw [same]
      exact ⟨alive, other⟩
    · rw [update_of_ne same] at linked
      exact sound.owned u queue' linked
  priority := sound.priority
  policy := sound.policy
  born := sound.born
  current := sound.current
  idle := sound.idle
  unlocked := sound.unlocked

theorem Scheduler.Sound.listDel (t : ℕ) :
    (s.listDel t).Sound live nextTaskId where
  linked := sound.linked.listDel t
  owned u queue linked := by
    change update s.node t none u = some queue at linked
    by_cases same : u = t
    · rw [same, update_self] at linked
      cases linked
    · rw [update_of_ne same] at linked
      exact sound.owned u queue linked
  priority := sound.priority
  policy := sound.policy
  born := sound.born
  current := sound.current
  idle := sound.idle
  unlocked := sound.unlocked

theorem Scheduler.Sound.switch (alive : live t = true) (needResched kill : Bool) :
    ({ (schedRrPickTask s).1 with current := t, needResched := needResched, killTask := kill } : Scheduler).Sound
        live nextTaskId ∧ (schedRrPickTask s).1.node = s.node ∧ (schedRrPickTask s).1.task = s.task := by
  obtain ⟨task, -, -⟩ := schedRrPickTask_fields s
  have same : (schedRrPickTask s).1.node = s.node ∧ (schedRrPickTask s).1.isLocked = s.isLocked := by
    unfold schedRrPickTask
    split <;> exact ⟨rfl, rfl⟩
  obtain ⟨node, locked⟩ := same
  have linked : (schedRrPickTask s).1.Linked := by
    refine ⟨fun queue => ?_, fun u queue => ?_⟩
    · exact (schedRrPickTask_queue s queue).nodup_iff.mpr (sound.linked.nodup queue)
    · rw [(schedRrPickTask_queue s queue).mem_iff, node]
      exact sound.linked.node u queue
  refine ⟨?_, node, task⟩
  exact
    { linked := ⟨linked.nodup, linked.node⟩
      owned := fun u queue there => sound.owned u queue (node ▸ there)
      priority := fun u => (congrArg Task.priority (congrFun task u)).trans (sound.priority u)
      policy := fun u lives => (congrArg Task.policy (congrFun task u)).trans (sound.policy u lives)
      born := sound.born
      current := alive
      idle := sound.idle
      unlocked := locked.trans sound.unlocked }

theorem Scheduler.Sound.destroy (free : s.node t = none) (other : t ≠ idleTask) (differs : s.current ≠ t) :
    s.Sound (update live t false) nextTaskId := by
  have alive (u) (lives : live u = true) (apart : u ≠ t) : update live t false u = true := by
    rw [update_of_ne apart]
    exact lives
  have before (u) (lives : update live t false u = true) : live u = true := by
    by_cases same : u = t
    · rw [same, update_self] at lives
      cases lives
    · rwa [update_of_ne same] at lives
  exact
    { linked := sound.linked
      owned := fun u queue node => by
        refine ⟨alive u (sound.owned u queue node).1 ?_, (sound.owned u queue node).2⟩
        rintro rfl
        rw [free] at node
        cases node
      priority := sound.priority
      policy := fun u lives => sound.policy u (before u lives)
      born := fun u lives => sound.born u (before u lives)
      current := alive _ sound.current differs
      idle := alive _ sound.idle other.symm
      unlocked := sound.unlocked }

end

section
variable (sound : s.Sound live nextTaskId) (alive : live t = true) (other : t ≠ idleTask)
include sound alive other

theorem Scheduler.Sound.ready_eq : s.ready t = s.setTask t { s.task t with running := true } := by
  have policy := sound.policy t alive
  rw [if_neg other] at policy
  have same : some ((s.task t).policy.getD .rr) = (s.task t).policy := by
    rw [policy]
    rfl
  unfold Scheduler.ready
  rw [same]

theorem Scheduler.Sound.remove_eq :
    schedRmFromRunqueue s t = (s.setTask t { s.task t with running := false }).listDel t := by
  have policy := sound.policy t alive
  rw [if_neg other] at policy
  unfold schedRmFromRunqueue
  rw [policy]

theorem Scheduler.Sound.enqueueTask_eq :
    ((s.task t).policy.getD .rr).enqueueTask s t = some (s.listAdd (.rr 0) t) := by
  have policy := sound.policy t alive
  rw [if_neg other] at policy
  have positive := s.config.positive
  rw [policy]
  unfold Option.getD Policy.enqueueTask schedRrEnqueueTask enqueueTask
  dsimp only
  rw [sound.priority t, if_pos (by omega)]
  rfl

end

theorem Scheduler.At.congr {next : Scheduler} {place : Place} (there : s.At t place)
    (node : next.node t = s.node t) (running : (next.task t).running = (s.task t).running) : next.At t place := by
  cases place with
  | listed | leaving | lifted | raised =>
    unfold Scheduler.At
    rw [node, running]
    exact there

theorem placeOf_self (dying : Option ℕ) (t : ℕ) (place : Place) : placeOf dying (some (t, place)) t = place :=
  if_pos rfl

theorem placeOf_other {u : ℕ} (dying : Option ℕ) (place : Place) (differs : u ≠ t) :
    placeOf dying (some (t, place)) u = placeOf dying none u := if_neg differs

theorem placeOf_none (differs : dying ≠ some t) : placeOf dying none t = .listed := if_neg differs

theorem Scheduler.Placed.move {next : Scheduler} {place : Place} (placed : s.Placed live dying moved)
    (before : moved = none ∨ ∃ place, moved = some (t, place))
    (frame : ∀ u, u ≠ t → next.node u = s.node u ∧ (next.task u).running = (s.task u).running)
    (there : next.At t place) : next.Placed live dying (some (t, place)) := by
  intro u alive other
  by_cases same : u = t
  · rw [same, placeOf_self]
    exact there
  · rw [placeOf_other dying place same]
    have early := placed u alive other
    rcases before with rfl | ⟨place', rfl⟩
    · exact early.congr (frame u same).1 (frame u same).2
    · rw [placeOf_other dying place' same] at early
      exact early.congr (frame u same).1 (frame u same).2

theorem Scheduler.Placed.settle (placed : s.Placed live dying (some (t, .listed))) (differs : dying ≠ some t) :
    s.Placed live dying none := by
  intro u alive other
  have there := placed u alive other
  by_cases same : u = t
  · rw [same, placeOf_self] at there
    rw [same, placeOf_none differs]
    exact there
  · rwa [placeOf_other dying _ same] at there

theorem Scheduler.listDel_frame (s : Scheduler) (t u : ℕ) (differs : u ≠ t) :
    (s.listDel t).node u = s.node u ∧ ((s.listDel t).task u).running = (s.task u).running :=
  ⟨update_of_ne differs _ _, rfl⟩

theorem Scheduler.listAdd_frame (s : Scheduler) (queue : Queue) (t u : ℕ) (differs : u ≠ t) :
    (s.listAdd queue t).node u = s.node u ∧ ((s.listAdd queue t).task u).running = (s.task u).running :=
  ⟨update_of_ne differs _ _, rfl⟩

theorem Scheduler.setTask_frame (s : Scheduler) (task : Task) (t u : ℕ) (differs : u ≠ t) :
    (s.setTask t task).node u = s.node u ∧ ((s.setTask t task).task u).running = (s.task u).running := by
  refine ⟨rfl, ?_⟩
  change (update s.task t task u).running = _
  rw [update_of_ne differs]

theorem Scheduler.Placed.unlink {list : WaitList} (placed : s.Placed live dying none)
    (sound : s.Sound live nextTaskId) (there : t ∈ s.queue (.wait list)) :
    live t = true ∧ t ≠ idleTask ∧ dying ≠ some t ∧ (s.listDel t).Placed live dying (some (t, .lifted)) := by
  have node := (sound.linked.node t (.wait list)).mp there
  obtain ⟨alive, other⟩ := sound.owned t _ node
  have early := placed t alive other
  have differs : dying ≠ some t := by
    intro same
    rw [show placeOf dying none t = .lifted from if_pos same] at early
    rw [early.1] at node
    cases node
  rw [placeOf_none differs] at early
  obtain ⟨queue, same, state⟩ := early
  have waits : (s.task t).running = false := by
    rcases state with ⟨-, queued⟩ | ⟨waits, -⟩
    · rw [queued, node] at same
      cases same
    · exact waits
  exact ⟨alive, other, differs, placed.move (.inl rfl) (s.listDel_frame t) ⟨update_self _ _ _, waits⟩⟩

theorem Scheduler.Placed.ready (placed : s.Placed live dying (some (t, .lifted))) (sound : s.Sound live nextTaskId)
    (alive : live t = true) (other : t ≠ idleTask) : (s.ready t).Placed live dying (some (t, .raised)) := by
  have early := placed t alive other
  rw [placeOf_self] at early
  rw [sound.ready_eq alive other]
  refine placed.move (.inr ⟨_, rfl⟩) (s.setTask_frame _ t) ⟨early.1, ?_⟩
  change (update s.task t _ t).running = true
  rw [update_self]

theorem Scheduler.Placed.enqueue (placed : s.Placed live dying (some (t, .raised))) (alive : live t = true)
    (other : t ≠ idleTask) (differs : dying ≠ some t) :
    s.node t = none ∧ (s.listAdd (.rr 0) t).Placed live dying none := by
  have early := placed t alive other
  rw [placeOf_self] at early
  have listed : (s.listAdd (.rr 0) t).At t .listed := ⟨_, update_self _ _ _, .inl ⟨early.2, rfl⟩⟩
  exact ⟨early.1, (placed.move (.inr ⟨_, rfl⟩) (s.listAdd_frame _ t) listed).settle differs⟩

theorem Scheduler.Placed.clear (placed : s.Placed live dying none) (alive : live t = true) (other : t ≠ idleTask)
    (differs : dying ≠ some t) : (s.setTask t { s.task t with running := false }).Placed live dying
      (some (t, .leaving)) := by
  have early := placed t alive other
  rw [placeOf_none differs] at early
  obtain ⟨queue, node, -⟩ := early
  refine placed.move (.inl rfl) (s.setTask_frame _ t) ⟨⟨queue, node⟩, ?_⟩
  change (update s.task t _ t).running = false
  rw [update_self]

theorem Scheduler.Placed.dequeue (placed : s.Placed live dying (some (t, .leaving))) (alive : live t = true)
    (other : t ≠ idleTask) : (s.listDel t).Placed live dying (some (t, .lifted)) := by
  have early := placed t alive other
  rw [placeOf_self] at early
  exact placed.move (.inr ⟨_, rfl⟩) (s.listDel_frame t) ⟨update_self _ _ _, early.2⟩

theorem Scheduler.Placed.link (placed : s.Placed live dying (some (t, .lifted))) (alive : live t = true)
    (other : t ≠ idleTask) (differs : dying ≠ some t) (list : WaitList) :
    s.node t = none ∧ (s.listAdd (.wait list) t).Placed live dying none := by
  have early := placed t alive other
  rw [placeOf_self] at early
  have listed : (s.listAdd (.wait list) t).At t .listed :=
    ⟨_, update_self _ _ _, .inr ⟨early.2, list, rfl⟩⟩
  exact ⟨early.1, (placed.move (.inr ⟨_, rfl⟩) (s.listAdd_frame _ t) listed).settle differs⟩

theorem Scheduler.Placed.idle (placed : s.Placed live none none) (idles : t = idleTask) :
    s.Placed live (some t) none := by
  intro u alive other
  rw [show placeOf (some t) none u = .listed from if_neg fun same => other ((Option.some.inj same).symm.trans idles)]
  exact placed u alive other

theorem Scheduler.Placed.run {new : ℕ} (placed : s.Placed live none none) (dead : live new = false)
    (free : s.node new = none) :
    ((s.setTask new ⟨0, true, some .rr⟩).listAdd (.rr 0) new).Placed (update live new true) none none := by
  intro u alive other
  by_cases same : u = new
  · subst same
    refine ⟨_, update_self _ _ _, .inl ⟨?_, rfl⟩⟩
    change (update s.task u _ u).running = true
    rw [update_self]
  · rw [update_of_ne same] at alive
    have frame := (s.setTask new ⟨0, true, some .rr⟩).listAdd_frame (.rr 0) new u same
    have changed := s.setTask_frame ⟨0, true, some .rr⟩ new u same
    exact (placed u alive other).congr (frame.1.trans changed.1) (frame.2.trans changed.2)

theorem Scheduler.Placed.die (placed : s.Placed live none (some (t, .lifted))) : s.Placed live (some t) none := by
  intro u alive other
  have early := placed u alive other
  by_cases same : u = t
  · rw [same, placeOf_self] at early
    rw [same, show placeOf (some t) none t = .lifted from if_pos rfl]
    exact early
  · rw [placeOf_other none _ same] at early
    rwa [show placeOf (some t) none u = .listed from if_neg fun equal => same (Option.some.inj equal).symm]

theorem Scheduler.Sound.run {new : ℕ} (sound : s.Sound live new) :
    schedAddToRunqueue (s.setTask new ⟨0, true, none⟩) new =
        (s.setTask new ⟨0, true, some .rr⟩).listAdd (.rr 0) new ∧
      ((s.setTask new ⟨0, true, some .rr⟩).listAdd (.rr 0) new).Sound (update live new true) (new + 1) ∧
      new ≠ s.current ∧ live new = false ∧ s.node new = none := by
  have dead : live new = false := by
    by_contra alive
    exact Nat.lt_irrefl _ (sound.born new (eq_true_of_ne_false alive))
  have other : new ≠ idleTask := by
    rintro rfl
    rw [sound.idle] at dead
    cases dead
  have differs : new ≠ s.current := by
    intro same
    rw [same, sound.current] at dead
    cases dead
  have free : s.node new = none := by
    by_contra linked
    obtain ⟨queue, node⟩ := Option.ne_none_iff_exists'.mp linked
    rw [(sound.owned new queue node).1] at dead
    cases dead
  have task (u) : u = new ∧ (s.setTask new ⟨0, true, some .rr⟩).task u = ⟨0, true, some .rr⟩ ∨
      u ≠ new ∧ (s.setTask new ⟨0, true, some .rr⟩).task u = s.task u := by
    by_cases same : u = new
    · exact .inl ⟨same, same ▸ update_self _ _ _⟩
    · exact .inr ⟨same, update_of_ne same _ _⟩
  have alive (u) : update live new true u = true ↔ u = new ∨ live u = true := by
    by_cases same : u = new
    · rw [same, update_self]
      simp
    · rw [update_of_ne same]
      simp [same]
  have started : (s.setTask new ⟨0, true, some .rr⟩).Sound (update live new true) (new + 1) :=
    { linked := ⟨sound.linked.nodup, sound.linked.node⟩
      owned := fun u queue node => ⟨(alive u).mpr (.inr (sound.owned u queue node).1), (sound.owned u queue node).2⟩
      priority := by
        intro u
        rcases task u with ⟨-, same⟩ | ⟨-, same⟩
        · rw [same]
        · rw [same]
          exact sound.priority u
      policy := by
        intro u lives
        rcases task u with ⟨rfl, same⟩ | ⟨differs, same⟩
        · rw [same, if_neg other]
        · rw [same]
          exact sound.policy u (((alive u).mp lives).resolve_left differs)
      born := by
        intro u lives
        rcases (alive u).mp lives with rfl | old
        · exact Nat.lt_succ_self _
        · exact Nat.lt_succ_of_lt (sound.born u old)
      current := (alive _).mpr (.inr sound.current)
      idle := (alive _).mpr (.inr sound.idle)
      unlocked := sound.unlocked }
  have lives : update live new true new = true := (alive new).mpr (.inl rfl)
  refine ⟨?_, started.listAdd free lives other _, differs, dead, free⟩
  have ready : (s.setTask new ⟨0, true, none⟩).ready new = s.setTask new ⟨0, true, some .rr⟩ := by
    unfold Scheduler.ready Scheduler.setTask
    simp only [update_self, update_idem, Option.getD_none]
  unfold schedAddToRunqueue
  simp only [ready, started.enqueueTask_eq lives other]
  have equal : ¬(((s.setTask new ⟨0, true, some .rr⟩).listAdd (.rr 0) new).task s.current).priority <
      (((s.setTask new ⟨0, true, some .rr⟩).listAdd (.rr 0) new).task new).priority := by
    rw [show (((s.setTask new ⟨0, true, some .rr⟩).listAdd (.rr 0) new).task s.current).priority = 0 from
      started.priority _, show (((s.setTask new ⟨0, true, some .rr⟩).listAdd (.rr 0) new).task new).priority = 0
      from started.priority _]
    exact Int.lt_irrefl 0
  exact if_neg equal

end Lists

end Phabos.Sched
